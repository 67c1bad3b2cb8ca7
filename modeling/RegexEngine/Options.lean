/-!
# Options

`Options` says how a pattern is read when it is compiled.  A group of a pattern
may set or clear some of them for its own part, which is what `FlagOverride`
records.
-/

namespace RegexEngine

/-- How a pattern is matched. -/
structure Options where
  /-- Characters match their case variants. -/
  ignoreCase : Bool := false
  /-- `^` and `$` hold at every line, not only at the ends of the subject. -/
  multiline : Bool := false
  /-- `.` matches line terminators too. -/
  dotAll : Bool := false
deriving DecidableEq, Repr, Inhabited

/-- What a group does to the options: `none` leaves one as it is. -/
structure FlagOverride where
  /-- The new value of `Options.ignoreCase`. -/
  ignoreCase : Option Bool := none
  /-- The new value of `Options.multiline`. -/
  multiline : Option Bool := none
  /-- The new value of `Options.dotAll`. -/
  dotAll : Option Bool := none
deriving DecidableEq, Repr, Inhabited

/-- The options inside a group with the given flags. -/
def Options.overlay (o : Options) (flags : FlagOverride) : Options where
  ignoreCase := flags.ignoreCase.getD o.ignoreCase
  multiline := flags.multiline.getD o.multiline
  dotAll := flags.dotAll.getD o.dotAll

end RegexEngine
