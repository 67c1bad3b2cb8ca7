import RegexEngine.Unicode.Age
import RegexEngine.Unicode.Segmentation

/-!
# Properties by name

`property?` finds the set that the name in a property escape denotes.  A name
is either the name of a set or a property with a value, joined by `=` or `:`,
or by `!=` for the characters that have another value.

Names are compared loosely: letter case, blanks, underscores, hyphens and a
leading `is` make no difference.
-/

namespace RegexEngine.Unicode

/-! ## Loose names -/

/-- A letter of ASCII in lower case. -/
def lowerAscii (c : Char) : Char :=
  if 'A' ≤ c && c ≤ 'Z' then Char.ofNat (c.toNat + 32) else c

/-- Drops a leading `is` in any letter case. -/
def dropIs : List Char → List Char
  | a :: b :: rest =>
    if lowerAscii a = 'i' && lowerAscii b = 's' then rest else a :: b :: rest
  | name => name

/-- The letters that count in a name. -/
def significant (name : List Char) : List Char :=
  (name.filter fun c => c.toNat < 0x80 && !" _-".contains c).map lowerAscii

/-- The loose form of a name.  Of `isc` nothing is dropped, as `c` alone is
the name of something else. -/
def looseName (name : List Char) : List Char :=
  let rest := dropIs name
  let loose := significant rest
  if rest ≠ name && loose = ['c'] then ['i', 's', 'c'] else loose

/-- Whether one of the names has the given loose form. -/
def named (names : List String) (loose : List Char) : Bool :=
  names.any fun n => looseName n.toList = loose

/-- The set of a given loose name. -/
def lookup (sets : List NamedSet) (loose : List Char) : Option CharSet :=
  (sets.find? fun s => named s.names loose).map (·.members)

/-! ## Queries -/

/-- What a name asks for. -/
inductive PropertyQuery where
  /-- A set by its name. -/
  | byName (name : List Char)
  /-- The characters for which a property has a value, or has another one. -/
  | byValue (property value : List Char) (negated : Bool)

namespace PropertyQuery

/-- Splits a text before the first occurrence of `mark`, which is left out. -/
def splitAt? (mark : List Char) : List Char → Option (List Char × List Char)
  | [] => none
  | c :: rest =>
    if mark.isPrefixOf (c :: rest) then some ([], (c :: rest).drop mark.length)
    else (splitAt? mark rest).map fun p => (c :: p.1, p.2)

/-- Reads a query. -/
def ofName (name : List Char) : PropertyQuery :=
  match splitAt? ['!', '='] name with
  | some (p, v) => byValue p v true
  | none =>
    match (splitAt? [':'] name).or (splitAt? ['='] name) with
    | some (p, v) => byValue p v false
    | none => byName name

end PropertyQuery

/-- The script of a given loose name. -/
def script? (loose : List Char) : Option Script :=
  scripts.find? fun s => named s.names loose

/-- The set of a given loose name: a property, a general category or a script.
Three names of categories are short names of properties as well, and stand for
the categories. -/
def setByName? (loose : List Char) : Option CharSet :=
  let property :=
    if ["cf", "sc", "lc"].any fun n => n.toList = loose then none
    else lookup binaryProperties loose
  (property.or (lookup generalCategories loose)).or ((script? loose).map Script.members)

/-- The characters for which a property has a value, both by loose name. -/
def setByValue? (property value : List Char) : Option CharSet :=
  if named ["General_Category", "gc"] property then lookup generalCategories value
  else if named ["Script", "sc"] property then (script? value).map Script.members
  else if named ["Script_Extensions", "scx"] property then
    (script? value).map Script.extension
  else if named ["Age"] property then assignedBy? fun v => named v.names value
  else if named ["Grapheme_Cluster_Break", "GCB"] property then lookup graphemeBreaks value
  else if named ["Sentence_Break", "SB"] property then lookup sentenceBreaks value
  else if named ["Word_Break", "WB"] property then lookup wordBreaks value
  else none

/-- The set that a query asks for. -/
def PropertyQuery.members? : PropertyQuery → Option CharSet
  | byName name => setByName? (looseName name)
  | byValue property value negated =>
    (setByValue? (looseName property) (looseName value)).map fun s =>
      if negated then s.compl else s

/-- The set that the name of a property escape denotes.  A set of fewer than two
characters has no name. -/
def property? (name : List Char) : Option CharSet :=
  (PropertyQuery.ofName name).members?.filter fun s => !s.isEmpty && s.single?.isNone

end RegexEngine.Unicode
