import RegexEngine.Unicode.Derived
import RegexEngine.Unicode.Script

/-!
# Text segmentation

The classes by which text is divided into graphemes, words and sentences.
-/

namespace RegexEngine.Unicode

open GeneralCategory

/-- The tag characters. -/
def tags : CharSet :=
  decode "e0020-e007f"

/-- The zero-width joiner. -/
def zeroWidthJoiner : CharSet :=
  decode "200d"

/-- The carriage return. -/
def carriageReturn : CharSet :=
  decode "d"

/-- The line feed. -/
def lineFeed : CharSet :=
  decode "a"

/-! ## Graphemes -/

/-- Characters that continue a grapheme. -/
def graphemeContinue : CharSet :=
  unionAll [graphemeExtend, emojiModifier]

/-- Characters that stand apart from every grapheme. -/
def graphemeControl : CharSet :=
  (unionAll [membersOf [control, format, lineSeparator, paragraphSeparator],
    unassigned.inter defaultIgnorableCodePoint]).diff
    (unionAll [decode "a d 200c-200d", prependedConcatenationMark, tags])

/-- Spacing marks that stay with the grapheme before them. -/
def graphemeSpacingMark : CharSet :=
  (unionAll [spacingMark.members, decode "e33 eb3"]).diff
    (unionAll [graphemeContinue,
      decode
        "102b-102c 1038 1062-1064 1067-106d 1083 1087-108c 108f 109a-109c 1a61 1a63-1a64 aa7b
        aa7d 11720-11721"])

/-- Hangul syllables without a final consonant: every 28th one. -/
def hangulOpenSyllable : CharSet :=
  .ofRanges ((List.range 399).map fun i => .single (Char.ofNat (0xac00 + 28 * i)))

/-- The classes of grapheme segmentation, with their names. -/
def graphemeBreaks : List NamedSet :=
  [⟨["CR"], carriageReturn⟩,
   ⟨["LF"], lineFeed⟩,
   ⟨["CN", "Control"], graphemeControl⟩,
   ⟨["EX", "Extend"], graphemeContinue⟩,
   ⟨["ZWJ"], zeroWidthJoiner⟩,
   ⟨["RI", "Regional_Indicator"], regionalIndicator⟩,
   ⟨["PP", "Prepend"],
      unionAll [prependedConcatenationMark,
        decode
        "d4e 111c2-111c3 113d1 1193f 11941 11a3a 11a84-11a89 11d46 11f02"]⟩,
   ⟨["SM", "SpacingMark"], graphemeSpacingMark⟩,
   ⟨["L"], decode "1100-115f a960-a97c"⟩,
   ⟨["V"], decode "1160-11a7 d7b0-d7c6 16d63 16d67-16d6a"⟩,
   ⟨["T"], decode "11a8-11ff d7cb-d7fb"⟩,
   ⟨["LV"], hangulOpenSyllable⟩,
   ⟨["LVT"], (decode "ac00-d7a3").diff hangulOpenSyllable⟩]

/-! ## Words -/

/-- Characters that continue a word or sentence element. -/
def wordExtend : CharSet :=
  unionAll [graphemeExtend, spacingMark.members, emojiModifier]

/-- Hebrew letters. -/
def hebrewLetter : CharSet :=
  decode
    "5d0-5ea 5ef-5f2 fb1d fb1f-fb28 fb2a-fb36 fb38-fb3c fb3e fb40-fb41 fb43-fb44 fb46-fb4f"

/-- Characters written together as Katakana words. -/
def katakanaWord : CharSet :=
  decode
    "3031-3035 309b-309c 30a0-30fa 30fc-30ff 31f0-31ff 32d0-32fe 3300-3357 ff66-ff9d
    1aff0-1aff3 1aff5-1affb 1affd-1affe 1b000 1b120-1b122 1b155 1b164-1b167"

/-- Letters of scripts whose words are not divided by blanks. -/
def unspacedLetter : CharSet :=
  unionAll ((scripts.filter fun s =>
    s.names.any (["Thai", "Lao", "Myanmar", "Khmer", "Tai_Le", "New_Tai_Lue", "Tai_Tham",
      "Tai_Viet", "Ahom", "Hiragana"].contains ·)).map Script.members)

/-- Letters that make up words. -/
def wordLetter : CharSet :=
  unionAll [alphabetic.diff
      (unionAll [ideographic, katakanaWord, unspacedLetter, wordExtend, hebrewLetter]),
    decode
      "2c2-2c5 2d2-2d7 2de-2df 2e5-2eb 2ed 2ef-2ff 55a-55c 55e 58a 5f3 70f a708-a716
      a720-a721 a789-a78a ab5b"]

/-- Marks written before a number, which they span. -/
def numberMark : CharSet :=
  prependedConcatenationMark.diff (decode "70f")

/-- Numbers in words. -/
def wordNumeric : CharSet :=
  unionAll [decimalNumber.members, numberMark, decode "66b 19da"]

/-- The classes of word segmentation, with their names. -/
def wordBreaks : List NamedSet :=
  [⟨["CR"], carriageReturn⟩,
   ⟨["LF"], lineFeed⟩,
   ⟨["NL", "Newline"], decode "b-c 85 2028-2029"⟩,
   ⟨["Extend"], wordExtend⟩,
   ⟨["ZWJ"], zeroWidthJoiner⟩,
   ⟨["FO", "Format"],
      format.members.diff (unionAll [decode "200b-200d", tags, prependedConcatenationMark])⟩,
   ⟨["RI", "Regional_Indicator"], regionalIndicator⟩,
   ⟨["KA", "Katakana"], katakanaWord⟩,
   ⟨["HL", "Hebrew_Letter"], hebrewLetter⟩,
   ⟨["LE", "ALetter"], wordLetter⟩,
   ⟨["DQ", "Double_Quote"], decode "22"⟩,
   ⟨["SQ", "Single_Quote"], decode "27"⟩,
   ⟨["MB", "MidNumLet"], decode "2e 2018-2019 2024 fe52 ff07 ff0e"⟩,
   ⟨["ML", "MidLetter"], decode "3a b7 387 55f 5f4 2027 fe13 fe55 ff1a"⟩,
   ⟨["MN", "MidNum"],
      decode "2c 3b 37e 589 60c-60d 66c 7f8 2044 fe50 fe54 ff0c ff1b"⟩,
   ⟨["NU", "Numeric"], wordNumeric⟩,
   ⟨["EX", "ExtendNumLet"], decode "5f 202f 203f-2040 2054 fe33-fe34 fe4d-fe4f ff3f"⟩,
   ⟨["WSegSpace"], decode "20 1680 2000-2006 2008-200a 205f 3000"⟩]

/-! ## Sentences -/

/-- Characters that continue a sentence element. -/
def sentenceExtend : CharSet :=
  unionAll [graphemeExtend, spacingMark.members]

/-- Lowercase letters, without those of Georgian. -/
def sentenceLower : CharSet :=
  lowercase.diff (unionAll [graphemeExtend, decode "10d0-10fa 10fd-10ff"])

/-- Uppercase letters, without those of Georgian. -/
def sentenceUpper : CharSet :=
  (unionAll [uppercase, titlecaseLetter.members]).diff (decode "1c90-1cba 1cbd-1cbf")

/-- Full stops that may end a sentence or an abbreviation. -/
def fullStop : CharSet :=
  decode "2e 2024 fe52 ff0e"

/-- The classes of sentence segmentation, with their names. -/
def sentenceBreaks : List NamedSet :=
  [⟨["CR"], carriageReturn⟩,
   ⟨["LF"], lineFeed⟩,
   ⟨["EX", "Extend"], unionAll [sentenceExtend, zeroWidthJoiner]⟩,
   ⟨["SE", "Sep"], decode "85 2028-2029"⟩,
   ⟨["FO", "Format"], format.members.diff (unionAll [decode "200c-200d", tags, numberMark])⟩,
   ⟨["SP", "Sp"], decode "9 b-c 20 a0 1680 2000-200a 202f 205f 3000"⟩,
   ⟨["LO", "Lower"], sentenceLower⟩,
   ⟨["UP", "Upper"], sentenceUpper⟩,
   ⟨["LE", "OLetter"],
      unionAll [alphabetic.diff (unionAll [sentenceLower, sentenceUpper, sentenceExtend]),
        decode "5f3"]⟩,
   ⟨["NU", "Numeric"], unionAll [wordNumeric, decode "66c"]⟩,
   ⟨["AT", "ATerm"], fullStop⟩,
   ⟨["SC", "SContinue"],
      decode
        "2c-2d 3a-3b 37e 55d 60c-60d 7f8 1802 1808 2013-2014 3001 fe10-fe11 fe13-fe14
        fe31-fe32 fe50-fe51 fe54-fe55 fe58 fe63 ff0c-ff0d ff1a-ff1b ff64"⟩,
   ⟨["ST", "STerm"], sentenceTerminal.diff fullStop⟩,
   ⟨["CL", "Close"],
      unionAll [membersOf [openPunctuation, closePunctuation, initialPunctuation,
        finalPunctuation], decode "22 27 275b-2760 2e00-2e01 2e06-2e08 2e0b 1f676-1f678"]⟩]

end RegexEngine.Unicode
