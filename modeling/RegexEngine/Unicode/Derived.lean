import RegexEngine.Unicode.GeneralCategory
import RegexEngine.Unicode.Listed

/-!
# Derived properties

Properties built from general categories and listed properties, and
`binaryProperties`, the names of all properties that a character either has or
lacks.
-/

namespace RegexEngine.Unicode

open GeneralCategory

/-! ## Letters and case -/

/-- Lowercase characters. -/
def lowercase : CharSet :=
  unionAll [lowercaseLetter.members, otherLowercase]

/-- Uppercase characters. -/
def uppercase : CharSet :=
  unionAll [uppercaseLetter.members, otherUppercase]

/-- Characters with case. -/
def cased : CharSet :=
  unionAll [lowercase, uppercase, titlecaseLetter.members]

/-- Characters that the case of their neighbours passes over. -/
def caseIgnorable : CharSet :=
  unionAll [membersOf [nonspacingMark, enclosingMark, format, modifierLetter, modifierSymbol],
    decode
    "27 2e 3a b7 387 55f 5f4 2018-2019 2024 2027 fe13 fe52 fe55 ff07 ff0e ff1a"]

/-- Letters and what is used as letters. -/
def alphabetic : CharSet :=
  unionAll [lowercase, uppercase, letter, letterNumber.members, otherAlphabetic]

/-- Letters, what is used as letters, and numbers. -/
def alphanumeric : CharSet :=
  unionAll [alphabetic, membersOf [decimalNumber, letterNumber, otherNumber]]

/-- Mathematical characters. -/
def mathematical : CharSet :=
  unionAll [mathSymbol.members, otherMath]

/-- Characters that differ from their lowercase form. -/
def changesWhenLowercased : CharSet :=
  (unionAll [uppercase, titlecaseLetter.members]).diff (decode
    "3d2-3d4 2102 2107 210b-210d 2110-2112 2115 2119-211d 2124 2128 212c-212d 2130-2131 2133
    213e-213f 2145 1d400-1d419 1d434-1d44d 1d468-1d481 1d49c 1d49e-1d49f 1d4a2 1d4a5-1d4a6
    1d4a9-1d4ac 1d4ae-1d4b5 1d4d0-1d4e9 1d504-1d505 1d507-1d50a 1d50d-1d514 1d516-1d51c
    1d538-1d539 1d53b-1d53e 1d540-1d544 1d546 1d54a-1d550 1d56c-1d585 1d5a0-1d5b9
    1d5d4-1d5ed 1d608-1d621 1d63c-1d655 1d670-1d689 1d6a8-1d6c0 1d6e2-1d6fa 1d71c-1d734
    1d756-1d76e 1d790-1d7a8 1d7ca 1f130-1f149 1f150-1f169 1f170-1f189")

/-- Characters that differ from their uppercase form. -/
def changesWhenUppercased : CharSet :=
  decode
    "61-7a b5 df-f6 f8-ff 101:137 13a:146 148-149 14b:177 17a 17c 17e-180 183 185 188 18c 192
    195 199-19b 19e 1a1:1a5 1a8 1ad 1b0 1b4 1b6 1b9 1bd 1bf 1c5-1c6 1c8-1c9 1cb-1cc 1ce:1da
    1dc-1dd 1df:1ed 1ef-1f0 1f2-1f3 1f5 1f9:21f 223:233 23c 23f-240 242 247:24d 24f-254
    256-257 259 25b-25c 260-261 263-266 268-26c 26f 271-272 275 27d 280 282-283 287-28c 292
    29d-29e 345 371 373 377 37b-37d 390 3ac-3ce 3d0-3d1 3d5-3d7 3d9:3ed 3ef-3f3 3f5 3f8 3fb
    430-45f 461:481 48b:4bf 4c2:4cc 4ce-4cf 4d1:52f 561-587 10d0-10fa 10fd-10ff 13f8-13fd
    1c80-1c88 1c8a 1d79 1d7d 1d8e 1e01:1e93 1e95-1e9b 1ea1:1efd 1eff-1f07 1f10-1f15
    1f20-1f27 1f30-1f37 1f40-1f45 1f50-1f57 1f60-1f67 1f70-1f7d 1f80-1fb4 1fb6-1fb7 1fbc
    1fbe 1fc2-1fc4 1fc6-1fc7 1fcc 1fd0-1fd3 1fd6-1fd7 1fe0-1fe7 1ff2-1ff4 1ff6-1ff7 1ffc
    214e 2170-217f 2184 24d0-24e9 2c30-2c5f 2c61 2c65-2c66 2c68:2c6c 2c73 2c76 2c81:2ce3
    2cec 2cee 2cf3 2d00-2d25 2d27 2d2d a641:a66d a681:a69b a723:a72f a733:a76f a77a a77c
    a77f:a787 a78c a791 a793-a794 a797:a7a9 a7b5:a7c3 a7c8 a7ca a7cd a7d1 a7d7:a7db a7f6
    ab53 ab70-abbf fb00-fb06 fb13-fb17 ff41-ff5a 10428-1044f 104d8-104fb 10597-105a1
    105a3-105b1 105b3-105b9 105bb-105bc 10cc0-10cf2 10d70-10d85 118c0-118df 16e60-16e7f
    1e922-1e943"

/-- Characters that differ from their titlecase form. -/
def changesWhenTitlecased : CharSet :=
  unionAll [changesWhenUppercased.diff (decode
    "1c5 1c8 1cb 1f2 10d0-10fa 10fd-10ff 1f88-1f8f 1f98-1f9f 1fa8-1faf 1fbc 1fcc 1ffc"),
    decode "1c4 1c7 1ca 1f1"]

/-- Characters that differ from their folded form. -/
def changesWhenCasefolded : CharSet :=
  unionAll [changesWhenLowercased.diff (decode "13a0-13f5"),
    decode
    "b5 df 149 17f 345 3c2 3d0-3d1 3d5-3d6 3f0-3f1 3f5 587 13f8-13fd 1c80-1c88 1e9a-1e9b
    1f80-1f87 1f90-1f97 1fa0-1fa7 1fb2-1fb4 1fb7 1fc2-1fc4 1fc7 1ff2-1ff4 1ff7 ab70-abbf
    fb00-fb06 fb13-fb17"]

/-- Characters that some mapping of case changes. -/
def changesWhenCasemapped : CharSet :=
  unionAll [changesWhenLowercased, changesWhenUppercased, changesWhenTitlecased]

/-! ## Identifiers -/

/-- Starts of identifiers. -/
def idStart : CharSet :=
  (unionAll [letter, letterNumber.members, otherIdStart]).diff
    (unionAll [patternSyntax, patternWhiteSpace])

/-- Parts of identifiers. -/
def idContinue : CharSet :=
  (unionAll [idStart, membersOf [nonspacingMark, spacingMark, decimalNumber, connectorPunctuation],
    otherIdContinue]).diff (unionAll [patternSyntax, patternWhiteSpace])

/-- Starts of identifiers that normalisation keeps. -/
def xidStart : CharSet :=
  idStart.diff (decode
    "37a e33 eb3 309b-309c fc5e-fc63 fdfa-fdfb fe70:fe7e ff9e-ff9f")

/-- Parts of identifiers that normalisation keeps. -/
def xidContinue : CharSet :=
  idContinue.diff (decode "37a 309b-309c fc5e-fc63 fdfa-fdfb fe70:fe7e")

/-! ## Graphemes -/

/-- Characters that extend the grapheme before them. -/
def graphemeExtend : CharSet :=
  unionAll [membersOf [nonspacingMark, enclosingMark], otherGraphemeExtend]

/-- Characters that start a grapheme. -/
def graphemeBase : CharSet :=
  (unionAll [membersOf [control, format, privateUse, lineSeparator, paragraphSeparator],
    unassigned, surrogateBridge, graphemeExtend]).compl

/-- Code points that are shown as nothing where they are not supported. -/
def defaultIgnorableCodePoint : CharSet :=
  (unionAll [otherDefaultIgnorableCodePoint, format.members, variationSelector]).diff
    (unionAll [whiteSpace, prependedConcatenationMark, decode "fff9-fffb 13430-1343f"])

/-! ## Names -/

/-- The properties that a character has or lacks, with their names. -/
def binaryProperties : List NamedSet :=
  [⟨["ASCII_Hex_Digit", "AHex"], asciiHexDigit⟩,
   ⟨["Alphabetic", "Alpha"], alphabetic⟩,
   ⟨["Bidi_Control", "Bidi_C"], bidiControl⟩,
   ⟨["Bidi_Mirrored", "Bidi_M"], bidiMirrored⟩,
   ⟨["Case_Ignorable", "CI"], caseIgnorable⟩,
   ⟨["Cased"], cased⟩,
   ⟨["Changes_When_Casefolded", "CWCF"], changesWhenCasefolded⟩,
   ⟨["Changes_When_Casemapped", "CWCM"], changesWhenCasemapped⟩,
   ⟨["Changes_When_Lowercased", "CWL"], changesWhenLowercased⟩,
   ⟨["Changes_When_Titlecased", "CWT"], changesWhenTitlecased⟩,
   ⟨["Changes_When_Uppercased", "CWU"], changesWhenUppercased⟩,
   ⟨["Dash"], dash⟩,
   ⟨["Default_Ignorable_Code_Point", "DI"], defaultIgnorableCodePoint⟩,
   ⟨["Deprecated", "Dep"], deprecated⟩,
   ⟨["Diacritic", "Dia"], diacritic⟩,
   ⟨["Emoji"], emoji⟩,
   ⟨["Emoji_Component", "EComp"], emojiComponent⟩,
   ⟨["Emoji_Modifier", "EMod"], emojiModifier⟩,
   ⟨["Emoji_Modifier_Base", "EBase"], emojiModifierBase⟩,
   ⟨["Emoji_Presentation", "EPres"], emojiPresentation⟩,
   ⟨["Extended_Pictographic", "ExtPict"], extendedPictographic⟩,
   ⟨["Extender", "Ext"], extender⟩,
   ⟨["Grapheme_Base", "Gr_Base"], graphemeBase⟩,
   ⟨["Grapheme_Extend", "Gr_Ext"], graphemeExtend⟩,
   ⟨["Grapheme_Link", "Gr_Link"], graphemeLink⟩,
   ⟨["Hex_Digit", "Hex"], hexDigit⟩,
   ⟨["Hyphen"], hyphen⟩,
   ⟨["IDS_Binary_Operator", "IDSB"], idsBinaryOperator⟩,
   ⟨["IDS_Trinary_Operator", "IDST"], idsTrinaryOperator⟩,
   ⟨["IDS_Unary_Operator", "IDSU"], idsUnaryOperator⟩,
   ⟨["ID_Compat_Math_Continue"], idCompatMathContinue⟩,
   ⟨["ID_Compat_Math_Start"], idCompatMathStart⟩,
   ⟨["ID_Continue", "IDC"], idContinue⟩,
   ⟨["ID_Start", "IDS"], idStart⟩,
   ⟨["Ideographic", "Ideo"], ideographic⟩,
   ⟨["Join_Control", "Join_C"], joinControl⟩,
   ⟨["Logical_Order_Exception", "LOE"], logicalOrderException⟩,
   ⟨["Lowercase", "Lower"], lowercase⟩,
   ⟨["Math"], mathematical⟩,
   ⟨["Modifier_Combining_Mark", "MCM"], modifierCombiningMark⟩,
   ⟨["Noncharacter_Code_Point", "NChar"], noncharacterCodePoint⟩,
   ⟨["Other_Alphabetic", "OAlpha"], otherAlphabetic⟩,
   ⟨["Other_Default_Ignorable_Code_Point", "ODI"], otherDefaultIgnorableCodePoint⟩,
   ⟨["Other_Grapheme_Extend", "OGr_Ext"], otherGraphemeExtend⟩,
   ⟨["Other_ID_Continue", "OIDC"], otherIdContinue⟩,
   ⟨["Other_ID_Start", "OIDS"], otherIdStart⟩,
   ⟨["Other_Lowercase", "OLower"], otherLowercase⟩,
   ⟨["Other_Math", "OMath"], otherMath⟩,
   ⟨["Other_Uppercase", "OUpper"], otherUppercase⟩,
   ⟨["Pattern_Syntax", "Pat_Syn"], patternSyntax⟩,
   ⟨["Pattern_White_Space", "Pat_WS"], patternWhiteSpace⟩,
   ⟨["Prepended_Concatenation_Mark", "PCM"], prependedConcatenationMark⟩,
   ⟨["Quotation_Mark", "QMark"], quotationMark⟩,
   ⟨["Radical"], radical⟩,
   ⟨["Regional_Indicator", "RI"], regionalIndicator⟩,
   ⟨["Sentence_Terminal", "STerm"], sentenceTerminal⟩,
   ⟨["Soft_Dotted", "SD"], softDotted⟩,
   ⟨["Terminal_Punctuation", "Term"], terminalPunctuation⟩,
   ⟨["Unified_Ideograph", "UIdeo"], unifiedIdeograph⟩,
   ⟨["Uppercase", "Upper"], uppercase⟩,
   ⟨["Variation_Selector", "VS"], variationSelector⟩,
   ⟨["White_Space", "WSpace", "space"], whiteSpace⟩,
   ⟨["XID_Continue", "XIDC"], xidContinue⟩,
   ⟨["XID_Start", "XIDS"], xidStart⟩]

end RegexEngine.Unicode
