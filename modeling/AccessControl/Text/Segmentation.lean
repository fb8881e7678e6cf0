import AccessControl.Text.BinaryProperty

/-! # Classes of characters for finding boundaries

Three properties sort characters for finding the ends of what a reader takes for one character, of
words, and of sentences. Each class has a short name and a long one.
-/

namespace AccessControl.Segmentation

open Category BinaryProperty

def carriageReturn : CodePointSet := .single '\r'

def lineFeed : CodePointSet := .single '\n'

def joiner : CodePointSet := .single '\u200d'

/-! ## Characters as they are read -/

def graphemeExtend : CodePointSet := Text.extending.union Emoji.modifiers

/-- Spacing marks that do not belong to the character before them. -/
def looseSpacingMarks : CodePointSet := .ofLines [
    "102B-102C 1038 1062-1064 1067-106D 1083 1087-108C 108F 109A-109C 1A61 1A63-1A64 AA7B AA7D",
    "11720-11721"]

def graphemePrepend : CodePointSet :=
  prependedMarks.union (.ofLines [
    "D4E 111C2-111C3 113D1 1193F 11941 11A3A 11A84-11A89 11D46 11F02"])

def graphemeControl : CodePointSet :=
  ((CodePointSet.unionOf [
      unionOf [.control, .format, .lineSeparator, .paragraphSeparator],
      unassigned.inter defaultIgnorable]).diff (.ofLines ["A D 200C-200D"])).diff
    (graphemePrepend.union graphemeExtend)

/-- Syllables that end in a vowel stand at the head of each block of twenty-eight. -/
def openSyllables : CodePointSet := .ofLines ["AC00-D788/1C"]

def graphemeBreaks : List (List String × CodePointSet) := [
  (["CN", "Control"], graphemeControl),
  (["CR"], carriageReturn),
  (["EX", "Extend"], graphemeExtend),
  (["L"], .ofLines ["1100-115F A960-A97C"]),
  (["LF"], lineFeed),
  (["LV"], openSyllables),
  (["LVT"], (CodePointSet.ofLines ["AC00-D7A3"]).diff openSyllables),
  (["PP", "Prepend"], graphemePrepend),
  (["RI", "Regional_Indicator"], Emoji.regionalIndicators),
  (["SM", "SpacingMark"],
    ((spacingMarks.diff Text.extending).union (.ofLines ["E33 EB3"])).diff looseSpacingMarks),
  (["T"], .ofLines ["11A8-11FF D7CB-D7FB"]),
  (["V"], .ofLines ["1160-11A7 D7B0-D7C6 16D63 16D67-16D6A"]),
  (["ZWJ"], joiner)]

/-! ## Words -/

def katakana : CodePointSet := .ofLines [
    "3031-3035 309B-309C 30A0-30FA 30FC-30FF 31F0-31FF 32D0-32FE 3300-3357 FF66-FF9D 1AFF0-1AFF3",
    "1AFF5-1AFFB 1AFFD-1AFFE 1B000 1B120-1B122 1B155 1B164-1B167"]

def hebrewLetters : CodePointSet := .ofLines [
    "5D0-5EA 5EF-5F2 FB1D FB1F-FB28 FB2A-FB36 FB38-FB3C FB3E FB40-FB41 FB43-FB44 FB46-FB4F"]

def wordExtend : CodePointSet := graphemeExtend.union spacingMarks

/-- Format characters, without the tags, which extend a word, and without zero-width blanks. -/
def wordFormat : CodePointSet := (formats.diff wordExtend).diff (.ofLines ["200B-200D"])

/-- Letters of scripts that are written without blanks between words. -/
def unspacedLetters : CodePointSet := .ofLines [
    "E01-E30 E32-E33 E40-E46 E81-E82 E84 E86-E8A E8C-EA3 EA5 EA7-EB0 EB2-EB3 EBD EC0-EC4 EC6",
    "EDC-EDF 1000-102A 103F 1050-1055 105A-105D 1061 1065-1066 106E-1070 1075-1081 108E",
    "1780-17B3 17D7 17DC 1950-196D 1970-1974 1980-19AB 19B0-19C9 1A20-1A54 1AA7 3041-3096",
    "309D-309F A9E0-A9E4 A9E6-A9EF A9FA-A9FE AA60-AA76 AA7A AA7E-AAAF AAB1 AAB5-AAB6 AAB9-AABD",
    "AAC0 AAC2 AADB-AADD 11700-1171A 11740-11746 1B001-1B11F 1B132 1B150-1B152"]

/-- Signs that count as letters in words. -/
def letterLikeSigns : CodePointSet := .ofLines [
    "2C2-2C5 2D2-2D7 2DE-2DF 2E5-2EB 2ED 2EF-2FF 55A-55C 55E 58A 5F3 A708-A716 A720-A721",
    "A789-A78A AB5B"]

def wordLetters : CodePointSet :=
  ((Text.alphabetic.diff
    (.unionOf [ideographs, katakana, hebrewLetters, wordExtend, unspacedLetters]))).union
      letterLikeSigns

def wordBreaks : List (List String × CodePointSet) := [
  (["LE", "ALetter"], wordLetters),
  (["CR"], carriageReturn),
  (["DQ", "Double_Quote"], .single '"'),
  (["Extend"], wordExtend),
  (["EX", "ExtendNumLet"], .ofLines ["5F 202F 203F-2040 2054 FE33-FE34 FE4D-FE4F FF3F"]),
  (["FO", "Format"], wordFormat),
  (["HL", "Hebrew_Letter"], hebrewLetters),
  (["KA", "Katakana"], katakana),
  (["LF"], lineFeed),
  (["ML", "MidLetter"], .ofLines ["3A B7 387 55F 5F4 2027 FE13 FE55 FF1A"]),
  (["MN", "MidNum"],
    .ofLines ["2C 3B 37E 589 60C-60D 66C 7F8 2044 FE10 FE14 FE50 FE54 FF0C FF1B"]),
  (["MB", "MidNumLet"], .ofLines ["2E 2018-2019 2024 FE52 FF07 FF0E"]),
  (["NL", "Newline"], .ofLines ["B-C 85 2028-2029"]),
  (["NU", "Numeric"], decimalNumbers.union (.ofLines ["66B"])),
  (["RI", "Regional_Indicator"], Emoji.regionalIndicators),
  (["SQ", "Single_Quote"], .single '\''),
  (["WSegSpace"], .ofLines ["20 1680 2000-2006 2008-200A 205F 3000"]),
  (["ZWJ"], joiner)]

/-! ## Sentences -/

def sentenceExtend : CodePointSet := .unionOf [Text.extending, spacingMarks, joiner]

/-- Small letters; those of the modern Georgian script go with the letters without case. -/
def sentenceLower : CodePointSet :=
  (Text.lowercase.diff Text.extending).diff (.ofLines ["10D0-10FA 10FD-10FF"])

def sentenceUpper : CodePointSet :=
  (Text.uppercase.union titlecaseLetters).diff (.ofLines ["1C90-1CBA 1CBD-1CBF"])

def paragraphEnds : CodePointSet := .ofLines ["85 2028-2029"]

def ambiguousEnds : CodePointSet := .ofLines ["2E 2024 FE52 FF0E"]

def sentenceBreaks : List (List String × CodePointSet) := [
  (["AT", "ATerm"], ambiguousEnds),
  (["CL", "Close"],
    (unionOf [.openPunctuation, .closePunctuation, .initialPunctuation, .finalPunctuation]).union
      (.ofLines ["22 27 275B-2760 2E00-2E01 2E06-2E08 2E0B 1F676-1F678"])),
  (["CR"], carriageReturn),
  (["EX", "Extend"], sentenceExtend),
  (["FO", "Format"], (formats.diff sentenceExtend).diff (.ofLines ["200C-200D"])),
  (["LF"], lineFeed),
  (["LO", "Lower"], sentenceLower),
  (["NU", "Numeric"], decimalNumbers.union (.ofLines ["66B-66C"])),
  (["LE", "OLetter"],
    (Text.alphabetic.union (.ofLines ["5F3"])).diff
      (.unionOf [sentenceLower, sentenceUpper, sentenceExtend])),
  (["SC", "SContinue"],
    .ofLines ["2C-2D 3A-3B 37E 55D 60C-60D 7F8 1802 1808 2013-2014 3001 FE10-FE11 FE13-FE14",
      "FE31-FE32 FE50-FE51 FE54-FE55 FE58 FE63 FF0C-FF0D FF1A-FF1B FF64"]),
  (["SE", "Sep"], paragraphEnds),
  (["SP", "Sp"], Text.blanks.diff (paragraphEnds.union (.ofLines ["A D"]))),
  (["ST", "STerm"], sentenceTerminals.diff ambiguousEnds),
  (["UP", "Upper"], sentenceUpper)]

end AccessControl.Segmentation
