import LineShell.Unicode.Property.Derived

/-!
Roles of code points at the boundaries of characters, words and sentences. Each role is a set under
its short and its long name, and no code point has two roles of one kind; those with none are left
out.
-/
namespace LineShell.Unicode.Segmentation

open Category Property

/-- The carriage return. -/
def carriageReturn : CodeSet := .ofCodes [0xD]

/-- The line feed. -/
def lineFeed : CodeSet := .ofCodes [0xA]

/-- The joiner of zero width. -/
def joiner : CodeSet := .ofCodes [0x200D]

/-- Marks written before a number, which belong to it. -/
def numberMark : CodeSet := prependedConcatenationMark.diff (.ofCodes [0x70F])

/-- What extends the character before it: marks, selectors, and the tones of emoji. -/
def extend : CodeSet := graphemeExtend.union emojiModifier

/-- Marks with a width of their own that do not belong to the character before them. -/
def separateMark : CodeSet :=
  .ofText "102b-102c 1038 1062-1064 1067-106d 1083 1087-108c 108f 109a-109c 1a61 1a63-1a64 aa7b aa7d
    11720-11721"

/-- Hangul syllables without a final consonant. -/
def openSyllable : CodeSet := .ofCodes ((List.range 399).map fun i => 0xAC00 + 28 * i)

/-- All Hangul syllables. -/
def syllable : CodeSet := .range 0xAC00 0xD7A3

/-- Roles at the boundaries of characters. -/
def graphemeRoles : List (String × String × CodeSet) :=
  [("CN", "Control",
    ((CodeSet.unions [zl, zp, cc, cf, unassigned.inter defaultIgnorable])).diff
      (.unions [carriageReturn, lineFeed, joiner, prependedConcatenationMark, extend])),
   ("CR", "CR", carriageReturn),
   ("EX", "Extend", extend),
   ("L", "L", .ofText "1100-115f a960-a97c"),
   ("LF", "LF", lineFeed),
   ("LV", "LV", openSyllable),
   ("LVT", "LVT", syllable.diff openSyllable),
   ("PP", "Prepend",
    prependedConcatenationMark.union
      (.ofText "d4e 111c2-111c3 113d1 1193f 11941 11a3a 11a84-11a89 11d46 11f02")),
   ("RI", "Regional_Indicator", regionalIndicator),
   ("SM", "SpacingMark", (mc.diff (extend.union separateMark)).union (.ofCodes [0xE33, 0xEB3])),
   ("T", "T", .ofText "11a8-11ff d7cb-d7fb"),
   ("V", "V", .ofText "1160-11a7 d7b0-d7c6 16d63 16d67-16d6a"),
   ("ZWJ", "ZWJ", joiner)]

/-- Numbers, and signs that are part of one. -/
def numeric : CodeSet := .unions [nd, .ofText "66b-66c", numberMark]

/-- Marks of any width, and the tones of emoji: what a word or a sentence passes over. -/
def extendWord : CodeSet := extend.union mc

/-- Katakana and its marks. -/
def katakana : CodeSet :=
  .ofText "3031-3035 309b-309c 30a0-30fa 30fc-30ff 31f0-31ff 32d0-32fe 3300-3357 ff66-ff9d
    1aff0-1aff3 1aff5-1affb 1affd-1affe 1b000 1b120-1b122 1b155 1b164-1b167"

/-- Hebrew letters. -/
def hebrewLetter : CodeSet :=
  .ofText "5d0-5ea 5ef-5f2 fb1d fb1f-fb28 fb2a-fb36 fb38-fb3c fb3e fb40-fb41 fb43-fb44 fb46-fb4f"

/-- Hiragana. -/
def hiragana : CodeSet :=
  .ofText "3041-3096 309d-309f 1b001-1b11f 1b132 1b150-1b152 1f200"

/-- Letters of scripts that write words without spaces between them. -/
def unspaced : CodeSet :=
  .ofText "e01-e30 e32-e33 e40-e46 e81-e82 e84 e86-e8a e8c-ea3 ea5 ea7-eb0 eb2-eb3 ebd ec0-ec4 ec6
    edc-edf 1000-102a 103f 1050-1055 105a-105d 1061 1065-1066 106e-1070 1075-1081 108e
    1780-17b3 17d7 17dc 1950-196d 1970-1974 1980-19ab 19b0-19c9 1a20-1a54 1aa7 a9e0-a9e4
    a9e6-a9ef a9fa-a9fe aa60-aa76 aa7a aa7e-aaaf aab1 aab5-aab6 aab9-aabd aac0 aac2
    aadb-aadd 11700-1171a 11740-11746"

/-- Signs that are no letters but stand in words like letters. -/
def letterLike : CodeSet :=
  .ofText "b8 2c2-2c5 2d2-2d7 2de-2df 2e5-2eb 2ed 2ef-2ff 55a-55c 55e 58a 5f3 70f a708-a716
    a720-a721 a789-a78a ab5b"

/-- Roles at the boundaries of words. -/
def wordRoles : List (String × String × CodeSet) :=
  [("CR", "CR", carriageReturn),
   ("DQ", "Double_Quote", .ofCodes [0x22]),
   ("EX", "ExtendNumLet", pc.union (.ofCodes [0x202F])),
   ("Extend", "Extend", extendWord),
   ("FO", "Format",
    cf.diff (.unions [.range 0x200B 0x200D, extendWord, prependedConcatenationMark])),
   ("HL", "Hebrew_Letter", hebrewLetter),
   ("KA", "Katakana", katakana),
   ("LE", "ALetter",
    (alphabetic.diff
      (.unions [ideographic, katakana, unspaced, hiragana, extendWord, hebrewLetter])).union
      letterLike),
   ("LF", "LF", lineFeed),
   ("MB", "MidNumLet", midNumberLetter),
   ("ML", "MidLetter", midLetter),
   ("MN", "MidNum",
    .ofText "2c 3b 37e 589 60c-60d 66c 7f8 2044 fe10 fe14 fe50 fe54 ff0c ff1b"),
   ("NL", "Newline", .ofText "b-c 85 2028-2029"),
   ("NU", "Numeric", numeric.diff (.ofCodes [0x66C])),
   ("RI", "Regional_Indicator", regionalIndicator),
   ("SQ", "Single_Quote", .ofCodes [0x27]),
   ("WSegSpace", "WSegSpace", .ofText "20 1680 2000-2006 2008-200a 205f 3000"),
   ("ZWJ", "ZWJ", joiner)]

/-- Georgian letters that have no case in sentences. -/
def georgian : CodeSet := .ofText "10d0-10fa 10fd-10ff 1c90-1cba 1cbd-1cbf"

/-- What a sentence passes over. -/
def extendSentence : CodeSet := .unions [graphemeExtend, mc, joiner]

/-- Small letters in sentences. -/
def sentenceLower : CodeSet := lowercase.diff (graphemeExtend.union georgian)

/-- Capital letters in sentences. -/
def sentenceUpper : CodeSet := (lt.union uppercase).diff georgian

/-- Full stops, which may end a sentence or an abbreviation. -/
def fullStop : CodeSet := .ofText "2e 2024 fe52 ff0e"

/-- Quotation marks that are neither initial nor final punctuation. -/
def plainQuote : CodeSet := .ofText "22 27 275b-2760 2e00-2e01 2e06-2e08 2e0b 1f676-1f678"

/-- Roles at the boundaries of sentences. -/
def sentenceRoles : List (String × String × CodeSet) :=
  [("AT", "ATerm", fullStop),
   ("CL", "Close", .unions [ps, pe, pi, pf, plainQuote]),
   ("CR", "CR", carriageReturn),
   ("EX", "Extend", extendSentence),
   ("FO", "Format", cf.diff (.unions [.range 0x200C 0x200D, extendSentence, numberMark])),
   ("LE", "OLetter",
    (alphabetic.diff (.unions [sentenceLower, sentenceUpper, extendSentence])).union
      (.ofCodes [0x5F3])),
   ("LF", "LF", lineFeed),
   ("LO", "Lower", sentenceLower),
   ("NU", "Numeric", numeric),
   ("SC", "SContinue",
    .ofText "2c-2d 3a-3b 37e 55d 60c-60d 7f8 1802 1808 2013-2014 3001 fe10-fe11 fe13-fe14 fe31-fe32
      fe50-fe51 fe54-fe55 fe58 fe63 ff0c-ff0d ff1a-ff1b ff64"),
   ("SE", "Sep", .ofText "85 2028-2029"),
   ("SP", "Sp", .ofText "9 b-c 20 a0 1680 2000-200a 202f 205f 3000"),
   ("ST", "STerm", sentenceTerminal.diff fullStop),
   ("UP", "Upper", sentenceUpper)]

end LineShell.Unicode.Segmentation
