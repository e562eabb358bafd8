import LineShell.Unicode.Category
import LineShell.Unicode.Property.Listed

/-!
Properties of code points that follow from the listed ones and from the general categories.
-/
namespace LineShell.Unicode.Property

open Category

/-- Digits of base 16 in ASCII. -/
def asciiHexDigit : CodeSet := .ofText "30-39 41-46 61-66"

/-- The code points with property Uppercase. -/
def uppercase : CodeSet := lu.union otherUppercase

/-- The code points with property Lowercase. -/
def lowercase : CodeSet := ll.union otherLowercase

/-- The code points that have case: those of capital or small letters, and title case letters. -/
def cased : CodeSet := .unions [lowercase, uppercase, lt]

/-- Letters, numerals made of letters, and the marks that spell vowels. -/
def alphabetic : CodeSet := .unions [letter, nl, otherAlphabetic]

/-- Signs that join letters to a word. -/
def midLetter : CodeSet := .ofText "3a b7 387 55f 5f4 2027 fe13 fe55 ff1a"

/-- Signs that join letters to a word and digits to a number. -/
def midNumberLetter : CodeSet := .ofText "2e 2018-2019 2024 fe52 ff07 ff0e"

/-- The code points that are skipped when the context of a letter decides its case: marks, modifiers
and signs inside words. -/
def caseIgnorable : CodeSet :=
  .unions [mn, me, cf, lm, sk, midLetter, midNumberLetter, .ofCodes [0x27]]

/-- The code points that extend the character before them. -/
def graphemeExtend : CodeSet := .unions [mn, me, otherGraphemeExtend]

/-- Visible characters that stand by themselves, and spaces. -/
def graphemeBase : CodeSet := assigned.diff (.unions [cc, cf, co, zl, zp, graphemeExtend])

/-- The code points with property Math. -/
def math : CodeSet := sm.union otherMath

/-- The code points that show nothing where they are not supported. -/
def defaultIgnorable : CodeSet :=
  (CodeSet.unions [otherDefaultIgnorable, cf, variationSelector]).diff
    (.unions [whiteSpace, .ofText "fff9-fffb 13430-13440", prependedConcatenationMark])

/-- The characters that are kept for patterns and stand in no identifier. -/
def pattern : CodeSet := patternSyntax.union patternWhiteSpace

/-- The code points with which an identifier may start. -/
def idStart : CodeSet := (CodeSet.unions [letter, nl, otherIdStart]).diff pattern

/-- The code points with which an identifier may go on. -/
def idContinue : CodeSet :=
  (CodeSet.unions [idStart, mn, mc, nd, pc, otherIdContinue]).diff pattern

/-- Starts of identifiers whose compatibility forms are none. -/
def unstableContinue : CodeSet :=
  .ofText "37a 309b-309c fc5e-fc63 fdfa-fdfb fe70 fe72 fe74 fe76 fe78 fe7a fe7c fe7e"

/-- Starts of identifiers whose compatibility forms start none. -/
def unstableStart : CodeSet := unstableContinue.union (.ofText "e33 eb3 ff9e-ff9f")

/-- The code points with which an identifier may start, in each of its forms. -/
def xidStart : CodeSet := idStart.diff unstableStart

/-- The code points with which an identifier may go on, in each of its forms. -/
def xidContinue : CodeSet := idContinue.diff unstableContinue

/-- Signs of formulas with which an identifier may go on. -/
def idCompatMathContinue : CodeSet :=
  idCompatMathStart.union (.ofText "b2-b3 b9 2070 2074-207e 2080-208e")

/-- Characters of words: letters, marks, decimal digits, connectors and joiners. -/
def word : CodeSet := .unions [alphabetic, mark, nd, pc, joinControl]

end LineShell.Unicode.Property
