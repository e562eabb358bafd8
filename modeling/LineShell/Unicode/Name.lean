import LineShell.Unicode.Age
import LineShell.Unicode.Property.CaseChange
import LineShell.Unicode.Script.Extension
import LineShell.Unicode.Segmentation

/-!
Sets of code points by name: a binary property, a general category or a script by its name alone, or
a property and one of its values. Names are compared loosely: case, blanks, low lines and hyphens do
not count, nor does an `is` at the very start.
-/
namespace LineShell.Unicode

/-- Whether a name starts with `is`, in either case. -/
def startsWithIs : List Char → Bool
  | i :: s :: _ => (i = 'i' || i = 'I') && (s = 's' || s = 'S')
  | _ => false

/-- A name reduced to what counts. What is left of `isc` alone would be the name of a category, which
is not meant. -/
def looseName (name : List Char) : String :=
  let marked := startsWithIs name
  let kept := ((if marked then name.drop 2 else name).filter fun c =>
    c.toNat < 128 && c ≠ ' ' && c ≠ '_' && c ≠ '-').map Char.toLower
  if marked && kept = ['c'] then "isc" else String.ofList kept

/-- The entry of a table that has a given name, short or long. -/
def named? {α : Type} (table : List (String × String × α)) (name : String) :
    Option (String × String × α) :=
  table.find? fun (short, long, _) =>
    looseName short.toList = name || looseName long.toList = name

namespace Property

/-- The binary properties. -/
def all : List (String × String × CodeSet) :=
  [("AHex", "ASCII_Hex_Digit", asciiHexDigit),
   ("Alpha", "Alphabetic", alphabetic),
   ("Bidi_C", "Bidi_Control", bidiControl),
   ("Bidi_M", "Bidi_Mirrored", bidiMirrored),
   ("CI", "Case_Ignorable", caseIgnorable),
   ("Cased", "Cased", cased),
   ("CWCF", "Changes_When_Casefolded", changesCasefolded),
   ("CWCM", "Changes_When_Casemapped", changesCasemapped),
   ("CWL", "Changes_When_Lowercased", changesLowercased),
   ("CWT", "Changes_When_Titlecased", changesTitlecased),
   ("CWU", "Changes_When_Uppercased", changesUppercased),
   ("Dash", "Dash", dash),
   ("DI", "Default_Ignorable_Code_Point", defaultIgnorable),
   ("Dep", "Deprecated", deprecated),
   ("Dia", "Diacritic", diacritic),
   ("Emoji", "Emoji", emoji),
   ("EComp", "Emoji_Component", emojiComponent),
   ("EMod", "Emoji_Modifier", emojiModifier),
   ("EBase", "Emoji_Modifier_Base", emojiModifierBase),
   ("EPres", "Emoji_Presentation", emojiPresentation),
   ("ExtPict", "Extended_Pictographic", extendedPictographic),
   ("Ext", "Extender", extender),
   ("Gr_Base", "Grapheme_Base", graphemeBase),
   ("Gr_Ext", "Grapheme_Extend", graphemeExtend),
   ("Gr_Link", "Grapheme_Link", graphemeLink),
   ("Hex", "Hex_Digit", hexDigits),
   ("Hyphen", "Hyphen", hyphen),
   ("IDSB", "IDS_Binary_Operator", idsBinaryOperator),
   ("IDST", "IDS_Trinary_Operator", idsTrinaryOperator),
   ("IDSU", "IDS_Unary_Operator", idsUnaryOperator),
   ("ID_Compat_Math_Continue", "ID_Compat_Math_Continue", idCompatMathContinue),
   ("ID_Compat_Math_Start", "ID_Compat_Math_Start", idCompatMathStart),
   ("IDC", "ID_Continue", idContinue),
   ("IDS", "ID_Start", idStart),
   ("Ideo", "Ideographic", ideographic),
   ("Join_C", "Join_Control", joinControl),
   ("LOE", "Logical_Order_Exception", logicalOrderException),
   ("Lower", "Lowercase", lowercase),
   ("Math", "Math", math),
   ("MCM", "Modifier_Combining_Mark", modifierCombiningMark),
   ("NChar", "Noncharacter_Code_Point", noncharacter),
   ("OAlpha", "Other_Alphabetic", otherAlphabetic),
   ("ODI", "Other_Default_Ignorable_Code_Point", otherDefaultIgnorable),
   ("OGr_Ext", "Other_Grapheme_Extend", otherGraphemeExtend),
   ("OIDC", "Other_ID_Continue", otherIdContinue),
   ("OIDS", "Other_ID_Start", otherIdStart),
   ("OLower", "Other_Lowercase", otherLowercase),
   ("OMath", "Other_Math", otherMath),
   ("OUpper", "Other_Uppercase", otherUppercase),
   ("Pat_Syn", "Pattern_Syntax", patternSyntax),
   ("Pat_WS", "Pattern_White_Space", patternWhiteSpace),
   ("PCM", "Prepended_Concatenation_Mark", prependedConcatenationMark),
   ("QMark", "Quotation_Mark", quotationMark),
   ("Radical", "Radical", radical),
   ("RI", "Regional_Indicator", regionalIndicator),
   ("STerm", "Sentence_Terminal", sentenceTerminal),
   ("SD", "Soft_Dotted", softDotted),
   ("Term", "Terminal_Punctuation", terminalPunctuation),
   ("UIdeo", "Unified_Ideograph", unifiedIdeograph),
   ("Upper", "Uppercase", uppercase),
   ("VS", "Variation_Selector", variationSelector),
   ("WSpace", "White_Space", whiteSpace),
   ("space", "White_Space", whiteSpace),
   ("XIDC", "XID_Continue", xidContinue),
   ("XIDS", "XID_Start", xidStart)]

/-- The binary property with a reduced name. -/
def ofName? (name : String) : Option CodeSet := (named? all name).map fun (_, _, set) => set

end Property

/-- The general category, or the group of categories, with a reduced name. Surrogates are no
characters, so their category has no set. -/
def Category.ofName? (name : String) : Option CodeSet :=
  match name with
  | "any" => some .all
  | "assigned" => some assigned
  | "ascii" => some (.range 0 127)
  | "l" | "letter" => some letter
  | "lc" | "casedletter" => some (.unions [lu, ll, lt])
  | "m" | "mark" | "combiningmark" => some mark
  | "n" | "number" => some (group 'N')
  | "p" | "punctuation" | "punct" => some (group 'P')
  | "s" | "symbol" => some (group 'S')
  | "z" | "separator" => some (group 'Z')
  | "c" | "other" => some ((group 'C').union unassigned)
  | "cn" | "unassigned" => some unassigned
  | "digit" => some nd
  | "cntrl" => some cc
  | _ => (named? all name).map fun (_, _, set) => set

namespace Script

/-- The short name, the long name and the ranges of the script with a reduced name. -/
def record? (name : String) : Option (String × String × String) :=
  match name with
  | "qaac" => named? all "coptic"
  | "qaai" => named? all "inherited"
  | _ => named? all name

/-- The script with a reduced name. -/
def ofName? (name : String) : Option CodeSet :=
  (record? name).map fun (_, _, ranges) => .ofText ranges

/-- The code points used by the script with a reduced name. -/
def extendedOfName? (name : String) : Option CodeSet :=
  (record? name).map fun (short, _, ranges) => extended short (.ofText ranges)

end Script

/-- The code points assigned up to a version, which is written `15.1` or, reduced, `v151`. -/
def Age.ofName? (name : String) : Option CodeSet :=
  match all.find? fun (version, _) =>
      version = name || "v" ++ String.ofList (version.toList.filter (· ≠ '.')) = name with
  | some (version, _) => upTo? version
  | none => none

/-- The code points with a role. -/
def Segmentation.ofName? (roles : List (String × String × CodeSet)) (name : String) :
    Option CodeSet :=
  (named? roles name).map fun (_, _, set) => set

namespace CodeSet

/-- The set that a name alone stands for: a binary property, else a general category, else a
script. -/
def ofName? (name : List Char) : Option CodeSet :=
  let name := looseName name
  (Property.ofName? name).orElse fun _ => (Category.ofName? name).orElse fun _ => Script.ofName? name

/-- The code points for which a property has a value. -/
def ofNameValue? (name value : List Char) : Option CodeSet :=
  let value := looseName value
  match looseName name with
  | "generalcategory" | "gc" => Category.ofName? value
  | "script" | "sc" => Script.ofName? value
  | "scriptextensions" | "scx" => Script.extendedOfName? value
  | "age" => Age.ofName? value
  | "graphemeclusterbreak" | "gcb" => Segmentation.ofName? Segmentation.graphemeRoles value
  | "wordbreak" | "wb" => Segmentation.ofName? Segmentation.wordRoles value
  | "sentencebreak" | "sb" => Segmentation.ofName? Segmentation.sentenceRoles value
  | _ => none

end CodeSet

end LineShell.Unicode
