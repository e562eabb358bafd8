import LineShell.Text.Split

/-!
The text of tables: hexadecimal numbers with signs between them, in pieces between blanks.
-/
namespace LineShell.Unicode

/-- The value of a hexadecimal digit. -/
def hexDigit (c : Char) : Nat :=
  if c.isDigit then c.toNat - 48 else c.toLower.toNat - 87

/-- The number that hexadecimal digits write. -/
def hexNumber (cs : List Char) : Nat := cs.foldl (fun n c => n * 16 + hexDigit c) 0

/-- The pieces of a table's text, which stand between spaces and line breaks. -/
def items (text : String) : List (List Char) :=
  (Text.splitWhere (fun c => c = ' ' || c = '\n') text.toList).filter (!·.isEmpty)

end LineShell.Unicode
