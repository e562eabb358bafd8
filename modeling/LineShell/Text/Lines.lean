import LineShell.Text.Split
import LineShell.Text.Utf8

/-!
Lines of a stream. A line feed ends a line; the last line need not have one, and a carriage
return before the end of a line belongs to the ending. Writing puts a line feed after each line.
-/
namespace LineShell.Text

/-- Drops one carriage return at the end. -/
def dropReturn (line : List Char) : List Char :=
  if line.getLast? = some '\r' then line.dropLast else line

/-- The lines of a text, without their endings. -/
def splitLines (cs : List Char) : List (List Char) :=
  let body := if cs.getLast? = some '\n' then cs.dropLast else cs
  (splitWhere (· == '\n') body).map dropReturn

/-- The lines of a stream's bytes; an empty stream has none. -/
def lines (bs : Bytes) : List String :=
  if bs.isEmpty then [] else (splitLines (decodeLossy bs)).map String.ofList

/-- The bytes of a list of lines, each ended by a line feed. -/
def unlines (ls : List String) : Bytes := ls.flatMap fun l => bytes l ++ [10]

end LineShell.Text
