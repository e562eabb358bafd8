import LineShell.Line.Command
import LineShell.Line.Token

/-!
Reading a command line. A blank line is the empty sequence. Any other line is cut at its plain
semicolons into pipes, each pipe at its plain bars into stages, and each stage into tokens; none
of the pieces may be blank.
-/
namespace LineShell

/-- Cuts a text at every `sep` in plain position; the text has to end in plain position. -/
def cutPlain (sep : Char) (cs : List Char) : Except LineFault (List (List Char)) :=
  let q := Quote.plain.after cs
  if q.isPlain then
    .ok ((Text.splitWhere (fun m => m.1.isPlain && m.2 = sep) (Quote.plain.mark cs)).map
      (·.map Prod.snd))
  else .error (.unterminated q)

/-- Reads one stage. -/
def Call.parse (stage : List Char) : Except LineFault Call :=
  if Text.allBlank stage then .error .blankStage else Call.mk <$> tokenize stage

/-- Reads the stages between two semicolons. -/
def Command.parsePipe (segment : List Char) : Except LineFault Command :=
  if Text.allBlank segment then .error .blankCommand
  else do
    let stages ← cutPlain '|' segment
    .pipe <$> stages.mapM Call.parse

/-- Reads a command line. -/
def Command.parse (line : String) : Except LineFault Command :=
  let cs := line.toList
  if Text.allBlank cs then .ok (.sequence [])
  else if cs.any (fun c => c = '\n' || c = '\r') then .error .lineBreak
  else do
    let segments ← cutPlain ';' cs
    .sequence <$> segments.mapM Command.parsePipe

end LineShell
