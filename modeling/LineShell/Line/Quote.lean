/-!
Quote states of a command line. A line is scanned from left to right. Back quotes may open inside
double quotes and close back into them; nothing opens inside single quotes or inside back quotes,
so there the next matching mark always closes.
-/
namespace LineShell

/-- The region a scan stands in. -/
inductive Quote where
  | plain
  | single
  | double
  | back
  | backInDouble
  deriving Repr, DecidableEq

namespace Quote

/-- The character that opens and closes a command substitution. -/
def backMark : Char := '\x60'

/-- The region after one more character. -/
def step (q : Quote) (c : Char) : Quote :=
  match q with
  | .plain =>
    if c = '\x27' then .single else if c = '\x22' then .double
    else if c = backMark then .back else .plain
  | .single => if c = '\x27' then .plain else .single
  | .double => if c = '\x22' then .plain else if c = backMark then .backInDouble else .double
  | .back => if c = backMark then .plain else .back
  | .backInDouble => if c = backMark then .double else .backInDouble

/-- The region after a text, from region `q`. -/
def after (q : Quote) (cs : List Char) : Quote := cs.foldl step q

/-- Whether the scan stands outside every quote. -/
def isPlain (q : Quote) : Bool := q = .plain

/-- Whether the scan stands inside a command substitution. -/
def isBack (q : Quote) : Bool := q = .back || q = .backInDouble

/-- What is left open, in words. -/
def describe : Quote → String
  | .plain => "nothing"
  | .single => "single quote"
  | .double => "double quote"
  | .back | .backInDouble => "backtick"

/-- The regions after each character of a text. -/
def trail (q : Quote) : List Char → List Quote
  | [] => []
  | c :: cs => q.step c :: (q.step c).trail cs

/-- Each character with the region it is met in. -/
def mark (q : Quote) : List Char → List (Quote × Char)
  | [] => []
  | c :: cs => (q, c) :: (q.step c).mark cs

@[simp] theorem after_nil (q : Quote) : q.after [] = q := rfl

@[simp] theorem after_cons (q : Quote) (c : Char) (cs : List Char) :
    q.after (c :: cs) = (q.step c).after cs := rfl

theorem after_append (q : Quote) (xs ys : List Char) :
    q.after (xs ++ ys) = (q.after xs).after ys := by
  simp [after, List.foldl_append]

theorem map_snd_mark (q : Quote) (cs : List Char) : (q.mark cs).map Prod.snd = cs := by
  induction cs generalizing q with
  | nil => rfl
  | cons c cs ih => simp [mark, ih]

theorem mark_append (q : Quote) (xs ys : List Char) :
    q.mark (xs ++ ys) = q.mark xs ++ (q.after xs).mark ys := by
  induction xs generalizing q with
  | nil => rfl
  | cons x xs ih => simp [mark, ih]

end Quote

end LineShell
