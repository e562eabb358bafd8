import LineShell.Proofs.AmbientStreams
import LineShell.Proofs.TextLogs

/-! The parts of a call's tokens: words, redirections with their operands, and signs
that have none. A call is prepared part by part: first the redirections are taken
out and carried out from left to right, and then the words that are left are
expanded. Like expansion, this is written for every monad with failures. -/
namespace LineShell.CallParts
open StepAgreement TextLogs

/-- A part of a call's tokens. -/
inductive Part where
  | word (token : String)
  | redirect (sign : Token.Redirect) (operand : String)
  /-- A sign at the end, or before another sign. -/
  | lone (sign : Token.Redirect)
  deriving Repr, DecidableEq

namespace Part

/-- The token that the part is, if it is a word. -/
def word? : Part → Option String
  | .word token => some token
  | _ => none

/-- The sign of a redirection. -/
def sign? : Part → Option Token.Redirect
  | .word _ => none
  | .redirect sign _ | .lone sign => some sign

/-- Whether the part is no word. -/
def isRedirection (p : Part) : Bool := p.word?.isNone

end Part

/-- The parts of a call's tokens, in order. -/
def parts : List String → List Part
  | [] => []
  | [token] =>
    match Token.redirect? token with
    | none => [.word token]
    | some sign => [.lone sign]
  | token :: operand :: tokens =>
    match Token.redirect? token with
    | none => .word token :: parts (operand :: tokens)
    | some sign =>
      if Token.isRedirect operand then .lone sign :: parts (operand :: tokens)
      else .redirect sign operand :: parts tokens

/-- The words among the parts of a call. -/
def wordsOf (tokens : List String) : List String := (parts tokens).filterMap Part.word?

/-- The redirections among the parts of a call. -/
def redirectionsOf (tokens : List String) : List Part := (parts tokens).filter Part.isRedirection

/-- The tokens without every sign and the one token after it. -/
def withoutSigns : List String → List String
  | [] => []
  | [token] => if Token.isRedirect token then [] else [token]
  | token :: operand :: tokens =>
    if Token.isRedirect token then withoutSigns tokens
    else token :: withoutSigns (operand :: tokens)

/-- The words of a call whose signs all have operands are its tokens without those. -/
theorem wordsOf_eq (tokens : List String) (complete : ∀ sign, .lone sign ∉ parts tokens) :
    wordsOf tokens = withoutSigns tokens := by
  unfold wordsOf
  fun_induction parts tokens with
  | case1 => rfl
  | case2 token word => simp [withoutSigns, Token.isRedirect, word, Part.word?]
  | case3 token sign read => simp at complete
  | case4 token operand tokens word ih =>
    simp only [List.mem_cons, not_or] at complete
    rw [withoutSigns, ← ih fun sign => (complete sign).2]
    simp [Token.isRedirect, word, Part.word?]
  | case5 token operand tokens sign read next ih => exact absurd List.mem_cons_self (complete sign)
  | case6 token operand tokens sign read word ih =>
    simp only [List.mem_cons, not_or] at complete
    rw [withoutSigns, ← ih fun sign => (complete sign).2]
    simp [Token.isRedirect, read, Part.word?, List.filterMap_cons]

theorem count_cons_sign (sign : Token.Redirect) (token : String) (tokens : List String) :
    (token :: tokens).count sign.text =
      tokens.count sign.text + if Token.redirect? token = some sign then 1 else 0 := by
  simp only [List.count_cons, AmbientStreams.redirect?_eq_some_iff, beq_iff_eq]

/-- Each sign among the tokens is that of one redirection. -/
theorem count_sign (sign : Token.Redirect) (tokens : List String) :
    tokens.count sign.text = (parts tokens).countP (Part.sign? · = some sign) := by
  fun_induction parts tokens with
  | case1 => rfl
  | case2 token word => simp [count_cons_sign, word, Part.sign?]
  | case3 token found read => simp [count_cons_sign, read, Part.sign?, List.countP_cons]
  | case4 token operand tokens word ih =>
    rw [count_cons_sign, ih]
    simp [word, Part.sign?]
  | case5 token operand tokens found read next ih =>
    rw [count_cons_sign, ih]
    simp [read, Part.sign?, List.countP_cons]
  | case6 token operand tokens found read next ih =>
    have word : Token.redirect? operand = none := by simpa [Token.isRedirect] using next
    rw [count_cons_sign, count_cons_sign, ih]
    simp [read, word, Part.sign?, List.countP_cons]

section Preparation

variable {m : Type → Type} [Monad m] [MonadExceptOf Failure m]

/-- The name that the words of an operand are. -/
def soleName (operand : String) : List String → m String
  | [name] => if name = "" then throw (.redirect (.notFound name)) else pure name
  | _ => throw (.redirect (.ambiguous operand))

/-- Adds one more part to the redirections and words found before. -/
def attach (expand : String → m (List String))
    (add : Redirection → Token.Redirect → String → m Redirection) (r : Redirection) :
    Part → m Redirection
  | .word token => pure { r with rest := r.rest ++ [token] }
  | .redirect sign operand => do
    let words ← expand operand
    let name ← soleName operand words
    add r sign name
  | .lone sign => throw (.redirect (.missingOperand sign))

/-- Opens the redirections of a call and expands its words. -/
def prepareWith (run : String → m String) (glob : List Symbol → m (List String))
    (add : Redirection → Token.Redirect → String → m Redirection) (tokens : List String) :
    m (Redirection × List String) := do
  let r ← (parts tokens).foldlM (attach (Word.expand run glob) add) {}
  let words ← Word.expandAll run glob r.rest
  return (r, words)

end Preparation

/-! Steps that end. -/

/-- The step ends from every session. -/
def Ends {α : Type} (act : Act Failure α) : Prop := ∀ s, (act.start s).isSome

theorem Ends.ofExcept {α : Type} (result : Except Failure α) : Ends (Act.ofExcept result) :=
  fun _ => rfl

theorem Ends.bind {α β : Type} {act : Act Failure α} {next : α → Act Failure β}
    (first : Ends act) (later : ∀ a, Ends (next a)) : Ends (act >>= next) := by
  intro s
  obtain ⟨⟨_ | a, s₁⟩, ran⟩ := Option.isSome_iff_exists.mp (first s)
  · rw [start_bind, ran]
    rfl
  · rw [start_bind, ran]
    exact later a s₁

theorem soleName_ends (operand : String) (words : List String) :
    Ends (soleName operand words) := by
  unfold soleName
  split
  · split <;> exact .ofExcept _
  · exact .ofExcept _

variable {expand : String → Act Failure (List String)}

/-- What a redirection opens does not depend on the words found before. -/
theorem add_rest (r : Redirection) (rest : List String) (sign : Token.Redirect) (name : String) :
    ({ r with rest } : Redirection).add sign name =
      (fun added => { added with rest }) <$> r.add sign name := by
  cases sign with
  | input =>
    simp only [Redirection.add]
    split
    · simp only [throw_bind, map_throw]
    · simp only [map_bind, map_pure]
  | output | append => simp only [Redirection.add, map_bind, map_pure]

theorem operandName_eq (operand : String) :
    Redirection.operandName expand operand = expand operand >>= soleName operand := by
  refine bind_congr fun words => ?_
  match words with
  | [] | [_] | _ :: _ :: _ => rfl

theorem extractFrom_eq : (tokens : List String) → (r : Redirection) →
    Redirection.extractFrom expand r tokens =
      (parts tokens).foldlM (attach expand Redirection.add) { r with rest := r.rest.reverse }
  | [], r => rfl
  | [token], r => by
    cases read : Token.redirect? token with
    | none => simp [parts, Redirection.extractFrom, read, attach]
    | some sign =>
      simp only [parts, Redirection.extractFrom, read, List.foldlM_cons, attach, throw_bind]
  | token :: operand :: tokens, r => by
    cases read : Token.redirect? token with
    | none =>
      simp only [parts, Redirection.extractFrom, read, List.foldlM_cons, attach, pure_bind,
        extractFrom_eq (operand :: tokens), List.reverse_cons]
    | some sign =>
      simp only [parts, Redirection.extractFrom, read]
      split
      · simp only [List.foldlM_cons, attach, throw_bind]
      · simp only [List.foldlM_cons, attach, operandName_eq, bind_assoc]
        refine bind_congr fun words => bind_congr fun name => ?_
        -- A redirection leaves the words alone, so it adds the same to them reversed.
        have kept : r.add sign name =
            (fun added => { added with rest := r.rest }) <$> r.add sign name :=
          add_rest r r.rest sign name
        rw [add_rest r r.rest.reverse, kept, bind_map_left, ← comp_map, bind_map_left]
        exact bind_congr fun added => extractFrom_eq tokens { added with rest := r.rest }

/-- Redirections are taken out part by part. -/
theorem extract_eq (expand : String → Act Failure (List String)) (tokens : List String) :
    Redirection.extract expand tokens =
      (parts tokens).foldlM (attach expand Redirection.add) {} :=
  extractFrom_eq tokens {}

/-- A call is prepared as it is everywhere, and then served. -/
theorem prepareWith_eq (run : Substitution) (tokens : List String) :
    prepareWith run Shell.glob Redirection.add tokens = (do
      let r ← Redirection.extract (Word.expand run Shell.glob) tokens
      let words ← Word.expandAll run Shell.glob r.rest
      return (r, words)) := by
  rw [extract_eq]
  rfl

end LineShell.CallParts
