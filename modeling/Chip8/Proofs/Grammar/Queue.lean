/-
# Reading from a queue

The readers of a program have a row of tokens and give back what is left of it. Here
they are once more, over the queue that the tokens stand in, with the end of the input
and all that stands behind it. A queue is used in two ways: its first token is looked at
(`look`) or taken (`take`), and each use is noted with the queue that it found.

Three things can go wrong with a queue that no row shows. It may have no first token
(`Halt.dry`). The end of the input may be taken as if it were a part of the program. And
the last token stays where it is when it is taken, so a loop may take it for ever. The
loops are given a number of rounds, the same for each; that a loop needs more than any
number of them (`Halt.endless`) is what has to be excluded.

Key definitions: `Queue.Access`, `Queue.Call`, `Queue.State`, `Queue.Halt`, `Queue.Reader`,
`Queue.closed`, `Queue.taken`, `Queue.look`, `Queue.take`, `Queue.operand`, `Queue.operands`,
`Queue.statement`, `Queue.statements`, `Queue.read`.
Key theorems: `isClosed_closed`, `exists_closed_eq`.
-/
import Mathlib.Data.List.TakeWhile
import Chip8.Proofs.Grammar.Tree

namespace Chip8
namespace Queue

/-- A use of the first token, and the queue that it stood in. -/
inductive Access where
  | look (queue : List Token)
  | take (queue : List Token)

/-- A statement that was read, and the queue before and after. -/
structure Call where
  statement : Statement
  before : List Token
  after : List Token

/-- The queue, how it was used so far, and what was read from it. -/
structure State where
  queue : List Token
  accesses : List Access
  calls : List Call

/-- Why a reader ends without a value. -/
inductive Halt where
  /-- The tokens are at fault. -/
  | fault (f : Fault)
  /-- There is no first token. -/
  | dry
  /-- A loop has made all of its rounds. -/
  | endless

/-- A reader uses the queue, and ends with a value or halts. -/
abbrev Reader (α : Type) := ExceptT Halt (StateM State) α

variable {α : Type}

/-- What a reader ends with that begins in a state, and the state it leaves. -/
def Reader.runFrom (X : Reader α) (s : State) : Except Halt α × State := X.run.run s

/-- The queue that a use found. -/
def Access.queue : Access → List Token
  | look queue => queue
  | take queue => queue

/-- The token that a use took. -/
def Access.taken? : Access → Option Token
  | look _ => none
  | take queue => queue.head?

/-- The tokens that were taken. -/
def taken (accesses : List Access) : List Token := accesses.filterMap Access.taken?

/-- What is noted of a statement that was read. -/
def Call.notice (c : Call) : Notice := .parsed c.statement

/-! ### The end of a queue -/

/-- Whether the last token is an end of the input. -/
def isClosed (queue : List Token) : Bool := queue.getLast?.any (·.kind == .endOfInput)

/-- The queue of a row of tokens. Where its last token is no end of the input, one is put behind
it, at the same place. -/
def closed (ts : List Token) : List Token :=
  if isClosed ts then ts
  else ts ++ [⟨.endOfInput, (ts.getLast?.map Token.position).getD (.start "")⟩]

theorem isClosed_append {tail : List Token} (h : isClosed tail = true) (ts : List Token) :
    isClosed (ts ++ tail) = true := by
  obtain ⟨e, he, hkind⟩ := (Option.any_eq_true _ _).mp h
  rw [isClosed, List.getLast?_append, he]
  exact hkind

theorem ne_nil_of_isClosed {queue : List Token} (h : isClosed queue = true) : queue ≠ [] := by
  rintro rfl
  cases h

/-- A closed queue has an end of the input. -/
theorem exists_find?_of_isClosed {queue : List Token} (h : isClosed queue = true) :
    ∃ e, queue.find? (·.kind == .endOfInput) = some e := by
  obtain ⟨e, he, hkind⟩ := (Option.any_eq_true _ _).mp h
  rw [← Option.isSome_iff_exists, List.find?_isSome]
  exact ⟨e, List.mem_of_getLast? he, hkind⟩

theorem isClosed_closed (ts : List Token) : isClosed (closed ts) = true := by
  rw [closed]
  split
  · assumption
  · exact isClosed_append rfl ts

/-- An end of the input behind the others is not a part of the program. -/
theorem body_concat_end {e : Token} (he : e.kind = .endOfInput) (ts : List Token) :
    Program.body (ts ++ [e]) = Program.body ts := by
  induction ts with
  | nil => simp [Program.body, he]
  | cons t ts ih =>
    rw [Program.body] at ih
    rw [Program.body, Program.body, List.cons_append, List.takeWhile_cons, List.takeWhile_cons, ih,
      Program.body]

/-- No token of a program is an end of the input. -/
theorem kind_of_mem_body {ts : List Token} : ∀ t ∈ Program.body ts, t.kind ≠ .endOfInput :=
  fun t ht => by simpa using List.mem_takeWhile_imp ht

/-- The program is the same with an end behind it. -/
theorem body_closed (ts : List Token) : Program.body (closed ts) = Program.body ts := by
  rw [closed]
  split
  · rfl
  · exact body_concat_end rfl ts

/-- The end that is put behind the tokens stands where they end. -/
theorem stop_closed (ts : List Token) : Program.stop (closed ts) = Program.stop ts := by
  rw [closed]
  split
  · rfl
  · rw [Program.stop, Program.stop, List.find?_append]
    cases ts.find? (·.kind == .endOfInput) <;> rfl

/-- In the queue stand the tokens of the program, and behind them the first end of the input. -/
theorem exists_closed_eq (ts : List Token) :
    ∃ e more, closed ts = Program.body ts ++ e :: more ∧ e.kind = .endOfInput ∧
      e.position = Program.stop ts ∧ isClosed (e :: more) = true := by
  obtain ⟨e, hfind⟩ := exists_find?_of_isClosed (isClosed_closed ts)
  obtain ⟨he, before, more, hqueue, hbefore⟩ := List.find?_eq_some_iff_append.mp hfind
  have hbody : Program.body ts = before := by
    rw [← body_closed, hqueue, Program.body,
      List.takeWhile_append_of_pos (by simpa [bne] using hbefore)]
    simp_all
  refine ⟨e, more, by rw [hbody, hqueue], by simpa using he, ?_, ?_⟩
  · rw [← stop_closed, Program.stop, hfind]
  · have hclosed := isClosed_closed ts
    rw [hqueue, isClosed, List.getLast?_append, List.getLast?_cons, Option.some_or] at hclosed
    rwa [isClosed, List.getLast?_cons]

/-! ### The two uses -/

/-- Notes a use of the queue, and gives the queue. -/
def noteAccess (use : List Token → Access) : Reader (List Token) := do
  let s ← get
  set { s with accesses := s.accesses ++ [use s.queue] }
  return s.queue

/-- Looks at the first token. -/
def look : Reader Token := do
  match ← noteAccess .look with
  | [] => throw .dry
  | t :: _ => return t

/-- Takes the first token; the last one of a queue stays. -/
def take : Reader Token := do
  match ← noteAccess .take with
  | [] => throw .dry
  | [t] => return t
  | t :: ts =>
    modify fun s => { s with queue := ts }
    return t

/-! ### Values and operands -/

/-- Halts because the first token is not what is wanted. -/
def refuse (wanted : Fault.Wanted) : Reader α := do
  let t ← look
  -- An end of the input has no text, whatever the token carries.
  let found := if t.kind = .endOfInput then .endOfInput else t.toLexeme
  throw (.fault ⟨t.position, .expected wanted found⟩)

/-- Takes the symbol `c`, which has to be in front. -/
def skipSymbol (c : Char) : Reader Unit := do
  if (← look).isSymbol c then
    let _ ← take
  else refuse (.symbol c)

/-- Takes the symbol `c` if it is in front. -/
def eatSymbol (c : Char) : Reader Bool := do
  if (← look).isSymbol c then
    let _ ← take
    return true
  else return false

/-- Takes a value. -/
def value : Reader Value := do
  match (← look).kind with
  | .identifier => return .name (← take).text
  | .number n =>
    let _ ← take
    return .number n
  | _ => refuse .value

/-- Takes an operand that is a value, of the kind that its mark gave it. -/
def valued (kind : Operand.Kind) (position : Position) : Reader Operand := do
  return ⟨kind, ← value, position⟩

/-- Takes what stands behind an opening bracket: the index register or an address, and the
closing bracket. -/
def bracketed (position : Position) : Reader Operand := do
  if (← look).isKeyword "I" then
    let _ ← take
    skipSymbol ']'
    return ⟨.indexAddress, .absent, position⟩
  else
    let v ← value
    skipSymbol ']'
    return ⟨.address, v, position⟩

/-- Takes one of `marks` if it is in front; they are asked for in order. -/
def mark? : List (Char × Operand.Kind) → Reader (Option Operand.Kind)
  | [] => return none
  | (c, kind) :: marks => do
    if ← eatSymbol c then return some kind else mark? marks

/-- Takes an operand. -/
def operand : Reader Operand := do
  let position := (← look).position
  if ← eatSymbol '[' then bracketed position
  else
    match ← mark? Operand.marks with
    | some kind => valued kind position
    | none =>
      if (← look).kind = .keyword then
        match Operand.Kind.ofKeyword? (← take).text with
        | some kind => return ⟨kind, .absent, position⟩
        | none => throw (.fault ⟨position, .noSuchRegister⟩)
      else valued .byte position

/-- Whether an operand is in front. The token behind the first one need not be there. -/
def operandNext : Reader Bool := do
  let _ ← look
  return Operand.isNext (← get).queue

/-- Takes operands as long as a comma is in front of them. -/
def moreOperands : Nat → Reader (List Operand)
  | 0 => throw .endless
  | rounds + 1 => do
    if ← eatSymbol ',' then
      let o ← operand
      let os ← moreOperands rounds
      return o :: os
    else return []

/-- Takes the operands of a statement, which may be none. -/
def operands (rounds : Nat) : Reader (List Operand) := do
  if ← operandNext then
    let o ← operand
    let os ← moreOperands rounds
    return o :: os
  else return []

/-! ### Statements -/

/-- Takes a label. -/
def label : Reader Statement := do
  let name ← take
  skipSymbol ':'
  return .label name.text name.position

/-- Takes an instruction. -/
def instruction (rounds : Nat) : Reader Statement := do
  let mnemonic ← take
  return .instruction mnemonic.text (← operands rounds) mnemonic.position

/-- Takes a directive. -/
def directive (rounds : Nat) : Reader Statement := do
  let dot ← take
  if (← look).kind = .identifier then
    let name ← take
    return .directive name.text (← operands rounds) dot.position
  else refuse .directiveName

/-- Takes a statement. -/
def statement (rounds : Nat) : Reader Statement := do
  let atDot := (← look).isSymbol '.'
  match (← look).kind with
  | .identifier => label
  | .mnemonic => instruction rounds
  | _ => if atDot then directive rounds else refuse .statement

/-- Takes a statement, and notes it with the queue before and after. -/
def notedStatement (rounds : Nat) : Reader Statement := do
  let before := (← get).queue
  let statement ← statement rounds
  modify fun s => { s with calls := s.calls ++ [⟨statement, before, s.queue⟩] }
  return statement

/-- Takes statements until the end of the input is in front; each of them may make `rounds`
rounds. -/
def statements (rounds : Nat) : Nat → Reader (List Statement)
  | 0 => throw .endless
  | n + 1 => do
    if (← look).kind = .endOfInput then return []
    else
      let s ← notedStatement rounds
      let ss ← statements rounds n
      return s :: ss

/-- Reads a program from the queue of its tokens. -/
def read (rounds : Nat) (ts : List Token) : Except Halt (List Statement) × State :=
  (statements rounds rounds).runFrom ⟨closed ts, [], []⟩

end Queue
end Chip8
