/-
# Reading as a finite machine

The grammar nests nothing, so a program can be read token by token, with one of ten
states in between. A state says what the tokens so far have begun. The readers look
one token ahead in one place, where a name behind a mnemonic is an operand or the
label of the next statement; the machine has a state for that doubt (`nameOrLabel`)
and needs no look ahead.

Each reader is a part of the machine's run: the run over a row of tokens is the
reader, and behind it the run over what is left. So the machine ends where reading
does, and with the same fault (`run_statement`).

Key definitions: `Grammar.State`, `Grammar.step`, `Grammar.finish`, `Grammar.run`.
Key theorems: `run_operandRead`, `run_readMore`, `run_readList`, `run_statementRead`,
`run_statement`.
-/
import Chip8.Program.Read

namespace Chip8
namespace Grammar

/-- What the tokens so far have begun. -/
inductive State where
  /-- Nothing: a statement may begin. -/
  | statement
  /-- A name that has to be a label. -/
  | label
  /-- The dot of a directive. -/
  | dot
  /-- A mnemonic, or the name of a directive. -/
  | operands
  /-- Behind these a name, which is an operand or the next label. -/
  | nameOrLabel
  /-- A comma behind an operand. -/
  | comma
  /-- The bracket in front of an address. -/
  | bracket
  /-- This bracket and the address. -/
  | bracketed
  /-- The mark in front of a value. -/
  | mark
  /-- A whole operand. -/
  | operand
deriving DecidableEq

/-- What has to come in a state; where it is a statement, the end may come, too. -/
def State.wanted : State → Fault.Wanted
  | statement | operands | nameOrLabel | operand => .statement
  | label => .symbol ':'
  | dot => .directiveName
  | comma | bracket | mark => .value
  | bracketed => .symbol ']'

/-! ### One token -/

/-- The fault of finding `t` where something else is wanted. -/
def refuse (wanted : Fault.Wanted) (t : Token) : Except Fault State :=
  .error ⟨t.position, .expected wanted t.toLexeme⟩

/-- Takes the symbol `c`. -/
def takeSymbol (c : Char) (next : State) (t : Token) : Except Fault State :=
  if t.isSymbol c then .ok next else refuse (.symbol c) t

/-- Takes a value. -/
def takeValue (next : State) (t : Token) : Except Fault State :=
  match t.kind with
  | .identifier | .number _ => .ok next
  | _ => refuse .value t

/-- Takes the first token of an operand. -/
def takeOperand (t : Token) : Except Fault State :=
  if t.isSymbol '[' then .ok .bracket
  else if (t.symbol?.bind Operand.Kind.ofMark?).isSome then .ok .mark
  else if t.kind = .keyword then
    if (Operand.Kind.ofKeyword? t.text).isSome then .ok .operand
    else .error ⟨t.position, .noSuchRegister⟩
  else takeValue .operand t

/-- Takes the first token of a statement. -/
def takeStatement (t : Token) : Except Fault State :=
  match t.kind with
  | .identifier => .ok .label
  | .mnemonic => .ok .operands
  | _ => if t.isSymbol '.' then .ok .dot else refuse .statement t

/-- Takes a token. -/
def step : State → Token → Except Fault State
  | .statement, t => takeStatement t
  | .label, t => takeSymbol ':' .statement t
  | .dot, t => if t.kind = .identifier then .ok .operands else refuse .directiveName t
  | .operands, t =>
    if t.kind = .identifier then .ok .nameOrLabel
    else if Operand.isNext [t] then takeOperand t
    else takeStatement t
  | .nameOrLabel, t =>
    if t.isSymbol ':' then .ok .statement
    else if t.isSymbol ',' then .ok .comma
    else takeStatement t
  | .comma, t => takeOperand t
  | .bracket, t => if t.isKeyword "I" then .ok .bracketed else takeValue .bracketed t
  | .bracketed, t => takeSymbol ']' .operand t
  | .mark, t => takeValue .operand t
  | .operand, t => if t.isSymbol ',' then .ok .comma else takeStatement t

/-- Ends at `stop`, where a statement may begin. -/
def finish (stop : Position) (s : State) : Except Fault Unit :=
  if s.wanted = .statement then .ok () else .error (Token.unexpected stop s.wanted [])

/-- Takes all tokens, and ends. -/
def run (stop : Position) (s : State) (ts : List Token) : Except Fault Unit :=
  ts.foldlM step s >>= finish stop

variable (stop : Position)

theorem run_nil (s : State) : run stop s [] = finish stop s := rfl

theorem run_cons (s : State) (t : Token) (ts : List Token) :
    run stop s (t :: ts) = step s t >>= fun s' => run stop s' ts := by
  rw [run, List.foldlM_cons, bind_assoc]
  rfl

/-! ### Each reader is a part of the run -/

theorem run_skipSymbol {c : Char} {s next : State} (hwanted : s.wanted = .symbol c)
    (hstep : step s = takeSymbol c next) (ts : List Token) :
    run stop s ts = Token.skipSymbol stop c ts >>= run stop next := by
  cases ts with
  | nil => simp [run_nil, finish, hwanted, Token.skipSymbol, bind, Except.bind]
  | cons t ts =>
    rw [run_cons, hstep, takeSymbol, Token.skipSymbol]
    split
    · rfl
    · rfl

theorem takeValue_bind_run (next : State) (t : Token) (ts : List Token) :
    (takeValue next t >>= fun s => run stop s ts) =
      Value.read stop (t :: ts) >>= fun (_, rest) => run stop next rest := by
  rw [takeValue, Value.read]
  cases t.kind <;> rfl

theorem run_valueRead (ts : List Token) :
    run stop .mark ts = Value.read stop ts >>= fun (_, rest) => run stop .operand rest := by
  cases ts with
  | nil => rfl
  | cons t ts => rw [run_cons, step, takeValue_bind_run]

theorem run_readBracketed (position : Position) (ts : List Token) :
    run stop .bracket ts =
      Operand.readBracketed stop position ts >>= fun (_, rest) => run stop .operand rest := by
  have hclosing := run_skipSymbol stop (s := .bracketed) rfl rfl
  cases ts with
  | nil => rfl
  | cons t ts =>
    rw [run_cons, step, Operand.readBracketed]
    cases hregister : t.isKeyword "I" with
    | true =>
      rw [List.head?_cons, Option.any_some, hregister]
      simp only [if_true, List.tail_cons, bind_assoc]
      exact hclosing ts
    | false =>
      rw [List.head?_cons, Option.any_some, hregister]
      simp only [Bool.false_eq_true, if_false, bind_assoc, takeValue_bind_run, hclosing]
      rfl

theorem takeOperand_bind_run (t : Token) (ts : List Token) :
    (takeOperand t >>= fun s => run stop s ts) =
      Operand.read stop (t :: ts) >>= fun (_, rest) => run stop .operand rest := by
  rw [takeOperand, Operand.read]
  split
  · exact run_readBracketed stop t.position ts
  · cases t.symbol?.bind Operand.Kind.ofMark? with
    | some kind =>
      simp only [Option.isSome_some, if_true, Operand.readValued, bind_assoc]
      exact run_valueRead stop ts
    | none =>
      simp only [Option.isSome_none, Bool.false_eq_true, if_false]
      split
      · cases Operand.Kind.ofKeyword? t.text <;> rfl
      · simp only [takeValue_bind_run, Operand.readValued, bind_assoc]
        rfl

theorem run_operandRead (ts : List Token) :
    run stop .comma ts = Operand.read stop ts >>= fun (_, rest) => run stop .operand rest := by
  cases ts with
  | nil => rfl
  | cons t ts => rw [run_cons, step, takeOperand_bind_run]

theorem run_operand_comma {t : Token} (h : t.isSymbol ',' = true) (ts : List Token) :
    run stop .operand (t :: ts) =
      Operand.read stop ts >>= fun (_, rest) => run stop .operand rest := by
  rw [run_cons, step, if_pos h, ← run_operandRead]
  rfl

/-- Behind an operand come more of them, and then the next statement. -/
theorem run_readMore (ts : List Token) :
    run stop .operand ts =
      Operand.readMore stop ts >>= fun (_, rest) => run stop .statement rest := by
  fun_induction Operand.readMore stop ts with
  | case1 => rfl
  | case2 t ts hcomma f hone => rw [run_operand_comma stop hcomma, hone]; rfl
  | case3 t ts hcomma o rest hone f hmore ih =>
    rw [hmore] at ih
    rw [run_operand_comma stop hcomma, hone]
    exact ih
  | case4 t ts hcomma o rest hone os rest' hmore ih =>
    rw [hmore] at ih
    rw [run_operand_comma stop hcomma, hone]
    exact ih
  | case5 t ts hcomma =>
    rw [run_cons, step, if_neg hcomma]
    exact (run_cons stop .statement t ts).symm

/-- Where an operand is in front, it is the first one. -/
theorem readList_bind_run {ts : List Token} (h : Operand.isNext ts = true) :
    (Operand.readList stop ts >>= fun (_, rest) => run stop .statement rest) =
      Operand.read stop ts >>= fun (_, rest) => run stop .operand rest := by
  simp only [Operand.readList, h, if_true, bind_assoc, run_readMore]
  rfl

/-- Where no operand is in front, the next statement is. -/
theorem readList_bind_run_of_not {ts : List Token} (h : Operand.isNext ts = false) :
    (Operand.readList stop ts >>= fun (_, rest) => run stop .statement rest) =
      run stop .statement ts := by
  rw [Operand.readList, if_neg (by simp [h])]
  rfl

/-- A name that no colon follows is an operand. -/
theorem run_nameOrLabel_of_not_colon {ts : List Token}
    (h : ts.head?.any (·.isSymbol ':') = false) :
    run stop .nameOrLabel ts = run stop .operand ts := by
  cases ts with
  | nil => rfl
  | cons t ts =>
    have ht : ¬t.isSymbol ':' = true := by simpa using h
    rw [run_cons, run_cons, step, step, if_neg ht]

/-- A name that a colon follows is a label. -/
theorem run_nameOrLabel_of_colon {ts : List Token} (h : ts.head?.any (·.isSymbol ':') = true) :
    run stop .nameOrLabel ts = run stop .label ts := by
  cases ts with
  | nil => simp at h
  | cons t ts =>
    have ht : t.isSymbol ':' = true := by simpa using h
    rw [run_cons, run_cons, step, step, takeSymbol, if_pos ht, if_pos ht]

/-- A name behind a mnemonic is an operand, unless a colon follows. -/
theorem run_readList_name {t : Token} (hname : t.kind = .identifier) (ts : List Token) :
    run stop .nameOrLabel ts =
      Operand.readList stop (t :: ts) >>= fun (_, rest) => run stop .statement rest := by
  have hnext : Operand.isNext (t :: ts) = !ts.head?.any (·.isSymbol ':') := by
    rw [Operand.isNext, hname]
  cases hcolon : ts.head?.any (·.isSymbol ':') with
  | false =>
    have hsymbol : t.symbol? = none := by simp [Lexeme.symbol?, hname]
    rw [hcolon] at hnext
    rw [readList_bind_run stop hnext, ← takeOperand_bind_run, takeOperand]
    simp only [Lexeme.isSymbol, hsymbol, hname, takeValue]
    exact run_nameOrLabel_of_not_colon stop hcolon
  | true =>
    rw [hcolon] at hnext
    rw [readList_bind_run_of_not stop hnext, run_cons, step, takeStatement, hname]
    exact run_nameOrLabel_of_colon stop hcolon

/-- Whether another token than a name begins an operand does not depend on what follows. -/
theorem isNext_cons {t : Token} (hname : t.kind ≠ .identifier) (ts : List Token) :
    Operand.isNext (t :: ts) = Operand.isNext [t] := by
  rw [Operand.isNext, Operand.isNext]
  cases hkind : t.kind with
  | identifier => exact absurd hkind hname
  | _ => rfl

/-- Behind a mnemonic come the operands, and then the next statement. -/
theorem run_readList (ts : List Token) :
    run stop .operands ts =
      Operand.readList stop ts >>= fun (_, rest) => run stop .statement rest := by
  cases ts with
  | nil => rfl
  | cons t ts =>
    rw [run_cons, step]
    by_cases hname : t.kind = .identifier
    · rw [if_pos hname]
      exact run_readList_name stop hname ts
    · rw [if_neg hname, ← isNext_cons hname ts]
      split
      · next hnext => rw [readList_bind_run stop hnext, takeOperand_bind_run]
      · next hnext =>
        rw [readList_bind_run_of_not stop (by simpa using hnext), run_cons, step]

theorem run_readDirective (position : Position) (ts : List Token) :
    run stop .dot ts =
      Statement.readDirective stop position ts >>= fun (_, rest) => run stop .statement rest := by
  cases ts with
  | nil => rfl
  | cons t ts =>
    rw [run_cons, step, Statement.readDirective]
    split
    · simp only [bind_assoc]
      exact run_readList stop ts
    · rfl

/-- Each statement is a part of the run. -/
theorem run_statementRead (t : Token) (ts : List Token) :
    run stop .statement (t :: ts) =
      Statement.read stop (t :: ts) >>= fun (_, rest) => run stop .statement rest := by
  have hlabel := run_skipSymbol stop (s := .label) rfl rfl
  rw [run_cons, step, takeStatement, Statement.read]
  cases t.kind with
  | identifier =>
    simp only [bind_assoc]
    exact hlabel ts
  | mnemonic =>
    simp only [bind_assoc]
    exact run_readList stop ts
  | _ =>
    simp only
    split
    · exact run_readDirective stop t.position ts
    · rfl

/-- **The machine ends where reading does, and with the same fault.** -/
theorem run_statement (ts : List Token) :
    run stop .statement ts = (Statement.readAll stop ts).result.map fun _ => () := by
  fun_induction Statement.readAll stop ts with
  | case1 => rfl
  | case2 t ts f hone => rw [run_statementRead, hone]; rfl
  | case3 t ts s rest hone ih =>
    rw [run_statementRead, hone]
    refine Eq.trans ih ?_
    simp only [Outcome.result_bind, Outcome.result_raise, Except.bind, Outcome.result_map]
    cases (Statement.readAll stop rest).result <;> rfl

end Grammar
end Chip8
