/-
# The first token that cannot be right

Where tokens are not read as a program, the fault stands at the first token that
cannot be right. The tokens before it can still become a program, because every
state of the machine can be completed (`State.completion`); and with it no program
can begin, because the state in front of it has no step for it. The end of the input
may be that token.

Key definitions: `Program.Accepted`, `Grammar.State.completion`, `Program.WrongAt`.
Key theorems: `Grammar.run_completion`, `Grammar.exists_of_foldlM_error`,
`Program.exists_wrongAt_of_read_error`, `read_error_at_first_wrong_token`.
-/
import Chip8.Proofs.Assembly.Program
import Chip8.Proofs.Grammar.Machine
import Chip8.Proofs.Splitting.Lossless

namespace Chip8

/-- A row of tokens is read as some program. -/
def Program.Accepted (ts : List Token) : Prop := ∃ ss, (Program.read ts).result = .ok ss

/-- A word that is no mnemonic and no name is a keyword. -/
theorem Lexeme.Longest.mem_keywords {l : Lexeme} {rest : List Char} (h : l.Longest rest)
    (hk : l.kind = .keyword) : l.text ∈ Token.keywords := by
  cases h with
  | word hw ends => exact Token.Kind.ofWord_eq_keyword_iff.mp hk
  | number => cases hk
  | symbol => cases hk

namespace Grammar

/-! ### Every state can be completed -/

/-- A lexeme that stands anywhere. -/
def loose (l : Lexeme) : Token := ⟨l, .start ""⟩

/-- Tokens with which a program ends that has come to a state. -/
def State.completion : State → List Token
  | statement | operands | nameOrLabel | operand => []
  | label => [loose (.symbol ':')]
  | dot | comma | mark => [loose ⟨.identifier, "x"⟩]
  | bracket => [loose ⟨.identifier, "x"⟩, loose (.symbol ']')]
  | bracketed => [loose (.symbol ']')]

theorem run_completion (stop : Position) (s : State) : run stop s s.completion = .ok () := by
  cases s <;> rfl

theorem kind_completion (s : State) : ∀ t ∈ s.completion, t.kind ≠ .endOfInput := by
  cases s <;> decide

/-! ### A refused token -/

variable {s : State} {t : Token} {f : Fault}

theorem eq_of_takeSymbol_error {c : Char} {next : State} (h : takeSymbol c next t = .error f) :
    f = ⟨t.position, .expected (.symbol c) t.toLexeme⟩ := by
  unfold takeSymbol at h
  split at h <;> cases h
  rfl

theorem eq_of_takeValue_error {next : State} (h : takeValue next t = .error f) :
    f = ⟨t.position, .expected .value t.toLexeme⟩ := by
  unfold takeValue at h
  split at h <;> cases h
  rfl

/-- Every keyword names a special register, so a value is all that can be wanted. -/
theorem eq_of_takeOperand_error (hk : t.kind = .keyword → t.text ∈ Token.keywords)
    (h : takeOperand t = .error f) : f = ⟨t.position, .expected .value t.toLexeme⟩ := by
  unfold takeOperand at h
  split at h
  · cases h
  · split at h
    · cases h
    · split at h
      · next hkeyword =>
        rw [if_pos (Operand.Kind.isSome_ofKeyword?_iff.mpr (hk hkeyword))] at h
        cases h
      · exact eq_of_takeValue_error h

/-- Where an operand is seen in front, it is taken. -/
theorem takeOperand_ne_error (hk : t.kind = .keyword → t.text ∈ Token.keywords)
    (hnext : Operand.isNext [t] = true) : takeOperand t ≠ .error f := by
  intro h
  rw [Operand.isNext] at hnext
  unfold takeOperand at h
  split at h
  · cases h
  · split at h
    · cases h
    · split at h
      · next hkeyword =>
        rw [if_pos (Operand.Kind.isSome_ofKeyword?_iff.mpr (hk hkeyword))] at h
        cases h
      · cases hkind : t.kind <;> simp_all [takeValue]

theorem eq_of_takeStatement_error (h : takeStatement t = .error f) :
    f = ⟨t.position, .expected .statement t.toLexeme⟩ := by
  unfold takeStatement at h
  split at h
  · cases h
  · cases h
  · split at h <;> cases h
    rfl

/-- A state refuses a token because it wants something else. -/
theorem eq_of_step_error (hk : t.kind = .keyword → t.text ∈ Token.keywords)
    (h : step s t = .error f) : f = ⟨t.position, .expected s.wanted t.toLexeme⟩ := by
  cases s with
  | statement => exact eq_of_takeStatement_error h
  | label => exact eq_of_takeSymbol_error h
  | dot =>
    rw [step] at h
    split at h <;> cases h
    rfl
  | operands =>
    rw [step] at h
    split at h
    · cases h
    · split at h
      · next hnext => exact absurd h (takeOperand_ne_error hk hnext)
      · exact eq_of_takeStatement_error h
  | nameOrLabel =>
    rw [step] at h
    split at h
    · cases h
    · split at h
      · cases h
      · exact eq_of_takeStatement_error h
  | comma => exact eq_of_takeOperand_error hk h
  | bracket =>
    rw [step] at h
    split at h
    · cases h
    · exact eq_of_takeValue_error h
  | bracketed => exact eq_of_takeSymbol_error h
  | mark => exact eq_of_takeValue_error h
  | operand =>
    rw [step] at h
    split at h
    · cases h
    · exact eq_of_takeStatement_error h

/-- Where not all tokens are taken, one is refused, and those before it are taken. -/
theorem exists_of_foldlM_error {ts : List Token} (h : ts.foldlM step s = .error f) :
    ∃ before u after s', ts = before ++ u :: after ∧ before.foldlM step s = .ok s' ∧
      step s' u = .error f := by
  induction ts generalizing s with
  | nil => cases h
  | cons u us ih =>
    rw [List.foldlM_cons] at h
    cases hu : step s u with
    | error g =>
      rw [hu] at h
      cases h
      exact ⟨[], u, us, s, rfl, rfl, hu⟩
    | ok s₁ =>
      rw [hu] at h
      obtain ⟨before, t, after, s', rfl, hbefore, ht⟩ := ih h
      refine ⟨u :: before, t, after, s', rfl, ?_, ht⟩
      rw [List.foldlM_cons, hu]
      exact hbefore

/-- The run over two rows of tokens is that over the first, and over the second from where the
first one led. -/
theorem run_append (stop : Position) (s : State) (ts us : List Token) :
    run stop s (ts ++ us) = ts.foldlM step s >>= fun s' => run stop s' us := by
  rw [run, List.foldlM_append, bind_assoc]
  rfl

end Grammar

/-! ### The first wrong token -/

namespace Program

open Grammar

/-- Behind the tokens `before`, `t` is the first one that cannot be right, and `f` says so: the
tokens before it can still become a program, and with it none begins. -/
structure WrongAt (before : List Token) (t : Token) (f : Fault) : Prop where
  position : f.position = t.position
  cause : ∃ wanted, f.cause = .expected wanted t.toLexeme
  viable : ∃ more, Accepted (before ++ more)
  dead : ∀ more, ¬Accepted (before ++ t :: more)

theorem accepted_iff_run {ts : List Token} :
    Accepted ts ↔ run (stop ts) .statement (body ts) = .ok () := by
  rw [Accepted, read, run_statement]
  cases (Statement.readAll (stop ts) (body ts)).result <;> simp [Except.map]

theorem body_append {before : List Token} (h : ∀ t ∈ before, t.kind ≠ .endOfInput)
    (more : List Token) : body (before ++ more) = before ++ body more := by
  rw [body, List.takeWhile_append_of_pos (by simpa using h), body]

theorem stop_concat {ts : List Token} (hts : ∀ t ∈ ts, t.kind ≠ .endOfInput) (p : Position) :
    stop (ts ++ [⟨.endOfInput, p⟩]) = p := by
  have hnone : ts.find? (·.kind == .endOfInput) = none := by simpa using hts
  rw [stop, List.find?_append, hnone]
  rfl

variable {before : List Token} {s : State}

/-- Where the machine has come to a state, the tokens so far can become a program. -/
theorem exists_accepted (hkinds : ∀ t ∈ before, t.kind ≠ .endOfInput)
    (h : before.foldlM step .statement = .ok s) : ∃ more, Accepted (before ++ more) := by
  refine ⟨s.completion, accepted_iff_run.mpr ?_⟩
  have hbody : body s.completion = s.completion :=
    List.takeWhile_eq_self_iff.mpr (by simpa using kind_completion s)
  rw [body_append hkinds, hbody, Grammar.run_append, h]
  exact run_completion _ s

/-- With a token that its state has no step for, no program begins. -/
theorem not_accepted_of_step_error (hkinds : ∀ t ∈ before, t.kind ≠ .endOfInput)
    (h : before.foldlM step .statement = .ok s) {t : Token} (ht : t.kind ≠ .endOfInput) {f : Fault}
    (hstep : step s t = .error f) (more : List Token) : ¬Accepted (before ++ t :: more) := by
  have hbody : body (t :: more) = t :: body more := List.takeWhile_cons_of_pos (by simpa using ht)
  rw [accepted_iff_run, body_append hkinds, hbody, Grammar.run_append, h]
  change ¬run _ s (t :: body more) = .ok ()
  rw [run_cons, hstep]
  intro hrun
  cases hrun

/-- At the end of the input no program ends where something else is wanted. -/
theorem not_accepted_of_finish_error (hkinds : ∀ t ∈ before, t.kind ≠ .endOfInput)
    (h : before.foldlM step .statement = .ok s) (hwanted : s.wanted ≠ .statement) {e : Token}
    (he : e.kind = .endOfInput) (more : List Token) : ¬Accepted (before ++ e :: more) := by
  have hbody : body (e :: more) = [] := by simp [body, he]
  rw [accepted_iff_run, body_append hkinds, hbody, Grammar.run_append, h]
  change ¬run _ s [] = .ok ()
  rw [run_nil, finish, if_neg hwanted]
  intro hrun
  cases hrun

/-- **The fault of reading stands at the first token that cannot be right.** -/
theorem exists_wrongAt_of_read_error {ts : List Token} {e : Position} {f : Fault}
    (hkinds : ∀ t ∈ ts, t.kind ≠ .endOfInput)
    (hkeywords : ∀ t ∈ ts, t.kind = .keyword → t.text ∈ Token.keywords)
    (h : (read (ts ++ [⟨.endOfInput, e⟩])).result = .error f) :
    ∃ before t after, ts ++ [⟨.endOfInput, e⟩] = before ++ t :: after ∧ WrongAt before t f := by
  have hrun : run e .statement ts = .error f := by
    rw [read, body_concat hkinds rfl, stop_concat hkinds] at h
    rw [run_statement, h]
    rfl
  cases hfold : ts.foldlM step .statement with
  | error g =>
    -- A token is refused.
    rw [run, hfold] at hrun
    cases hrun
    obtain ⟨before, t, after, s, rfl, hbefore, hstep⟩ := exists_of_foldlM_error hfold
    obtain ⟨hkinds, ht⟩ := List.forall_mem_append.mp hkinds
    have hkind := ht t List.mem_cons_self
    obtain rfl := eq_of_step_error (hkeywords t (by simp)) hstep
    refine ⟨before, t, after ++ [⟨.endOfInput, e⟩], by simp, rfl, ⟨_, rfl⟩, ?_, ?_⟩
    · exact exists_accepted hkinds hbefore
    · exact not_accepted_of_step_error hkinds hbefore hkind hstep
  | ok s =>
    -- All tokens are taken, and the end of the input comes too early.
    rw [run, hfold] at hrun
    change finish e s = .error f at hrun
    rw [finish] at hrun
    split at hrun
    · cases hrun
    · next hwanted =>
      cases hrun
      refine ⟨ts, ⟨.endOfInput, e⟩, [], rfl, rfl, ⟨_, rfl⟩, exists_accepted hkinds hfold, ?_⟩
      exact not_accepted_of_finish_error hkinds hfold hwanted rfl

end Program

/-! ### In a text -/

/-- What a text is split into are tokens in front of the end of the input, and every keyword among
them names a special register. -/
theorem Splits.exists_leaves {source : String} {front cs : List Char} {tokens : List Token}
    (h : Splits source front cs tokens) :
    ∃ ts e, tokens = ts ++ [⟨.endOfInput, e⟩] ∧ (∀ t ∈ ts, t.kind ≠ .endOfInput) ∧
      ∀ t ∈ ts, t.kind = .keyword → t.text ∈ Token.keywords := by
  obtain ⟨ss, last, e, rfl, -, -, -, hss⟩ := h.exists_stretches
  have hlongest : ∀ t ∈ ss.map Stretch.token, ∃ rest, t.toLexeme.Longest rest := by
    intro t ht
    obtain ⟨s, hs, rfl⟩ := List.mem_map.mp ht
    obtain ⟨before, after, hsplit⟩ := List.append_of_mem hs
    exact ⟨_, (hss before s after hsplit).longest⟩
  refine ⟨ss.map Stretch.token, e, rfl, fun t ht => ?_, fun t ht hk => ?_⟩
  · obtain ⟨rest, hlong⟩ := hlongest t ht
    exact hlong.kind_ne.2
  · obtain ⟨rest, hlong⟩ := hlongest t ht
    exact hlong.mem_keywords hk

/-- A text whose tokens are not read has a first token that cannot be right. -/
theorem Token.exists_wrongAt {source text : String} {tokens : List Token} {f : Fault}
    (ht : (tokenize source text).result = .ok tokens)
    (h : (Program.read tokens).result = .error f) :
    ∃ before t after, tokens = before ++ t :: after ∧ Program.WrongAt before t f := by
  rw [result_tokenize, scan_eq_ok_iff_splits] at ht
  obtain ⟨ts, e, rfl, hkinds, hkeywords⟩ := ht.exists_leaves
  exact Program.exists_wrongAt_of_read_error hkinds hkeywords h

/-- **Reading fails at the first token that cannot be right.** Where the tokens of a text are not
read as a program, the fault is one of grammar. It stands at one of the tokens, which its message
names at its end. The tokens before this one begin a program, and with this one no program begins;
it may be the end of the input. -/
theorem read_error_at_first_wrong_token (source text : String) {tokens : List Token} {f : Fault}
    (ht : (Token.tokenize source text).result = .ok tokens)
    (h : (Program.read tokens).result = .error f) :
    f.stage = .grammatical ∧ ∃ before t after, tokens = before ++ t :: after ∧
      f.position = t.position ∧
      (∃ wanted : Fault.Wanted,
        f.message = wanted.describe ++ " expected here, found " ++ t.describe) ∧
      (∃ more, Program.Accepted (before ++ more)) ∧
      ∀ more, ¬Program.Accepted (before ++ t :: more) := by
  obtain ⟨before, t, after, rfl, hwrong⟩ := Token.exists_wrongAt ht h
  obtain ⟨wanted, hcause⟩ := hwrong.cause
  refine ⟨by rw [Fault.stage, hcause]; rfl, before, t, after, rfl, hwrong.position, ⟨wanted, ?_⟩,
    hwrong.viable, hwrong.dead⟩
  rw [Fault.message, hcause]
  rfl

/-- Behind a comma a name is an operand, so that the colon behind it cannot be right. -/
theorem read_error_at_first_wrong_token_colon :
    ∃ tokens f, (Token.tokenize "s" "ld a, b: ret").result = .ok tokens ∧
      (Program.read tokens).result = .error f ∧ f.position = ⟨"s", 7, 1, 8⟩ ∧
      f.message = "label, instruction or directive expected here, found `:`" ∧
      ∃ before t after, tokens = before ++ t :: after ∧ f.position = t.position ∧
        (∃ more, Program.Accepted (before ++ more)) ∧
        ∀ more, ¬Program.Accepted (before ++ t :: more) := by
  have hread : ((Token.tokenize "s" "ld a, b: ret").result.map fun tokens =>
      (Program.read tokens).result) =
        .ok (.error ⟨⟨"s", 7, 1, 8⟩, .expected .statement (.symbol ':')⟩) := by decide +kernel
  obtain ⟨tokens, ht, h⟩ := Except.map_eq_ok_iff.mp hread
  obtain ⟨-, before, t, after, htokens, hposition, -, hviable, hdead⟩ :=
    read_error_at_first_wrong_token "s" "ld a, b: ret" ht h
  exact ⟨tokens, _, ht, h, rfl, by decide, before, t, after, htokens, hposition, hviable, hdead⟩

end Chip8
