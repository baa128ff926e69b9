/-
# Reading moves on and ends

Over any row of tokens in front of an end of the input, the readers over a queue do what
the readers over rows do (`readsAs_operand`, `readsAs_statement`). So there is always a
token to look at, the end is never taken, and the two loops end: each round of a loop is
one of the reader over rows, and leaves less than it found. A loop therefore has rounds
left over whenever it is given more of them than there are tokens in front of the end.

Key theorems: `readsAs_look`, `readsAs_take`, `readsAs_operand`, `readsAs_moreOperands`,
`readsAs_statement`, `endsAs_notedStatement`, `endsAs_statements`, `exists_orderly_read`,
`queue_never_runs_dry_and_reading_ends`.
-/
import Chip8.Proofs.Grammar.Orderly

namespace Chip8
namespace Queue

variable {α β : Type} {e : Token} {more ts rest : List Token}

/-! ### The two uses -/

theorem runFrom_noteAccess (use : List Token → Access) (s : State) :
    (noteAccess use).runFrom s =
      (.ok s.queue, { s with accesses := s.accesses ++ [use s.queue] }) := rfl

/-- There is a token to look at, be it the end of the input. -/
theorem readsAs_look (ts : List Token) : ReadsAs (e :: more) look ts (.ok (ts.headD e, ts)) := by
  refine readsAs_of_access (a := .look (ts ++ e :: more)) rfl rfl fun s hs => ?_
  rw [look, Reader.runFrom_bind, runFrom_noteAccess, hs]
  cases ts <;> rfl

/-- A token in front of the end is taken out of the queue. -/
theorem readsAs_take (t : Token) (ts : List Token) :
    ReadsAs (e :: more) take (t :: ts) (.ok (t, ts)) := by
  refine readsAs_of_access (a := .take (t :: ts ++ e :: more)) rfl rfl fun s hs => ?_
  rw [take, Reader.runFrom_bind, runFrom_noteAccess, hs]
  cases ts <;> rfl

theorem readsAs_eatSymbol {c : Char} {t : Token} (h : t.isSymbol c = true) (ts : List Token) :
    ReadsAs (e :: more) (eatSymbol c) (t :: ts) (.ok (true, ts)) := by
  refine EndsAs.bind_ok (readsAs_look (t :: ts)) ?_
  rw [List.headD_cons, if_pos h]
  exact EndsAs.bind_ok (readsAs_take t ts) (endsAs_pure true)

theorem readsAs_eatSymbol_of_not {c : Char} (h : (ts.headD e).isSymbol c = false) :
    ReadsAs (e :: more) (eatSymbol c) ts (.ok (false, ts)) := by
  refine EndsAs.bind_ok (readsAs_look ts) ?_
  rw [h]
  exact endsAs_pure false

/-- The first of the marks that is in front is taken. -/
theorem readsAs_mark? (t : Token) (ts : List Token) : ∀ marks : List (Char × Operand.Kind),
    ReadsAs (e :: more) (mark? marks) (t :: ts)
      (match marks.find? fun m => t.isSymbol m.1 with
        | some m => .ok (some m.2, ts)
        | none => .ok (none, t :: ts))
  | [] => endsAs_pure none
  | (c, kind) :: marks => by
    rw [mark?, List.find?_cons]
    cases hc : t.isSymbol c with
    | true => exact EndsAs.bind_ok (readsAs_eatSymbol hc ts) (endsAs_pure (some kind))
    | false => exact EndsAs.bind_ok (readsAs_eatSymbol_of_not hc) (readsAs_mark? t ts marks)

/-- The marks of the grammar are those that the reader over rows knows. -/
theorem find?_marks (t : Token) :
    (Operand.marks.find? fun m => t.isSymbol m.1).map Prod.snd =
      t.symbol?.bind Operand.Kind.ofMark? := by
  cases hc : t.symbol? with
  | none => simp [Lexeme.isSymbol, hc]
  | some c =>
    simp only [Lexeme.isSymbol, hc, Option.bind_some]
    unfold Operand.Kind.ofMark?
    split
    · rfl
    · rfl
    · rfl
    · simp_all [Operand.marks]

/-! ### In front of an end of the input -/

variable (he : e.kind = .endOfInput)
include he

theorem isSymbol_end (c : Char) : e.isSymbol c = false :=
  Lexeme.isSymbol_eq_false_of_kind (by simp [he]) c

theorem isKeyword_end (word : String) : e.isKeyword word = false := by
  simp [Lexeme.isKeyword, he]

/-- An operand is seen in front of the end as it is seen in a row; behind the first token the
end is no colon. -/
theorem isNext_append (ts : List Token) : Operand.isNext (ts ++ e :: more) = Operand.isNext ts := by
  match ts with
  | [] => simp [Operand.isNext, he]
  | [t] => simp [Operand.isNext, isSymbol_end he ':']
  | t :: u :: ts => rfl

theorem readsAs_refuse (wanted : Fault.Wanted) (ts : List Token) :
    ReadsAs (e :: more) (refuse wanted : Reader α) ts
      (.error (Token.unexpected e.position wanted ts)) := by
  intro hkinds
  refine EndsAs.bind_ok (readsAs_look ts) ?_ hkinds
  cases ts with
  | nil =>
    simp only [List.headD_nil, he, if_true]
    exact endsAs_throw _
  | cons t ts =>
    simp only [List.headD_cons, hkinds t List.mem_cons_self, if_false]
    exact endsAs_throw _

/-- Taking a symbol is followed by what is read behind it. -/
theorem ReadsAs.skipSymbol_bind {c : Char} {F : Unit → Reader β}
    {p : List Token → Except Fault (β × List Token)}
    (hF : ∀ rest, ReadsAs (e :: more) (F ()) rest (p rest)) :
    ReadsAs (e :: more) (skipSymbol c >>= F) ts (Token.skipSymbol e.position c ts >>= p) := by
  have hskip : ReadsAs (e :: more) (skipSymbol c) ts
      ((Token.skipSymbol e.position c ts).map fun rest => ((), rest)) := by
    refine EndsAs.bind_ok (readsAs_look ts) ?_
    cases ts with
    | nil =>
      rw [List.headD_nil, isSymbol_end he]
      exact readsAs_refuse he _ _
    | cons t ts =>
      rw [List.headD_cons, Token.skipSymbol]
      split
      · exact EndsAs.bind_ok (readsAs_take t ts) (endsAs_pure ())
      · exact readsAs_refuse he _ _
  have h := ReadsAs.bind (p := fun x => p x.2) hskip fun _ rest _ => hF rest
  cases hresult : Token.skipSymbol e.position c ts <;> rw [hresult] at h <;> exact h

/-! ### Operands -/

theorem readsAs_value (ts : List Token) :
    ReadsAs (e :: more) value ts (Value.read e.position ts) := by
  refine EndsAs.bind_ok (readsAs_look ts) ?_
  cases ts with
  | nil =>
    rw [List.headD_nil, he]
    exact readsAs_refuse he _ _
  | cons t ts =>
    rw [List.headD_cons, Value.read]
    cases t.kind with
    | identifier => exact EndsAs.bind_ok (readsAs_take t ts) (endsAs_pure _)
    | number n => exact EndsAs.bind_ok (readsAs_take t ts) (endsAs_pure _)
    | _ => exact readsAs_refuse he _ _

theorem readsAs_valued (kind : Operand.Kind) (position : Position) (ts : List Token) :
    ReadsAs (e :: more) (valued kind position) ts
      (Operand.readValued e.position position kind ts) :=
  ReadsAs.bind (readsAs_value he ts) fun _ _ _ => endsAs_pure _

theorem readsAs_bracketed (position : Position) (ts : List Token) :
    ReadsAs (e :: more) (bracketed position) ts
      (Operand.readBracketed e.position position ts) := by
  have haddress (ts) : ReadsAs (e :: more)
      (do let v ← value; skipSymbol ']'; return (⟨.address, v, position⟩ : Operand)) ts
      (Value.read e.position ts >>= fun x =>
        Token.skipSymbol e.position ']' x.2 >>= fun rest =>
          .ok (⟨.address, x.1, position⟩, rest)) := by
    refine ReadsAs.bind (readsAs_value he ts) fun v rest _ => ?_
    exact ReadsAs.skipSymbol_bind he fun _ => endsAs_pure _
  refine EndsAs.bind_ok (readsAs_look ts) ?_
  cases ts with
  | nil =>
    rw [List.headD_nil, isKeyword_end he]
    exact haddress []
  | cons t ts =>
    rw [List.headD_cons, Operand.readBracketed, List.head?_cons, Option.any_some]
    cases t.isKeyword "I" with
    | true =>
      refine EndsAs.bind_ok (readsAs_take t ts) ?_
      exact ReadsAs.skipSymbol_bind he fun _ => endsAs_pure _
    | false => exact haddress (t :: ts)

theorem readsAs_mark?_nil : ∀ marks : List (Char × Operand.Kind),
    ReadsAs (e :: more) (mark? marks) [] (.ok (none, []))
  | [] => endsAs_pure none
  | (c, _) :: marks =>
    EndsAs.bind_ok (readsAs_eatSymbol_of_not (isSymbol_end he c)) (readsAs_mark?_nil marks)

theorem readsAs_operand (ts : List Token) :
    ReadsAs (e :: more) operand ts (Operand.read e.position ts) := by
  refine EndsAs.bind_ok (readsAs_look ts) ?_
  cases ts with
  | nil =>
    refine EndsAs.bind_ok (readsAs_eatSymbol_of_not (isSymbol_end he '[')) ?_
    refine EndsAs.bind_ok (readsAs_mark?_nil he _) (EndsAs.bind_ok (readsAs_look []) ?_)
    rw [List.headD_nil, he]
    exact readsAs_valued he _ _ _
  | cons t ts =>
    rw [List.headD_cons, Operand.read]
    cases hbracket : t.isSymbol '[' with
    | true => exact EndsAs.bind_ok (readsAs_eatSymbol hbracket ts) (readsAs_bracketed he _ ts)
    | false =>
      refine EndsAs.bind_ok (readsAs_eatSymbol_of_not hbracket) ?_
      have hmark : ReadsAs (e :: more) (mark? Operand.marks) (t :: ts) _ := readsAs_mark? t ts _
      rw [← find?_marks]
      cases hfind : Operand.marks.find? fun m => t.isSymbol m.1 with
      | some m =>
        rw [hfind] at hmark
        exact EndsAs.bind_ok hmark (readsAs_valued he _ _ ts)
      | none =>
        rw [hfind] at hmark
        refine EndsAs.bind_ok hmark (EndsAs.bind_ok (readsAs_look (t :: ts)) ?_)
        rw [List.headD_cons, if_neg Bool.false_ne_true]
        by_cases hkeyword : t.kind = .keyword
        · simp only [hkeyword, if_true]
          refine EndsAs.bind_ok (readsAs_take t ts) ?_
          cases Operand.Kind.ofKeyword? t.text with
          | some kind => exact endsAs_pure _
          | none => exact endsAs_throw _
        · simp only [hkeyword, if_false]
          exact readsAs_valued he _ _ _

/-- The loop over operands makes one round for each case of the reader over rows, and has enough
of them where there are fewer tokens. -/
theorem readsAs_moreOperands {rounds : Nat} (h : ts.length < rounds) :
    ReadsAs (e :: more) (moreOperands rounds) ts (Operand.readMore e.position ts) := by
  induction rounds generalizing ts with
  | zero => cases h
  | succ n ih =>
    fun_cases Operand.readMore e.position ts with
    | case1 =>
      exact EndsAs.bind_ok (readsAs_eatSymbol_of_not (isSymbol_end he ',')) (endsAs_pure [])
    | case2 t ts hcomma f hone =>
      have hoperand : ReadsAs (e :: more) operand ts (.error f) := hone ▸ readsAs_operand he ts
      exact EndsAs.bind_ok (readsAs_eatSymbol hcomma ts) (EndsAs.bind_error hoperand)
    | case3 t ts hcomma o rest hone f hmore =>
      have hoperand : ReadsAs (e :: more) operand ts (.ok (o, rest)) :=
        hone ▸ readsAs_operand he ts
      have hloop : ReadsAs (e :: more) (moreOperands n) rest (.error f) :=
        hmore ▸ ih (Nat.lt_trans (Operand.length_read_lt hone) (Nat.lt_of_succ_lt_succ h))
      refine EndsAs.bind_ok (readsAs_eatSymbol hcomma ts) (EndsAs.bind_ok hoperand ?_)
      exact EndsAs.bind_error hloop
    | case4 t ts hcomma o rest hone os rest' hmore =>
      have hoperand : ReadsAs (e :: more) operand ts (.ok (o, rest)) :=
        hone ▸ readsAs_operand he ts
      have hloop : ReadsAs (e :: more) (moreOperands n) rest (.ok (os, rest')) :=
        hmore ▸ ih (Nat.lt_trans (Operand.length_read_lt hone) (Nat.lt_of_succ_lt_succ h))
      refine EndsAs.bind_ok (readsAs_eatSymbol hcomma ts) (EndsAs.bind_ok hoperand ?_)
      exact EndsAs.bind_ok hloop (endsAs_pure _)
    | case5 t ts hcomma =>
      exact EndsAs.bind_ok (readsAs_eatSymbol_of_not (by simpa using hcomma)) (endsAs_pure [])

theorem readsAs_operandNext (ts : List Token) :
    ReadsAs (e :: more) operandNext ts (.ok (Operand.isNext ts, ts)) := by
  refine EndsAs.bind_ok (readsAs_look ts) (EndsAs.get_bind fun s hs => ?_)
  rw [hs, isNext_append he]
  exact endsAs_pure _

theorem readsAs_operands {rounds : Nat} (h : ts.length < rounds) :
    ReadsAs (e :: more) (operands rounds) ts (Operand.readList e.position ts) := by
  refine EndsAs.bind_ok (readsAs_operandNext he ts) ?_
  rw [Operand.readList]
  split
  · refine ReadsAs.bind (readsAs_operand he ts) fun o rest hone => ?_
    have hrest : rest.length < rounds := Nat.lt_trans (Operand.length_read_lt hone) h
    exact ReadsAs.bind (readsAs_moreOperands he hrest) fun os rest' _ => endsAs_pure _
  · exact endsAs_pure []

/-! ### Statements -/

theorem readsAs_directive {rounds : Nat} (h : ts.length < rounds) (t : Token) :
    ReadsAs (e :: more) (directive rounds) (t :: ts)
      (Statement.readDirective e.position t.position ts) := by
  refine EndsAs.bind_ok (readsAs_take t ts) (EndsAs.bind_ok (readsAs_look ts) ?_)
  cases ts with
  | nil =>
    rw [List.headD_nil, he]
    exact readsAs_refuse he _ _
  | cons u ts =>
    rw [List.headD_cons, Statement.readDirective]
    split
    · refine EndsAs.bind_ok (readsAs_take u ts) ?_
      exact ReadsAs.bind (readsAs_operands he (Nat.lt_of_succ_lt h)) fun _ _ _ => endsAs_pure _
    · exact readsAs_refuse he _ _

theorem readsAs_statement {rounds : Nat} (h : ts.length < rounds) :
    ReadsAs (e :: more) (statement rounds) ts (Statement.read e.position ts) := by
  refine EndsAs.bind_ok (readsAs_look ts) (EndsAs.bind_ok (readsAs_look ts) ?_)
  cases ts with
  | nil =>
    rw [List.headD_nil, he, isSymbol_end he]
    exact readsAs_refuse he _ _
  | cons t ts =>
    rw [List.headD_cons, Statement.read]
    cases t.kind with
    | identifier =>
      refine EndsAs.bind_ok (readsAs_take t ts) ?_
      exact ReadsAs.skipSymbol_bind he fun _ => endsAs_pure _
    | mnemonic =>
      refine EndsAs.bind_ok (readsAs_take t ts) ?_
      exact ReadsAs.bind (readsAs_operands he (Nat.lt_of_succ_lt h)) fun _ _ _ => endsAs_pure _
    | _ =>
      simp only
      split
      · exact readsAs_directive he (Nat.lt_of_succ_lt h) t
      · exact readsAs_refuse he _ _

/-- A statement that is read takes a token at least, and is noted. -/
theorem endsAs_notedStatement {rounds : Nat} {s : Statement} (hlength : ts.length < rounds)
    (h : Statement.read e.position ts = .ok (s, rest)) :
    EndsAs (e :: more) (notedStatement rounds) ts (do .raise (.parsed s); return (s, rest)) := by
  have hread : ReadsAs (e :: more) (statement rounds) ts (.ok (s, rest)) :=
    h ▸ readsAs_statement he hlength
  intro hkinds st hst
  obtain ⟨as, cs, rest', horder, hrun, hnotices, hrest⟩ := hread hkinds st hst
  obtain rfl : rest = rest' := hrest _ rfl
  obtain rfl : cs = [] := List.map_eq_nil_iff.mp hnotices
  refine ⟨as, _, rest, horder.concat_call (Statement.length_read_lt h) s, ?_, rfl, ?_⟩
  · rw [notedStatement, Reader.runFrom_get_bind, Reader.runFrom_bind, hrun, hst, List.append_nil]
    rfl
  · rintro x h
    cases h
    rfl

theorem readsAs_notedStatement_error {rounds : Nat} {f : Fault} (hlength : ts.length < rounds)
    (h : Statement.read e.position ts = .error f) :
    ReadsAs (e :: more) (notedStatement rounds) ts (.error f) := by
  have hread : ReadsAs (e :: more) (statement rounds) ts (.error f) :=
    h ▸ readsAs_statement he hlength
  exact EndsAs.get_bind fun _ _ => EndsAs.bind_error hread

/-- The loop over statements makes one round for each case of the reader over rows. -/
theorem endsAs_statements {rounds n : Nat} (hrounds : ts.length < rounds) (hn : ts.length < n) :
    EndsAs (e :: more) (statements rounds n) ts ((·, []) <$> Statement.readAll e.position ts) := by
  induction n generalizing ts with
  | zero => cases hn
  | succ n ih =>
    intro hkinds
    fun_cases Statement.readAll e.position ts with
    | case1 =>
      refine EndsAs.bind_ok (readsAs_look []) ?_ hkinds
      rw [List.headD_nil, if_pos he]
      exact endsAs_pure []
    | case2 t ts f hone =>
      refine EndsAs.bind_ok (readsAs_look (t :: ts)) ?_ hkinds
      rw [List.headD_cons, if_neg (hkinds t List.mem_cons_self)]
      exact EndsAs.bind_error (readsAs_notedStatement_error he hrounds hone)
    | case3 t ts s rest hone =>
      refine EndsAs.bind_ok (readsAs_look (t :: ts)) ?_ hkinds
      rw [List.headD_cons, if_neg (hkinds t List.mem_cons_self)]
      have hless : rest.length < (t :: ts).length := Statement.length_read_lt hone
      have hmore : EndsAs (e :: more) (do return s :: (← statements rounds n)) rest
          ((fun ss => (s :: ss, [])) <$> Statement.readAll e.position rest) := by
        have hn' : rest.length < n := Nat.lt_of_lt_of_le hless (Nat.le_of_lt_succ hn)
        have hloop := ih (Nat.lt_trans hless hrounds) hn'
        simpa only [Functor.map_map] using EndsAs.map hloop (s :: ·)
      have hround := EndsAs.bind (endsAs_notedStatement he hrounds hone)
        (F := fun s => do return s :: (← statements rounds n))
        (p := fun x => (fun ss => (x.1 :: ss, [])) <$> Statement.readAll e.position x.2)
        fun s' rest' h => by
          cases h
          exact hmore
      simpa only [map_bind, bind_assoc, pure_bind, Functor.map_map] using hround

omit he

/-- There are no more statements than tokens. -/
theorem length_le_of_readAll {stop : Position} {ss : List Statement}
    (h : (Statement.readAll stop ts).result = .ok ss) : ss.length ≤ ts.length := by
  fun_induction Statement.readAll stop ts generalizing ss with
  | case1 =>
    cases h
    exact Nat.le_refl _
  | case2 => cases h
  | case3 t ts s rest hone ih =>
    simp only [Outcome.result_bind, Outcome.result_raise, Except.bind, Outcome.result_map] at h
    cases hrest : (Statement.readAll stop rest).result with
    | error f => rw [hrest] at h; cases h
    | ok ss' =>
      rw [hrest] at h
      cases h
      exact Nat.succ_le_of_lt (Nat.lt_of_le_of_lt (ih hrest) (Statement.length_read_lt hone))

/-! ### The whole queue -/

/-- Reading from the queue ends as reading the program does, and uses the queue in order. -/
theorem exists_orderly_read {ts : List Token} {rounds : Nat}
    (h : (Program.body ts).length < rounds) :
    ∃ tail accesses calls rest, closed ts = Program.body ts ++ tail ∧ isClosed tail = true ∧
      Orderly tail (Program.body ts) accesses calls rest ∧
      read rounds ts =
        ((Program.read ts).result.mapError .fault, ⟨rest ++ tail, accesses, calls⟩) ∧
      calls.map Call.notice = (Program.read ts).notices ∧
      ∀ ss, (Program.read ts).result = .ok ss → rest = [] := by
  obtain ⟨e, more, hqueue, he, hstop, hclosed⟩ := exists_closed_eq ts
  obtain ⟨accesses, calls, rest, horder, hrun, hnotices, hrest⟩ :=
    endsAs_statements he h h kind_of_mem_body ⟨closed ts, [], []⟩ hqueue
  rw [hstop] at hrun hnotices hrest
  have hresult : (((·, ([] : List Token)) <$> Program.read ts).result.map Prod.fst) =
      (Program.read ts).result := by
    rw [Outcome.result_map]
    cases (Program.read ts).result <;> rfl
  refine ⟨e :: more, accesses, calls, rest, hqueue, hclosed, horder, ?_, hnotices, fun ss h => ?_⟩
  · rw [read, hrun, ← hresult]
    rfl
  · refine (hrest (ss, []) ?_).symm
    rw [Outcome.result_map]
    exact congrArg _ h

/-- **The queue never runs dry, and reading ends.** Whatever its tokens are, reading from a queue
ends with the program, or the fault, that reading the tokens has, and notes the same statements; it
needs no more rounds than there are tokens in front of the first end, and one to see the end.
Each use finds a last part of the queue with an end of the input behind it, so there is always a
first token. What was taken and what is left are the queue, and no end of the input was taken. Each
statement took a token at least. A program has no more statements than there are tokens in front of
the first end, and has taken all of these. -/
theorem queue_never_runs_dry_and_reading_ends (ts : List Token) (rounds : Nat)
    (h : (Program.body ts).length < rounds) :
    ∃ accesses calls left,
      read rounds ts = ((Program.read ts).result.mapError .fault, ⟨left, accesses, calls⟩) ∧
      calls.map Call.notice = (Program.read ts).notices ∧
      (∀ a ∈ accesses, a.queue ≠ [] ∧ a.queue <:+ closed ts ∧ isClosed a.queue = true) ∧
      closed ts = taken accesses ++ left ∧ (∀ t ∈ taken accesses, t.kind ≠ .endOfInput) ∧
      (∀ c ∈ calls, c.before <:+ closed ts ∧ ∃ used, used ≠ [] ∧ c.before = used ++ c.after) ∧
      ∀ ss, (Program.read ts).result = .ok ss →
        taken accesses = Program.body ts ∧ ss.length ≤ (Program.body ts).length := by
  obtain ⟨tail, accesses, calls, rest, hqueue, htail, horder, hread, hnotices, hrest⟩ :=
    exists_orderly_read h
  refine ⟨accesses, calls, rest ++ tail, hread, hnotices, fun a ha => ?_, ?_, fun t ht => ?_,
    fun c hc => ?_, fun ss hss => ⟨?_, length_le_of_readAll hss⟩⟩
  · obtain ⟨front, hfront, hfound⟩ := horder.accesses a ha
    have hclosed : isClosed a.queue = true := hfound ▸ isClosed_append htail front
    refine ⟨ne_nil_of_isClosed hclosed, ?_, hclosed⟩
    rw [hqueue, hfound]
    exact List.suffix_append_self_iff.mpr hfront
  · rw [hqueue, ← List.append_assoc, ← horder.taken]
  · exact kind_of_mem_body t (horder.taken ▸ List.mem_append_left rest ht)
  · obtain ⟨used, front, hne, hfront, hbefore, hafter⟩ := horder.calls c hc
    rw [hqueue, hbefore, hafter, ← List.append_assoc]
    exact ⟨List.suffix_append_self_iff.mpr hfront, used, hne, List.append_assoc _ _ _⟩
  · have htaken := horder.taken
    rw [hrest ss hss, List.append_nil] at htaken
    exact htaken.symm

/-- A label whose colon has three characters, and behind the first end of the input a comment that
no other end follows. Both tokens of the label are taken, and both ends stay with the comment. -/
theorem queue_never_runs_dry_and_reading_ends_label :
    let p := Position.start ""
    let name : Token := ⟨⟨.identifier, "a"⟩, p⟩
    let colon : Token := ⟨⟨.symbol, ":::"⟩, p⟩
    let comment : Token := ⟨⟨.comment, ";"⟩, p⟩
    let last : Token := ⟨.endOfInput, p⟩
    let ts := [name, colon, last, comment]
    (Program.body ts).length < 3 ∧ ∃ accesses calls,
      read 3 ts = (.ok [.label "a" p], ⟨[last, comment, last], accesses, calls⟩) ∧
      taken accesses = [name, colon] ∧ calls.map Call.notice = [.parsed (.label "a" p)] ∧
      ∀ a ∈ accesses, a.queue ≠ [] ∧ a.queue <:+ ts ++ [last] := by
  intro p name colon comment last ts
  have hrounds : (Program.body ts).length < 3 := by decide
  obtain ⟨accesses, calls, left, hread, hnotices, hqueues, hleft, -, -, hall⟩ :=
    queue_never_runs_dry_and_reading_ends ts 3 hrounds
  have hcolon : colon.isSymbol ':' = true := by decide
  have hone : Statement.read p [name, colon] = .ok (.label "a" p, []) := by
    simp only [Statement.read, Token.skipSymbol, hcolon, if_true]
    rfl
  have hprogram : Program.read ts = ⟨[.parsed (.label "a" p)], .ok [.label "a" p]⟩ := by
    change Statement.readAll p [name, colon] = _
    rw [Statement.readAll_ok hone, Statement.readAll_nil]
    rfl
  have htaken : taken accesses = [name, colon] := (hall [.label "a" p] (by rw [hprogram])).1
  have hclosed : closed ts = [name, colon] ++ [last, comment, last] := rfl
  obtain rfl : [last, comment, last] = left := by
    rw [htaken, hclosed] at hleft
    exact List.append_cancel_left hleft
  refine ⟨hrounds, accesses, calls, ?_, htaken, ?_, fun a ha => ?_⟩
  · rw [hread, hprogram]
    rfl
  · rw [hnotices, hprogram]
  · exact ⟨(hqueues a ha).1, (hqueues a ha).2.1⟩

end Queue
end Chip8
