/-
# Reading statements from tokens

A program is read from its tokens, front to back, looking ahead one token:

    program    statement ...
    statement  identifier ':'
            or mnemonic operands
            or '.' identifier operands
    operands   nothing, or operand ',' operand ',' ...
    operand    '[' 'I' ']' or '[' value ']' or '&' value or '@' value or '!' value
            or keyword or value
    value      identifier or number

Only the tokens before the first end of input count, and `stop` says where that
end stands. An identifier behind a mnemonic begins an operand, unless a colon
follows it: then it is the label of the next statement.

Every statement takes at least one token (`length_read_lt`), so reading ends.

Key definitions: `Value.read`, `Operand.read`, `Operand.readList`, `Statement.read`,
`Statement.readAll`, `Program.read`.
Key theorems: `Value.length_read_lt`, `Operand.length_read_lt`, `Operand.length_readList_le`,
`Statement.length_read_lt`, `Program.body_concat`.
-/
import Chip8.Outcome

namespace Chip8

namespace Token

/-- The fault of finding something else than `wanted` in front. -/
def unexpected (stop : Position) (wanted : Fault.Wanted) : List Token → Fault
  | [] => ⟨stop, .expected wanted .endOfInput⟩
  | t :: _ => ⟨t.position, .expected wanted t.toLexeme⟩

/-- Takes the symbol `c`, which has to be in front. -/
def skipSymbol (stop : Position) (c : Char) : List Token → Except Fault (List Token)
  | [] => .error (unexpected stop (.symbol c) [])
  | t :: ts => if t.isSymbol c then .ok ts else .error (unexpected stop (.symbol c) (t :: ts))

theorem skipSymbol_eq_ok {stop : Position} {c : Char} {ts rest : List Token}
    (h : skipSymbol stop c ts = .ok rest) : ∃ t, t.isSymbol c = true ∧ ts = t :: rest := by
  unfold skipSymbol at h
  split at h
  · cases h
  · split at h
    · cases h
      exact ⟨_, ‹_›, rfl⟩
    · cases h

end Token

/-- Takes a value. -/
def Value.read (stop : Position) : List Token → Except Fault (Value × List Token)
  | [] => .error (Token.unexpected stop .value [])
  | t :: ts =>
    match t.kind with
    | .identifier => .ok (.name t.text, ts)
    | .number n => .ok (.number n, ts)
    | _ => .error (Token.unexpected stop .value (t :: ts))

/-- A value is one token. -/
theorem Value.tail_of_read {stop : Position} {ts rest : List Token} {v : Value}
    (h : Value.read stop ts = .ok (v, rest)) : ∃ t, ts = t :: rest := by
  unfold Value.read at h
  split at h
  · cases h
  · split at h
    · cases h
      exact ⟨_, rfl⟩
    · cases h
      exact ⟨_, rfl⟩
    · cases h

theorem Value.length_read_lt {stop : Position} {ts rest : List Token} {v : Value}
    (h : Value.read stop ts = .ok (v, rest)) : rest.length < ts.length := by
  obtain ⟨t, rfl⟩ := tail_of_read h
  simp

namespace Operand

/-- The kind of an operand that is a value behind a mark. -/
def Kind.ofMark? : Char → Option Kind
  | '&' => some .address
  | '@' => some .register
  | '!' => some .nibble
  | _ => none

/-- Takes what stands behind an opening bracket at `position`: the index register
or an address, and the closing bracket. -/
def readBracketed (stop position : Position) (ts : List Token) :
    Except Fault (Operand × List Token) :=
  match ts.head?.any (·.isKeyword "I") with
  | true => do
    let rest ← Token.skipSymbol stop ']' ts.tail
    .ok (⟨.indexAddress, .absent, position⟩, rest)
  | false => do
    let (v, rest) ← Value.read stop ts
    let rest ← Token.skipSymbol stop ']' rest
    .ok (⟨.address, v, position⟩, rest)

/-- Takes an operand that is a value, of the kind that its mark gave it. -/
def readValued (stop position : Position) (kind : Kind) (ts : List Token) :
    Except Fault (Operand × List Token) := do
  let (v, rest) ← Value.read stop ts
  .ok (⟨kind, v, position⟩, rest)

/-- Takes an operand. -/
def read (stop : Position) : List Token → Except Fault (Operand × List Token)
  | [] => .error (Token.unexpected stop .value [])
  | t :: ts =>
    if t.isSymbol '[' then readBracketed stop t.position ts
    else
      match t.symbol?.bind Kind.ofMark? with
      | some kind => readValued stop t.position kind ts
      | none =>
        if t.kind = .keyword then
          match Kind.ofKeyword? t.text with
          | some kind => .ok (⟨kind, .absent, t.position⟩, ts)
          | none => .error ⟨t.position, .noSuchRegister⟩
        else readValued stop t.position .byte (t :: ts)

/-- Whether an operand is in front, and not the next statement. -/
def isNext : List Token → Bool
  | [] => false
  | t :: ts =>
    match t.kind with
    | .number _ | .keyword => true
    | .symbol => t.isSymbol '[' || (t.symbol?.bind Kind.ofMark?).isSome
    | .identifier => !ts.head?.any (·.isSymbol ':')
    | .mnemonic | .comment | .endOfInput => false

theorem length_readValued_lt {stop position : Position} {kind : Kind} {ts rest : List Token}
    {o : Operand} (h : readValued stop position kind ts = .ok (o, rest)) :
    rest.length < ts.length := by
  obtain ⟨⟨v, rest'⟩, hv, h⟩ := Except.bind_eq_ok_iff.mp h
  cases h
  exact Value.length_read_lt hv

theorem length_readBracketed_lt {stop position : Position} {ts rest : List Token} {o : Operand}
    (h : readBracketed stop position ts = .ok (o, rest)) : rest.length < ts.length := by
  unfold readBracketed at h
  split at h
  · obtain ⟨rest', hs, h⟩ := Except.bind_eq_ok_iff.mp h
    cases h
    obtain ⟨t, -, ht⟩ := Token.skipSymbol_eq_ok hs
    have := congrArg List.length ht
    simp only [List.length_tail, List.length_cons] at this
    omega
  · obtain ⟨⟨v, ts'⟩, hv, h⟩ := Except.bind_eq_ok_iff.mp h
    obtain ⟨rest', hs, h⟩ := Except.bind_eq_ok_iff.mp h
    cases h
    obtain ⟨t, -, rfl⟩ := Token.skipSymbol_eq_ok hs
    have := Value.length_read_lt hv
    simp only [List.length_cons] at this
    omega

/-- An operand takes at least one token. -/
theorem length_read_lt {stop : Position} {ts rest : List Token} {o : Operand}
    (h : read stop ts = .ok (o, rest)) : rest.length < ts.length := by
  unfold read at h
  split at h
  · cases h
  · split at h
    · exact Nat.lt_succ_of_lt (length_readBracketed_lt h)
    · split at h
      · exact Nat.lt_succ_of_lt (length_readValued_lt h)
      · split at h
        · split at h
          · cases h
            exact Nat.lt_succ_self _
          · cases h
        · exact length_readValued_lt h

/-- Takes the operands that follow the first, each behind a comma. -/
def readMore (stop : Position) : List Token → Except Fault (List Operand × List Token)
  | [] => .ok ([], [])
  | t :: ts =>
    if t.isSymbol ',' then
      match _one : read stop ts with
      | .error f => .error f
      | .ok (o, rest) =>
        match readMore stop rest with
        | .error f => .error f
        | .ok (os, rest') => .ok (o :: os, rest')
    else .ok ([], t :: ts)
termination_by ts => ts.length
decreasing_by exact Nat.lt_succ_of_lt (length_read_lt _one)

/-- Takes the operands of a statement, which may be none. -/
def readList (stop : Position) (ts : List Token) : Except Fault (List Operand × List Token) :=
  if isNext ts then do
    let (o, rest) ← read stop ts
    let (os, rest) ← readMore stop rest
    .ok (o :: os, rest)
  else .ok ([], ts)

theorem length_readMore_le {stop : Position} {ts rest : List Token} {os : List Operand}
    (h : readMore stop ts = .ok (os, rest)) : rest.length ≤ ts.length := by
  fun_induction readMore stop ts generalizing os rest with
  | case1 =>
    cases h
    exact Nat.le_refl _
  | case2 => cases h
  | case3 => cases h
  | case4 t ts hc o mid hone os' rest' hmore ih =>
    cases h
    have := length_read_lt hone
    have := ih hmore
    simp only [List.length_cons]
    omega
  | case5 =>
    cases h
    exact Nat.le_refl _

theorem length_readList_le {stop : Position} {ts rest : List Token} {os : List Operand}
    (h : readList stop ts = .ok (os, rest)) : rest.length ≤ ts.length := by
  unfold readList at h
  split at h
  · obtain ⟨⟨o, mid⟩, hone, h⟩ := Except.bind_eq_ok_iff.mp h
    obtain ⟨⟨os', rest'⟩, hmore, h⟩ := Except.bind_eq_ok_iff.mp h
    cases h
    exact Nat.le_of_lt (Nat.lt_of_le_of_lt (length_readMore_le hmore) (length_read_lt hone))
  · cases h
    exact Nat.le_refl _

end Operand

namespace Statement

/-- Takes what stands behind the dot of a directive at `position`. -/
def readDirective (stop position : Position) :
    List Token → Except Fault (Statement × List Token)
  | [] => .error (Token.unexpected stop .directiveName [])
  | t :: ts =>
    if t.kind = .identifier then do
      let (os, rest) ← Operand.readList stop ts
      .ok (.directive t.text os position, rest)
    else .error (Token.unexpected stop .directiveName (t :: ts))

/-- Takes a statement. -/
def read (stop : Position) : List Token → Except Fault (Statement × List Token)
  | [] => .error (Token.unexpected stop .statement [])
  | t :: ts =>
    match t.kind with
    | .identifier => do
      let rest ← Token.skipSymbol stop ':' ts
      .ok (.label t.text t.position, rest)
    | .mnemonic => do
      let (os, rest) ← Operand.readList stop ts
      .ok (.instruction t.text os t.position, rest)
    | _ =>
      if t.isSymbol '.' then readDirective stop t.position ts
      else .error (Token.unexpected stop .statement (t :: ts))

theorem length_readDirective_lt {stop position : Position} {ts rest : List Token} {s : Statement}
    (h : readDirective stop position ts = .ok (s, rest)) : rest.length < ts.length := by
  unfold readDirective at h
  split at h
  · cases h
  · split at h
    · obtain ⟨⟨os, rest'⟩, ho, h⟩ := Except.bind_eq_ok_iff.mp h
      cases h
      exact Nat.lt_succ_of_le (Operand.length_readList_le ho)
    · cases h

/-- A statement takes at least one token. -/
theorem length_read_lt {stop : Position} {ts rest : List Token} {s : Statement}
    (h : read stop ts = .ok (s, rest)) : rest.length < ts.length := by
  unfold read at h
  split at h
  · cases h
  · split at h
    · obtain ⟨rest', hs, h⟩ := Except.bind_eq_ok_iff.mp h
      cases h
      obtain ⟨u, -, rfl⟩ := Token.skipSymbol_eq_ok hs
      simp only [List.length_cons]
      omega
    · obtain ⟨⟨os, rest'⟩, ho, h⟩ := Except.bind_eq_ok_iff.mp h
      cases h
      exact Nat.lt_succ_of_le (Operand.length_readList_le ho)
    · split at h
      · exact Nat.lt_succ_of_lt (length_readDirective_lt h)
      · cases h

/-- Takes statements up to the end, and notes each. -/
def readAll (stop : Position) : List Token → Outcome (List Statement)
  | [] => pure []
  | t :: ts =>
    match _one : read stop (t :: ts) with
    | .error f => .fail f
    | .ok (s, rest) => do
      .raise (.parsed s)
      (s :: ·) <$> readAll stop rest
termination_by ts => ts.length
decreasing_by exact length_read_lt _one

theorem readAll_nil (stop : Position) : readAll stop [] = pure [] := by rw [readAll]

theorem readAll_error {stop : Position} {ts : List Token} {f : Fault} (hne : ts ≠ [])
    (h : read stop ts = .error f) : readAll stop ts = .fail f := by
  obtain ⟨t, ts, rfl⟩ := List.exists_cons_of_ne_nil hne
  rw [readAll]
  split <;> simp_all

theorem readAll_ok {stop : Position} {ts rest : List Token} {s : Statement}
    (h : read stop ts = .ok (s, rest)) :
    readAll stop ts = (do
      .raise (.parsed s)
      (s :: ·) <$> readAll stop rest) := by
  cases ts with
  | nil => cases h
  | cons t ts =>
    rw [readAll]
    split <;> simp_all

end Statement

namespace Program

/-- The tokens before the first end of input. -/
def body (ts : List Token) : List Token := ts.takeWhile (·.kind != .endOfInput)

/-- The tokens before the end of the input are all of the program. -/
theorem body_concat {ts : List Token} {e : Token} (hts : ∀ t ∈ ts, t.kind ≠ .endOfInput)
    (he : e.kind = .endOfInput) : body (ts ++ [e]) = ts := by
  rw [body, List.takeWhile_append_of_pos (by simpa using hts)]
  simp [he]

/-- Where the input ends: at the first token that says so, else at the last
token, else at the beginning of a text without a name. -/
def stop (ts : List Token) : Position :=
  match ts.find? (·.kind == .endOfInput) with
  | some t => t.position
  | none => (ts.getLast?.map Token.position).getD (.start "")

/-- The statements of a row of tokens. -/
def read (ts : List Token) : Outcome (List Statement) := Statement.readAll (stop ts) (body ts)

end Program
end Chip8
