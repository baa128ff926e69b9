/-
# The stage that finds a fault

A fault says by its cause which stage found it, and no stage uses the cause of
another: splitting a text finds lexical faults only (`stage_of_tokenize_error`),
and reading statements grammatical ones (`stage_of_read_error`).

Key theorems: `Token.stage_of_tokenize_error`, `Program.stage_of_read_error`.
-/
import Chip8.Program.Read
import Chip8.Token.Scan

namespace Chip8

/-! ### Splitting -/

namespace Token

theorem stage_of_readNumber_error {radix : Radix} {mark cs : List Char} {cause : Fault.Cause}
    (h : readNumber radix mark cs = .error cause) : cause.stage = .lexical := by
  unfold readNumber at h
  simp only at h
  split at h
  · cases h
    rfl
  · split at h
    · cases h
      rfl
    · split at h
      · cases h
      · cases h
        rfl

theorem stage_of_readLexeme_error {c : Char} {cs : List Char} {cause : Fault.Cause}
    (h : readLexeme c cs = .error cause) : cause.stage = .lexical := by
  unfold readLexeme at h
  split at h
  · cases h
  · split at h
    · exact stage_of_readNumber_error h
    · split at h
      · exact stage_of_readNumber_error h
      · split at h
        · cases h
        · split at h
          · cases h
          · cases h
            rfl

theorem stage_of_scan_error {p : Position} {cs : List Char} {f : Fault} (h : scan p cs = .error f) :
    f.stage = .lexical := by
  fun_induction scan p cs with
  | case1 => cases h
  | case2 p c cs hb ih => exact ih h
  | case3 p c cs hb cause hcut =>
    cases h
    exact stage_of_readLexeme_error hcut
  | case4 p c cs hb piece hcut g hg ih =>
    cases h
    exact ih hg
  | case5 => cases h
  | case6 => cases h

/-- A text that is not split has a lexical fault. -/
theorem stage_of_tokenize_error {source text : String} {f : Fault}
    (h : (tokenize source text).result = .error f) : f.stage = .lexical := by
  rw [result_tokenize] at h
  exact stage_of_scan_error h

end Token

/-! ### Reading -/

/-- A step of reading fails iff one of its parts does. -/
theorem Except.bind_eq_error_iff {α β : Type} {x : Except Fault α} {f : α → Except Fault β}
    {e : Fault} :
    x >>= f = .error e ↔ x = .error e ∨ ∃ a, x = .ok a ∧ f a = .error e := by
  cases x <;> simp [bind, Except.bind]

variable {stop : Position} {f : Fault}

theorem Token.stage_of_skipSymbol_error {c : Char} {ts : List Token}
    (h : skipSymbol stop c ts = .error f) : f.stage = .grammatical := by
  unfold skipSymbol at h
  split at h
  · cases h
    rfl
  · split at h
    · cases h
    · cases h
      rfl

theorem Value.stage_of_read_error {ts : List Token} (h : Value.read stop ts = .error f) :
    f.stage = .grammatical := by
  unfold Value.read at h
  split at h
  · cases h
    rfl
  · split at h
    · cases h
    · cases h
    · cases h
      rfl

namespace Operand

theorem stage_of_readBracketed_error {position : Position} {ts : List Token}
    (h : readBracketed stop position ts = .error f) : f.stage = .grammatical := by
  unfold readBracketed at h
  split at h
  · rcases Except.bind_eq_error_iff.mp h with h | ⟨_, -, h⟩
    · exact Token.stage_of_skipSymbol_error h
    · cases h
  · rcases Except.bind_eq_error_iff.mp h with h | ⟨_, -, h⟩
    · exact Value.stage_of_read_error h
    · rcases Except.bind_eq_error_iff.mp h with h | ⟨_, -, h⟩
      · exact Token.stage_of_skipSymbol_error h
      · cases h

theorem stage_of_readValued_error {position : Position} {kind : Kind} {ts : List Token}
    (h : readValued stop position kind ts = .error f) : f.stage = .grammatical := by
  rcases Except.bind_eq_error_iff.mp h with h | ⟨_, -, h⟩
  · exact Value.stage_of_read_error h
  · cases h

theorem stage_of_read_error {ts : List Token} (h : read stop ts = .error f) :
    f.stage = .grammatical := by
  unfold read at h
  split at h
  · cases h
    rfl
  · split at h
    · exact stage_of_readBracketed_error h
    · split at h
      · exact stage_of_readValued_error h
      · split at h
        · split at h
          · cases h
          · cases h
            rfl
        · exact stage_of_readValued_error h

theorem stage_of_readMore_error {ts : List Token} (h : readMore stop ts = .error f) :
    f.stage = .grammatical := by
  fun_induction readMore stop ts with
  | case1 => cases h
  | case2 t ts hc g hone =>
    cases h
    exact stage_of_read_error hone
  | case3 t ts hc o mid hone g hmore ih =>
    cases h
    exact ih hmore
  | case4 => cases h
  | case5 => cases h

theorem stage_of_readList_error {ts : List Token} (h : readList stop ts = .error f) :
    f.stage = .grammatical := by
  unfold readList at h
  split at h
  · rcases Except.bind_eq_error_iff.mp h with h | ⟨_, -, h⟩
    · exact stage_of_read_error h
    · rcases Except.bind_eq_error_iff.mp h with h | ⟨_, -, h⟩
      · exact stage_of_readMore_error h
      · cases h
  · cases h

end Operand

namespace Statement

theorem stage_of_readDirective_error {position : Position} {ts : List Token}
    (h : readDirective stop position ts = .error f) : f.stage = .grammatical := by
  unfold readDirective at h
  split at h
  · cases h
    rfl
  · split at h
    · rcases Except.bind_eq_error_iff.mp h with h | ⟨_, -, h⟩
      · exact Operand.stage_of_readList_error h
      · cases h
    · cases h
      rfl

theorem stage_of_read_error {ts : List Token} (h : read stop ts = .error f) :
    f.stage = .grammatical := by
  unfold read at h
  split at h
  · cases h
    rfl
  · split at h
    · rcases Except.bind_eq_error_iff.mp h with h | ⟨_, -, h⟩
      · exact Token.stage_of_skipSymbol_error h
      · cases h
    · rcases Except.bind_eq_error_iff.mp h with h | ⟨_, -, h⟩
      · exact Operand.stage_of_readList_error h
      · cases h
    · split at h
      · exact stage_of_readDirective_error h
      · cases h
        rfl

theorem stage_of_readAll_error {ts : List Token} (h : (readAll stop ts).result = .error f) :
    f.stage = .grammatical := by
  fun_induction readAll stop ts with
  | case1 => cases h
  | case2 t ts g hone =>
    cases h
    exact stage_of_read_error hone
  | case3 t ts s rest hone ih =>
    simp only [Outcome.result_bind, Outcome.result_raise, Except.bind, Outcome.result_map] at h
    cases hrest : (readAll stop rest).result with
    | error g =>
      rw [hrest] at h
      cases h
      exact ih hrest
    | ok ss =>
      rw [hrest] at h
      cases h

end Statement

/-- A row of tokens that is not read has a grammatical fault. -/
theorem Program.stage_of_read_error {ts : List Token} (h : (read ts).result = .error f) :
    f.stage = .grammatical := Statement.stage_of_readAll_error h

end Chip8
