/-
# What is read can be printed

A text is split into lexemes that are spelled as their kinds ask for
(`Lexeme.Proper`), so the leaves of a derivation are, and what is derived can be
printed. Replacing names keeps it so: a name gives way to a number.

Key definitions: `Lexeme.Proper`.
Key theorems: `proper_of_scan`, `StatementTree.printable`, `Reads.printable`,
`printable_resolved`.
-/
import Mathlib.Data.List.TakeWhile
import Chip8.Proofs.Printing.Printable

namespace Chip8

/-- An identifier is a name, and a mnemonic a mnemonic. -/
structure Lexeme.Proper (l : Lexeme) : Prop where
  name : l.kind = .identifier → IsName l.text
  mnemonic : l.kind = .mnemonic → l.text ∈ Token.mnemonics

namespace Token

theorem kind_of_readNumber {radix : Radix} {mark cs : List Char} {piece : Piece}
    (h : readNumber radix mark cs = .ok piece) : ∃ n, piece.kind = .number n := by
  unfold readNumber at h
  simp only at h
  split at h
  · cases h
  · split at h
    · cases h
    · split at h
      · cases h
        exact ⟨_, rfl⟩
      · cases h

theorem proper_of_readNumber {radix : Radix} {mark cs : List Char} {piece : Piece}
    (h : readNumber radix mark cs = .ok piece) :
    Lexeme.Proper ⟨piece.kind, String.ofList piece.text⟩ := by
  obtain ⟨n, hn⟩ := kind_of_readNumber h
  rw [hn]
  exact ⟨nofun, nofun⟩

theorem proper_word {w : String} (hw : IsWord w) : Lexeme.Proper ⟨.ofWord w, w⟩ where
  name h := ⟨hw, Kind.ofWord_eq_identifier_iff.mp h⟩
  mnemonic h := Kind.ofWord_eq_mnemonic_iff.mp h

theorem proper_of_readLexeme {c : Char} {cs : List Char} {piece : Piece}
    (h : readLexeme c cs = .ok piece) :
    Lexeme.Proper ⟨piece.kind, String.ofList piece.text⟩ := by
  unfold readLexeme at h
  split at h
  · next hc =>
    cases h
    exact proper_word (isWord_ofList_cons.mpr ⟨hc, fun d hd => List.mem_takeWhile_imp hd⟩)
  · split at h
    · exact proper_of_readNumber h
    · split at h
      · exact proper_of_readNumber h
      · split at h
        · cases h
          exact ⟨nofun, nofun⟩
        · split at h
          · cases h
            exact ⟨nofun, nofun⟩
          · cases h

/-- All tokens of a text are proper. -/
theorem proper_of_scan {p : Position} {cs : List Char} {ts : List Token} (h : scan p cs = .ok ts) :
    ∀ t ∈ ts, t.Proper := by
  fun_induction scan p cs generalizing ts with
  | case1 p =>
    cases h
    exact List.forall_mem_singleton.mpr ⟨nofun, nofun⟩
  | case2 p c cs hb ih => exact ih h
  | case3 => cases h
  | case4 => cases h
  | case5 p c cs hb piece hcut us hus hk ih =>
    cases h
    exact ih hus
  | case6 p c cs hb piece hcut us hus hk ih =>
    cases h
    exact List.forall_mem_cons.mpr ⟨proper_of_readLexeme hcut, ih hus⟩

end Token

/-! ### Derivations -/

theorem ValueTree.printable (v : ValueTree) (h : v.token.Proper) : v.value.Printable := by
  cases v with
  | name t => exact h.name t.property
  | number n t => trivial

theorem Operand.printable_of_ofKeyword? {word : String} {kind : Kind}
    (h : Kind.ofKeyword? word = some kind) (p : Position) : Printable ⟨kind, .absent, p⟩ := by
  unfold Kind.ofKeyword? at h
  split at h <;> cases h <;> rfl

theorem Operand.printable_of_mem_marks {m : Char × Kind} (h : m ∈ marks) {v : Value}
    (hv : v.Printable) (p : Position) : Printable ⟨m.2, v, p⟩ := by
  have hkind : m.2 = .address ∨ m.2 = .register ∨ m.2 = .nibble := by
    simp only [marks, List.mem_cons, List.not_mem_nil, or_false] at h
    rcases h with rfl | rfl | rfl <;> simp
  rcases hkind with hk | hk | hk <;> rw [hk] <;> exact hv

theorem OperandTree.printable (o : OperandTree) (h : ∀ t ∈ o.tokens, t.Proper) :
    o.operand.Printable := by
  cases o with
  | indexed opening register closing => rfl
  | bracketed opening v closing => exact v.printable (h _ (by simp [tokens]))
  | marked c kind known mark v =>
    exact Operand.printable_of_mem_marks known (v.printable (h _ (by simp [tokens]))) _
  | keyword kind t known => exact Operand.printable_of_ofKeyword? known _
  | plain v => exact v.printable (h _ (by simp [tokens]))

theorem OperandsTree.printable (os : OperandsTree) (h : ∀ t ∈ os.tokens, t.Proper) :
    ∀ o ∈ os.operands, o.Printable := by
  cases os with
  | empty => nofun
  | list first more =>
    obtain ⟨hfirst, hmore⟩ := List.forall_mem_append.mp h
    refine List.forall_mem_cons.mpr ⟨first.printable hfirst, ?_⟩
    rw [List.forall_mem_map]
    rintro ⟨comma, o⟩ hm
    exact o.printable fun t ht =>
      hmore t (List.mem_flatMap.mpr ⟨_, hm, List.mem_cons_of_mem _ ht⟩)

theorem StatementTree.printable (s : StatementTree) (h : ∀ t ∈ s.tokens, t.Proper) :
    s.statement.Printable := by
  cases s with
  | label name colon => exact (h name.val List.mem_cons_self).name name.property
  | instruction mnemonic os =>
    obtain ⟨hm, hos⟩ := List.forall_mem_cons.mp h
    exact ⟨hm.mnemonic mnemonic.property, os.printable hos⟩
  | directive dot name os =>
    obtain ⟨hname, hos⟩ := List.forall_mem_cons.mp (List.forall_mem_cons.mp h).2
    exact ⟨hname.name name.property, os.printable hos⟩

/-- **What a text is read as can be printed.** -/
theorem Reads.printable {source text : String} {program : List Statement}
    (h : Reads source text program) : ∀ s ∈ program, s.Printable := by
  obtain ⟨ts, hts, hprogram⟩ := h
  rw [Token.result_tokenize] at hts
  have hproper := Token.proper_of_scan hts
  obtain ⟨T, rfl, hT⟩ := Statement.exists_tree_of_readAll hprogram
  intro s hs
  obtain ⟨tree, htree, rfl⟩ := List.mem_map.mp hs
  refine tree.printable fun t ht => hproper t ?_
  have hbody : t ∈ Program.body ts := hT ▸ List.mem_flatMap.mpr ⟨tree, htree, ht⟩
  exact List.takeWhile_subset _ hbody

/-! ### Names replaced -/

/-- An operand that carries something may carry any number. -/
theorem Operand.Printable.withNumber {o : Operand} (h : o.Printable) (hv : o.value ≠ .absent)
    (n : UInt32) : Operand.Printable { o with value := .number n } := by
  obtain ⟨kind, value, p⟩ := o
  cases kind
  case register | address | byte | nibble => trivial
  all_goals exact absurd h hv

theorem Operand.printable_resolved {symbols : Symbols} {o : Operand} (h : o.Printable) :
    (o.resolved symbols).Printable := by
  unfold resolved resolve
  split
  · next x hx =>
    split
    · exact h.withNumber (by simp [hx]) _
    · exact h
  · exact h

theorem Statement.printable_resolved {symbols : Symbols} {s : Statement} (h : s.Printable) :
    (s.resolved symbols).Printable := by
  have hos : ∀ os : List Operand, (∀ o ∈ os, o.Printable) →
      ∀ o ∈ os.map (Operand.resolved symbols), o.Printable := by
    intro os hos
    rw [List.forall_mem_map]
    exact fun o ho => Operand.printable_resolved (hos o ho)
  cases s with
  | label name p => exact h
  | instruction m os p => exact ⟨h.1, hos os h.2⟩
  | directive name os p => exact ⟨h.1, hos os h.2⟩

end Chip8
