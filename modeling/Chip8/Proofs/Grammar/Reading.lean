/-
# Reading follows the grammar

What is read from a row of tokens is what the row derives, and every row that
derives something is read. Each step of reading is taken in both directions: a
tree's tokens are read as what the tree stands for, whatever follows them
(`read_tokens_append`), and what was read has a tree whose tokens were taken
(`exists_tree_of_read`). Only the operands of a statement look at what follows:
it has to close them.

Key theorems: `OperandTree.read_tokens_append`, `Operand.exists_tree_of_read`,
`StatementTree.read_tokens_append`, `Statement.exists_tree_of_read`,
`ProgramTree.readAll_tokens`, `Statement.exists_tree_of_readAll`,
`Program.read_ok_iff_derives_and_unambiguous`.
-/
import Chip8.Proofs.Grammar.Tree

namespace Chip8

variable (stop : Position)

/-! ### Every derivation is read -/

theorem Token.skipSymbol_symbol {c : Char} (t : Token.Symbol c) (ts : List Token) :
    skipSymbol stop c (t.val :: ts) = .ok ts := by
  simp [skipSymbol, t.property]

theorem ValueTree.read_token (v : ValueTree) (ts : List Token) :
    Value.read stop (v.token :: ts) = .ok (v.value, ts) := by
  cases v with
  | name t => simp [Value.read, token, value, t.property]
  | number n t => simp [Value.read, token, value, t.property]

/-- The tokens of an operand are read as the operand, whatever follows them. -/
theorem OperandTree.read_tokens_append (o : OperandTree) (ts : List Token) :
    Operand.read stop (o.tokens ++ ts) = .ok (o.operand, ts) := by
  cases o with
  | indexed opening register closing =>
    simp [tokens, operand, Operand.read, Operand.readBracketed, opening.property, register.property,
      Token.skipSymbol_symbol, bind, Except.bind]
  | bracketed opening v closing =>
    have hv : v.token.isKeyword "I" = false := by
      rw [← Bool.not_eq_true, Lexeme.isKeyword_iff]
      exact fun h => v.kind_token_ne_keyword h.1
    simp [tokens, operand, Operand.read, Operand.readBracketed, opening.property, hv,
      ValueTree.read_token, Token.skipSymbol_symbol, bind, Except.bind]
  | marked c kind known mark v =>
    have hbracket := Lexeme.isSymbol_eq_false mark.property
      (Operand.ne_bracket_of_mem_marks _ known)
    simp [tokens, operand, Operand.read, hbracket, Lexeme.isSymbol_iff.mp mark.property,
      Operand.Kind.ofMark?_eq_some_iff.mpr known, Operand.readValued, ValueTree.read_token, bind,
      Except.bind]
  | keyword kind t known =>
    have hsymbol : t.val.symbol? = none := by simp [Lexeme.symbol?, t.property]
    simp [tokens, operand, Operand.read, Lexeme.isSymbol, hsymbol, t.property, known]
  | plain v =>
    have hsymbol : v.token.symbol? = none := by
      cases v with
      | name t => simp [ValueTree.token, Lexeme.symbol?, t.property]
      | number n t => simp [ValueTree.token, Lexeme.symbol?, t.property]
    simp [tokens, operand, Operand.read, Lexeme.isSymbol, hsymbol, v.kind_token_ne_keyword,
      Operand.readValued, ValueTree.read_token, bind, Except.bind]

namespace OperandsTree

theorem readMore_moreTokens_append {ts : List Token} (h : ∀ t ∈ ts.head?, t.isSymbol ',' = false) :
    ∀ more : List (Token.Symbol ',' × OperandTree),
      Operand.readMore stop (moreTokens more ++ ts) = .ok (more.map fun (_, o) => o.operand, ts)
  | [] => by
    rw [moreTokens, List.flatMap_nil, List.nil_append]
    cases ts with
    | nil => rw [Operand.readMore]; rfl
    | cons t ts =>
      have ht : t.isSymbol ',' = false := h t rfl
      rw [Operand.readMore]
      simp [ht]
  | (comma, o) :: more => by
    have ih := readMore_moreTokens_append h more
    have hone := o.read_tokens_append stop (moreTokens more ++ ts)
    rw [moreTokens_cons, List.cons_append, List.append_assoc, Operand.readMore,
      if_pos comma.property]
    split
    · next h' => rw [hone] at h'; cases h'
    · next h' =>
      rw [hone] at h'
      cases h'
      rw [ih]
      rfl

/-- The tokens of all operands are read as the operands, if what follows closes them. -/
theorem readList_tokens_append (os : OperandsTree) {ts : List Token} (h : Closes ts) :
    Operand.readList stop (os.tokens ++ ts) = .ok (os.operands, ts) := by
  cases os with
  | empty => simp [tokens, operands, Operand.readList, h.not_operand]
  | list o more =>
    have hmore := readMore_moreTokens_append stop h.not_comma more
    rw [Operand.readList, if_pos (isNext_list_append h o more), tokens, List.append_assoc,
      o.read_tokens_append]
    simp [bind, Except.bind, hmore, operands]

end OperandsTree

/-- The tokens of a statement are read as the statement, if what follows closes it. -/
theorem StatementTree.read_tokens_append (s : StatementTree) {ts : List Token} (h : Closes ts) :
    Statement.read stop (s.tokens ++ ts) = .ok (s.statement, ts) := by
  cases s with
  | label name colon =>
    simp [tokens, statement, Statement.read, name.property, Token.skipSymbol_symbol, bind,
      Except.bind]
  | instruction mnemonic os =>
    simp [tokens, statement, Statement.read, mnemonic.property, os.readList_tokens_append stop h,
      bind, Except.bind]
  | directive dot name os =>
    simp [tokens, statement, Statement.read, Lexeme.kind_of_isSymbol dot.property, dot.property,
      Statement.readDirective, name.property, os.readList_tokens_append stop h, bind, Except.bind]

/-- The tokens of a program are read as the program. -/
theorem ProgramTree.readAll_tokens : ∀ T : ProgramTree,
    (Statement.readAll stop T.tokens).result = .ok T.program
  | [] => by rw [tokens, List.flatMap_nil, Statement.readAll_nil]; rfl
  | s :: T => by
    have hs := s.read_tokens_append stop (closes_tokens T)
    have hT := readAll_tokens T
    rw [show ProgramTree.tokens (s :: T) = s.tokens ++ ProgramTree.tokens T from rfl,
      Statement.readAll_ok hs]
    simp [hT, Except.bind, Except.map, program]

/-! ### What is read has a derivation -/

variable {stop}

theorem Value.exists_tree_of_read {ts rest : List Token} {v : Value}
    (h : Value.read stop ts = .ok (v, rest)) : ∃ tree : ValueTree, tree.value = v ∧
      ts = tree.token :: rest := by
  unfold Value.read at h
  split at h
  · cases h
  · split at h
    · next hk =>
      cases h
      exact ⟨.name ⟨_, hk⟩, rfl, rfl⟩
    · next hk =>
      cases h
      exact ⟨.number _ ⟨_, hk⟩, rfl, rfl⟩
    · cases h

namespace Operand

theorem exists_tree_of_readBracketed (opening : Token.Symbol '[') {ts rest : List Token}
    {o : Operand} (h : readBracketed stop opening.val.position ts = .ok (o, rest)) :
    ∃ tree : OperandTree, tree.operand = o ∧ opening.val :: ts = tree.tokens ++ rest := by
  unfold readBracketed at h
  split at h
  · next hany =>
    obtain ⟨rest', hs, h⟩ := Except.bind_eq_ok_iff.mp h
    cases h
    obtain ⟨register, ts, rfl⟩ : ∃ t us, ts = t :: us := by
      cases ts with
      | nil => simp at hany
      | cons t us => exact ⟨t, us, rfl⟩
    obtain ⟨closing, hc, hts⟩ := Token.skipSymbol_eq_ok hs
    refine ⟨.indexed opening ⟨register, by simpa using hany⟩ ⟨closing, hc⟩, rfl, ?_⟩
    rw [List.tail_cons] at hts
    rw [hts]
    rfl
  · obtain ⟨⟨v, ts'⟩, hv, h⟩ := Except.bind_eq_ok_iff.mp h
    obtain ⟨rest', hs, h⟩ := Except.bind_eq_ok_iff.mp h
    cases h
    obtain ⟨tree, rfl, rfl⟩ := Value.exists_tree_of_read hv
    obtain ⟨closing, hc, rfl⟩ := Token.skipSymbol_eq_ok hs
    exact ⟨.bracketed opening tree ⟨closing, hc⟩, rfl, rfl⟩

theorem exists_valueTree_of_readValued {position : Position} {kind : Kind} {ts rest : List Token}
    {o : Operand} (h : readValued stop position kind ts = .ok (o, rest)) :
    ∃ tree : ValueTree, o = ⟨kind, tree.value, position⟩ ∧ ts = tree.token :: rest := by
  obtain ⟨⟨v, ts'⟩, hv, h⟩ := Except.bind_eq_ok_iff.mp h
  cases h
  obtain ⟨tree, rfl, hts⟩ := Value.exists_tree_of_read hv
  exact ⟨tree, rfl, hts⟩

/-- An operand that was read has a derivation from the tokens that it took. -/
theorem exists_tree_of_read {ts rest : List Token} {o : Operand}
    (h : read stop ts = .ok (o, rest)) :
    ∃ tree : OperandTree, tree.operand = o ∧ ts = tree.tokens ++ rest := by
  unfold read at h
  split at h
  · cases h
  · next t ts =>
    split at h
    · next ht => exact exists_tree_of_readBracketed ⟨t, ht⟩ h
    · split at h
      · next kind hkind =>
        obtain ⟨c, hc, hmark⟩ := Option.bind_eq_some_iff.mp hkind
        obtain ⟨v, rfl, rfl⟩ := exists_valueTree_of_readValued h
        exact ⟨.marked c kind (Kind.ofMark?_eq_some_iff.mp hmark) ⟨t, Lexeme.isSymbol_iff.mpr hc⟩ v,
          rfl, rfl⟩
      · split at h
        · next hk =>
          split at h
          · next kind hkind =>
            cases h
            exact ⟨.keyword kind ⟨t, hk⟩ hkind, rfl, rfl⟩
          · cases h
        · obtain ⟨v, rfl, hts⟩ := exists_valueTree_of_readValued h
          obtain ⟨rfl, rfl⟩ := List.cons.inj hts
          exact ⟨.plain v, rfl, rfl⟩

theorem exists_trees_of_readMore {ts rest : List Token} {os : List Operand}
    (h : readMore stop ts = .ok (os, rest)) :
    ∃ more : List (Token.Symbol ',' × OperandTree), more.map (fun (_, o) => o.operand) = os ∧
      ts = OperandsTree.moreTokens more ++ rest := by
  fun_induction readMore stop ts generalizing os rest with
  | case1 =>
    cases h
    exact ⟨[], rfl, rfl⟩
  | case2 => cases h
  | case3 => cases h
  | case4 t ts hc o mid hone os' rest' hmore ih =>
    cases h
    obtain ⟨tree, rfl, rfl⟩ := exists_tree_of_read hone
    obtain ⟨more, rfl, rfl⟩ := ih hmore
    refine ⟨(⟨t, hc⟩, tree) :: more, rfl, ?_⟩
    rw [OperandsTree.moreTokens_cons, List.cons_append, List.append_assoc]
  | case5 =>
    cases h
    exact ⟨[], rfl, rfl⟩

theorem exists_tree_of_readList {ts rest : List Token} {os : List Operand}
    (h : readList stop ts = .ok (os, rest)) :
    ∃ tree : OperandsTree, tree.operands = os ∧ ts = tree.tokens ++ rest := by
  unfold readList at h
  split at h
  · obtain ⟨⟨o, mid⟩, hone, h⟩ := Except.bind_eq_ok_iff.mp h
    obtain ⟨⟨os', rest'⟩, hmore, h⟩ := Except.bind_eq_ok_iff.mp h
    cases h
    obtain ⟨first, rfl, rfl⟩ := exists_tree_of_read hone
    obtain ⟨more, rfl, rfl⟩ := exists_trees_of_readMore hmore
    exact ⟨.list first more, rfl, by rw [OperandsTree.tokens, List.append_assoc]⟩
  · cases h
    exact ⟨.empty, rfl, rfl⟩

end Operand

namespace Statement

theorem exists_tree_of_readDirective (dot : Token.Symbol '.') {ts rest : List Token} {s : Statement}
    (h : readDirective stop dot.val.position ts = .ok (s, rest)) :
    ∃ tree : StatementTree, tree.statement = s ∧ dot.val :: ts = tree.tokens ++ rest := by
  unfold readDirective at h
  split at h
  · cases h
  · split at h
    · next t ts hk =>
      obtain ⟨⟨os, rest'⟩, ho, h⟩ := Except.bind_eq_ok_iff.mp h
      cases h
      obtain ⟨tree, rfl, rfl⟩ := Operand.exists_tree_of_readList ho
      exact ⟨.directive dot ⟨t, hk⟩ tree, rfl, rfl⟩
    · cases h

/-- A statement that was read has a derivation from the tokens that it took. -/
theorem exists_tree_of_read {ts rest : List Token} {s : Statement}
    (h : read stop ts = .ok (s, rest)) :
    ∃ tree : StatementTree, tree.statement = s ∧ ts = tree.tokens ++ rest := by
  unfold read at h
  split at h
  · cases h
  · next t ts =>
    split at h
    · next hk =>
      obtain ⟨rest', hs, h⟩ := Except.bind_eq_ok_iff.mp h
      cases h
      obtain ⟨colon, hc, rfl⟩ := Token.skipSymbol_eq_ok hs
      exact ⟨.label ⟨t, hk⟩ ⟨colon, hc⟩, rfl, rfl⟩
    · next hk =>
      obtain ⟨⟨os, rest'⟩, ho, h⟩ := Except.bind_eq_ok_iff.mp h
      cases h
      obtain ⟨tree, rfl, rfl⟩ := Operand.exists_tree_of_readList ho
      exact ⟨.instruction ⟨t, hk⟩ tree, rfl, rfl⟩
    · split at h
      · next hdot => exact exists_tree_of_readDirective ⟨t, hdot⟩ h
      · cases h

/-- A program that was read has a derivation from all of the tokens. -/
theorem exists_tree_of_readAll {ts : List Token} {ss : List Statement}
    (h : (readAll stop ts).result = .ok ss) :
    ∃ T : ProgramTree, T.program = ss ∧ ts = T.tokens := by
  fun_induction readAll stop ts generalizing ss with
  | case1 =>
    cases h
    exact ⟨[], rfl, rfl⟩
  | case2 => cases h
  | case3 t ts s rest hone ih =>
    simp only [Outcome.result_bind, Outcome.result_raise, Except.bind, Outcome.result_map] at h
    cases hrest : (readAll stop rest).result with
    | error f => rw [hrest] at h; cases h
    | ok ss' =>
      rw [hrest] at h
      cases h
      obtain ⟨tree, rfl, hts⟩ := exists_tree_of_read hone
      obtain ⟨T, rfl, rfl⟩ := ih hrest
      exact ⟨tree :: T, rfl, hts⟩

end Statement

/-! ### Exactly the grammar -/

/-- **Reading accepts exactly the grammar, which is unambiguous.** A row of tokens is read as a
program iff the tokens before the first end of input derive it; and no row of tokens has two
derivations, though no rule says where a statement ends. -/
theorem Program.read_ok_iff_derives_and_unambiguous (ts : List Token) (ss : List Statement) :
    ((Program.read ts).result = .ok ss ↔
      ∃ T : ProgramTree, T.tokens = Program.body ts ∧ T.program = ss) ∧
    ∀ T T' : ProgramTree, T.tokens = T'.tokens → T = T' := by
  refine ⟨⟨fun h => ?_, ?_⟩, fun T T' => ProgramTree.tokens_injective⟩
  · obtain ⟨T, hss, hts⟩ := Statement.exists_tree_of_readAll h
    exact ⟨T, hts.symm, hss⟩
  · rintro ⟨T, hT, rfl⟩
    rw [Program.read, ← hT]
    exact T.readAll_tokens _

end Chip8
