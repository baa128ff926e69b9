/-
# Printing and reading back

A program can be printed if its names are words that mean nothing else and its
operands carry what their kinds ask for (`Statement.Printable`). Such a program is
printed as a text that is read as the same program: each operand and statement has
a derivation whose leaves its written form spells (`exists_tree_of_printable`), and
tokens that say the same are read alike. Only the positions differ.

Key definitions: `IsName`, `Operand.Printable`, `Statement.Printable`, `Program.print`,
`Operand.Spelled`.
Key theorems: `Operand.spelled_of_printable`, `Statement.exists_tree_of_printable`,
`Program.exists_tree_of_printable`, `Program.exists_reads_print`.
-/
import Chip8.Proofs.Assembly.Program
import Chip8.Proofs.Grammar.Reading
import Chip8.Proofs.Moved.Reading
import Chip8.Proofs.Printing.Spelling

namespace Chip8

/-! ### What can be printed -/

/-- A word that is neither a mnemonic nor the name of a special register. -/
def IsName (x : String) : Prop := IsWord x ∧ x ∉ Token.mnemonics ∧ x ∉ Token.keywords

/-- A name or a number. -/
def Value.Printable : Value → Prop
  | name x => IsName x
  | number _ => True
  | absent => False

/-- A register, address, byte or nibble is a name or a number; the other kinds carry nothing. -/
def Operand.Printable (o : Operand) : Prop :=
  match o.kind with
  | .register | .address | .byte | .nibble => o.value.Printable
  | .index | .delayTimer | .soundTimer | .bcd | .key | .flags | .indexAddress => o.value = .absent

/-- Labels and directives have names, instructions mnemonics, and the operands can be printed. -/
def Statement.Printable : Statement → Prop
  | label name _ => IsName name
  | instruction mnemonic os _ => mnemonic ∈ Token.mnemonics ∧ ∀ o ∈ os, o.Printable
  | directive name os _ => IsName name ∧ ∀ o ∈ os, o.Printable

/-- The written form of a program, a line for each statement. -/
def Program.print (ss : List Statement) : String := "\n".intercalate (ss.map Statement.render)

theorem toList_intercalate_cons_cons (separator first second : String) (more : List String) :
    (separator.intercalate (first :: second :: more)).toList =
      first.toList ++ (separator.toList ++ (separator.intercalate (second :: more)).toList) := by
  rw [String.intercalate_cons_cons, String.toList_append, String.toList_append, List.append_assoc]

theorem isWord_of_mem_mnemonics : ∀ w ∈ Token.mnemonics, IsWord w := by decide +kernel

theorem isWord_of_mem_keywords : ∀ w ∈ Token.keywords, IsWord w := by decide +kernel

/-! ### Leaves -/

/-- A leaf that says `l`; where it stands does not matter. -/
def Lexeme.leaf (l : Lexeme) : Token := ⟨l, .start ""⟩

/-- The leaf of a symbol. -/
def Token.Symbol.leaf (c : Char) : Token.Symbol c :=
  ⟨(Lexeme.symbol c).leaf, by simp [Lexeme.leaf, Lexeme.symbol, Lexeme.isSymbol, Lexeme.symbol?]⟩

theorem Writes.brackets {cs : List Char} {ts : List Token} (h : Writes cs ts) :
    Writes ('[' :: (cs ++ [']']))
      ((Token.Symbol.leaf '[').val :: (ts ++ [(Token.Symbol.leaf ']').val])) := by
  have hclosing : Writes [']'] [(Token.Symbol.leaf ']').val] := writes_nil.symbol (by decide) rfl
  exact (h.append (cut_cons (by decide) []) hclosing).symbol (by decide) rfl

theorem writes_word {w : String} {t : Token} (hw : IsWord w) (ht : t.toLexeme = ⟨.ofWord w, w⟩) :
    Writes w.toList [t] := by
  intro rest ls hrest hls
  rw [List.map_singleton, ht]
  exact spells_word hw hrest hls

theorem IsName.exists_leaf {x : String} (h : IsName x) :
    ∃ t : Token.OfKind .identifier, t.val.text = x ∧ Writes x.toList [t.val] := by
  have hk : Token.Kind.ofWord x = .identifier := Token.Kind.ofWord_eq_identifier_iff.mpr h.2
  exact ⟨⟨Lexeme.leaf ⟨.ofWord x, x⟩, hk⟩, rfl, writes_word h.1 rfl⟩

theorem Value.exists_tree_of_printable {v : Value} (h : v.Printable) :
    ∃ tree : ValueTree, tree.value = v ∧ Writes v.render.toList [tree.token] := by
  cases v with
  | name x =>
    obtain ⟨t, rfl, ht⟩ := IsName.exists_leaf h
    exact ⟨.name t, rfl, ht⟩
  | number n =>
    exact ⟨.number n ⟨Lexeme.leaf ⟨.number n, decimal n.toNat⟩, rfl⟩, rfl,
      fun _ _ hrest hls => spells_decimal n hrest hls⟩
  | absent => exact h.elim

/-! ### Operands -/

namespace Operand

/-- The operand has a derivation, at whichever place, whose leaves its written form spells. -/
def Spelled (o : Operand) : Prop :=
  ∃ tree : OperandTree, tree.operand.unlocated = o.unlocated ∧ Writes o.render.toList tree.tokens

variable {o : Operand}

theorem spelled_of_keyword (word : String) (h : Kind.ofKeyword? word = some o.kind)
    (hv : o.value = .absent) : o.Spelled := by
  have hmem : word ∈ Token.keywords := Kind.isSome_ofKeyword?_iff.mp (by simp [h])
  have hk : Token.Kind.ofWord word = .keyword := Token.Kind.ofWord_eq_keyword_iff.mpr hmem
  refine ⟨.keyword o.kind ⟨Lexeme.leaf ⟨.ofWord word, word⟩, hk⟩ h, ?_, ?_⟩
  · simp [OperandTree.operand, unlocated, moved, hv]
  · rw [render_of_ofKeyword? h]
    exact writes_word (isWord_of_mem_keywords word hmem) rfl

theorem spelled_of_indexAddress (hk : o.kind = .indexAddress) (hv : o.value = .absent) :
    o.Spelled := by
  refine ⟨.indexed (.leaf '[') ⟨Lexeme.leaf ⟨.keyword, "I"⟩, rfl⟩ (.leaf ']'), ?_, ?_⟩
  · simp [OperandTree.operand, unlocated, moved, hk, hv]
  · have hword : Writes ['I'] [Lexeme.leaf ⟨.keyword, "I"⟩] :=
      writes_word (w := "I") (by decide) rfl
    rw [show o.render.toList = '[' :: (['I'] ++ [']']) by simp [render, hk]]
    exact hword.brackets

theorem spelled_of_marked {c : Char} (hk : (c, o.kind) ∈ marks) (hc : c ∈ Token.symbols)
    (hv : o.value.Printable) (hrender : o.render.toList = c :: o.value.render.toList) :
    o.Spelled := by
  obtain ⟨v, hvalue, hwrites⟩ := Value.exists_tree_of_printable hv
  refine ⟨.marked c o.kind hk (.leaf c) v, ?_, ?_⟩
  · simp [OperandTree.operand, unlocated, moved, hvalue]
  · rw [hrender]
    exact hwrites.symbol hc rfl

theorem spelled_of_plain (hk : o.kind = .byte) (hv : o.value.Printable) : o.Spelled := by
  obtain ⟨v, hvalue, hwrites⟩ := Value.exists_tree_of_printable hv
  refine ⟨.plain v, ?_, ?_⟩
  · simp [OperandTree.operand, unlocated, moved, hvalue, hk]
  · rw [show o.render = o.value.render by simp [render, hk]]
    exact hwrites

/-- An address in brackets, in whichever way its value is written. -/
theorem spelled_of_bracketed (hk : o.kind = .address) (hv : o.value.Printable) : o.Spelled := by
  have hinside : ∃ v : ValueTree, ∃ cs, v.value = o.value ∧ Writes cs [v.token] ∧
      o.render.toList = '[' :: (cs ++ [']']) := by
    cases hvalue : o.value with
    | name x =>
      obtain ⟨v, hx, hwrites⟩ := Value.exists_tree_of_printable (hvalue ▸ hv)
      exact ⟨v, _, hx, hwrites, by simp [render, hk, hvalue]⟩
    | number n =>
      refine ⟨.number n ⟨Lexeme.leaf ⟨.number n, "#" ++ hex 3 n.toNat⟩, rfl⟩, _, rfl,
        fun _ _ hrest hls => spells_hex 3 n hrest hls, ?_⟩
      simp [render, hk, hvalue]
    | absent => exact absurd hv (by simp [hvalue, Value.Printable])
  obtain ⟨v, cs, hvalue, hwrites, hrender⟩ := hinside
  refine ⟨.bracketed (.leaf '[') v (.leaf ']'), ?_, ?_⟩
  · simp [OperandTree.operand, unlocated, moved, hvalue, hk]
  · rw [hrender]
    exact hwrites.brackets

/-- An operand that can be printed has a derivation that its written form spells. -/
theorem spelled_of_printable (h : o.Printable) : o.Spelled := by
  unfold Printable at h
  cases hk : o.kind <;> rw [hk] at h
  case index => exact spelled_of_keyword "I" (by rw [hk]; rfl) h
  case delayTimer => exact spelled_of_keyword "DT" (by rw [hk]; rfl) h
  case soundTimer => exact spelled_of_keyword "ST" (by rw [hk]; rfl) h
  case bcd => exact spelled_of_keyword "B" (by rw [hk]; rfl) h
  case key => exact spelled_of_keyword "K" (by rw [hk]; rfl) h
  case flags => exact spelled_of_keyword "F" (by rw [hk]; rfl) h
  case register =>
    exact spelled_of_marked (c := '@') (by simp [hk, marks]) (by decide) h
      (by simp [render, hk])
  case address => exact spelled_of_bracketed hk h
  case byte => exact spelled_of_plain hk h
  case nibble =>
    exact spelled_of_marked (c := '!') (by simp [hk, marks]) (by decide) h
      (by simp [render, hk])
  case indexAddress => exact spelled_of_indexAddress hk h

end Operand

/-! ### Statements -/

namespace OperandsTree

/-- One operand, and others behind it. -/
theorem exists_list_of_printable : ∀ {o : Operand} {os : List Operand},
    (∀ o' ∈ o :: os, o'.Printable) → ∃ first more,
      (list first more).operands.map Operand.unlocated = (o :: os).map Operand.unlocated ∧
        Writes (", ".intercalate ((o :: os).map Operand.render)).toList (list first more).tokens
  | o, [], h => by
    obtain ⟨first, hfirst, hwrites⟩ := Operand.spelled_of_printable (h o List.mem_cons_self)
    refine ⟨first, [], by rw [operands, List.map_nil, List.map_singleton, hfirst]; rfl, ?_⟩
    rw [tokens, moreTokens, List.flatMap_nil, List.append_nil]
    simpa using hwrites
  | o, o' :: os, h => by
    obtain ⟨ho, hos⟩ := List.forall_mem_cons.mp h
    obtain ⟨first, hfirst, hwrites⟩ := Operand.spelled_of_printable ho
    obtain ⟨second, more, hmore, hrest⟩ := exists_list_of_printable hos
    have hrender : (", ".intercalate ((o :: o' :: os).map Operand.render)).toList =
        o.render.toList ++
          ',' :: ' ' :: (", ".intercalate ((o' :: os).map Operand.render)).toList :=
      toList_intercalate_cons_cons ", " o.render o'.render (os.map Operand.render)
    refine ⟨first, (.leaf ',', second) :: more, ?_, ?_⟩
    · rw [operands, List.map_cons, List.map_cons, hfirst]
      exact congrArg _ hmore
    · have hsecond := (hrest.blank (by decide : isBlank ' ' = true)).symbol
        (t := (Token.Symbol.leaf ',').val) (by decide) rfl
      rw [hrender]
      exact hwrites.append (cut_cons (by decide) _) hsecond

theorem exists_tree_of_printable {os : List Operand} (h : ∀ o ∈ os, o.Printable) :
    ∃ tree : OperandsTree, tree.operands.map Operand.unlocated = os.map Operand.unlocated ∧
      Cut (Statement.renderOperands os).toList ∧
      Writes (Statement.renderOperands os).toList tree.tokens := by
  cases os with
  | nil => exact ⟨.empty, rfl, cut_nil, writes_nil⟩
  | cons o os =>
    obtain ⟨first, more, hoperands, hwrites⟩ := exists_list_of_printable h
    have hrender : (Statement.renderOperands (o :: os)).toList =
        ' ' :: (", ".intercalate ((o :: os).map Operand.render)).toList := by
      rw [Statement.renderOperands, String.toList_append]
      · rfl
      · simp
    rw [hrender]
    exact ⟨_, hoperands, cut_cons (by decide) _, hwrites.blank (by decide)⟩

end OperandsTree

/-- A statement that can be printed has a derivation that its written form spells. -/
theorem Statement.exists_tree_of_printable {s : Statement} (h : s.Printable) :
    ∃ tree : StatementTree, tree.statement.unlocated = s.unlocated ∧
      Writes s.render.toList tree.tokens := by
  cases s with
  | label name p =>
    obtain ⟨t, rfl, hname⟩ := IsName.exists_leaf h
    refine ⟨.label t (.leaf ':'), rfl, ?_⟩
    rw [render, String.toList_append]
    exact hname.append (cut_cons (by decide) []) (writes_nil.symbol (by decide) rfl)
  | instruction m os p =>
    obtain ⟨hm, hos⟩ := h
    obtain ⟨tree, hoperands, hcut, hwrites⟩ := OperandsTree.exists_tree_of_printable hos
    have hk : Token.Kind.ofWord m = .mnemonic := Token.Kind.ofWord_eq_mnemonic_iff.mpr hm
    refine ⟨.instruction ⟨Lexeme.leaf ⟨.ofWord m, m⟩, hk⟩ tree, ?_, ?_⟩
    · exact congrArg (instruction m · (.start "")) hoperands
    · rw [render, String.toList_append]
      exact (writes_word (isWord_of_mem_mnemonics m hm) rfl).append hcut hwrites
  | directive name os p =>
    obtain ⟨hname, hos⟩ := h
    obtain ⟨t, rfl, hname⟩ := IsName.exists_leaf hname
    obtain ⟨tree, hoperands, hcut, hwrites⟩ := OperandsTree.exists_tree_of_printable hos
    refine ⟨.directive (.leaf '.') t tree, ?_, ?_⟩
    · exact congrArg (directive t.val.text · (.start "")) hoperands
    · rw [render, String.toList_append, String.toList_append, List.append_assoc]
      exact (hname.append hcut hwrites).symbol (by decide) rfl

/-! ### Programs -/

namespace Program

/-- A program that can be printed has a derivation that its written form spells. -/
theorem exists_tree_of_printable : ∀ {ss : List Statement}, (∀ s ∈ ss, s.Printable) →
    ∃ T : ProgramTree, T.program.map Statement.unlocated = ss.map Statement.unlocated ∧
      Writes (print ss).toList T.tokens
  | [], _ => ⟨[], rfl, writes_nil⟩
  | [s], h => by
    obtain ⟨tree, htree, hwrites⟩ := Statement.exists_tree_of_printable (h s List.mem_cons_self)
    refine ⟨[tree], congrArg (fun s => [s]) htree, ?_⟩
    simpa [print, ProgramTree.tokens] using hwrites
  | s :: s' :: ss, h => by
    obtain ⟨hs, hss⟩ := List.forall_mem_cons.mp h
    obtain ⟨tree, htree, hwrites⟩ := Statement.exists_tree_of_printable hs
    obtain ⟨T, hT, hrest⟩ := exists_tree_of_printable hss
    have hprint : (print (s :: s' :: ss)).toList =
        s.render.toList ++ '\n' :: (print (s' :: ss)).toList :=
      toList_intercalate_cons_cons "\n" s.render s'.render (ss.map Statement.render)
    refine ⟨tree :: T, ?_, ?_⟩
    · rw [ProgramTree.program, List.map_cons, List.map_cons, List.map_cons, htree]
      exact congrArg _ hT
    · rw [hprint]
      exact hwrites.append (cut_cons (by decide) _) (hrest.blank (by decide))

/-- **A program that can be printed is read back**, at other positions. -/
theorem exists_reads_print {ss : List Statement} (h : ∀ s ∈ ss, s.Printable) (source : String) :
    ∃ program, Reads source (print ss) program ∧
      program.map Statement.unlocated = ss.map Statement.unlocated := by
  obtain ⟨T, hT, hwrites⟩ := exists_tree_of_printable h
  obtain ⟨ts, hscan, hlexemes⟩ := hwrites.spells (.start source)
  have htokens := (Token.result_tokenize source (print ss)).trans hscan
  -- The tokens before the end say what the leaves of the derivation say.
  have hsame : (body ts).map Token.toLexeme = T.tokens.map Token.toLexeme := by
    obtain ⟨us, e, rfl, hus, he⟩ := List.map_eq_append_iff.mp hlexemes
    obtain ⟨e, rfl, hend⟩ := List.map_eq_singleton_iff.mp he
    have hkinds : ∀ t ∈ us, t.kind ≠ .endOfInput := by
      intro t ht
      have hmem : t.toLexeme ∈ T.tokens.map Token.toLexeme := hus ▸ List.mem_map_of_mem ht
      obtain ⟨leaf, hleaf, hl⟩ := List.mem_map.mp hmem
      rw [← hl]
      exact T.kind_ne_endOfInput leaf hleaf
    rw [body_concat hkinds (congrArg Lexeme.kind hend), hus]
  have hread := Statement.result_readAll_of_same_lexemes (stop ts) hsame
  rw [T.readAll_tokens] at hread
  obtain ⟨program, hprogram, hmoved⟩ := relocate_eq_ok_iff.mp hread
  exact ⟨program, ⟨ts, htokens, hprogram⟩, hmoved.trans hT⟩

end Program

end Chip8
