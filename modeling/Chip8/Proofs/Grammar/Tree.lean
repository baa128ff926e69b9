/-
# Derivations

The grammar of a program, as trees. A tree of this module is a derivation: its
leaves are tokens that are what the grammar asks for in their place, so a tree
that breaks a rule cannot be built. A tree has a row of tokens, its leaves from
left to right, and stands for a value, an operand or a statement.

    program    statement ...
    statement  identifier ':'  |  mnemonic operands  |  '.' identifier operands
    operands   nothing  |  operand (',' operand) ...
    operand    '[' 'I' ']'  |  '[' value ']'  |  '&' value  |  '@' value  |  '!' value
            |  keyword  |  value
    value      identifier  |  number

No rule ends a statement, so the operands of one could run into the next. That
they do not is a fact about what programs begin with (`closes_tokens`): neither
an operand, nor a comma, nor a colon. From it follows that a row of tokens has
at most one derivation (`ProgramTree.tokens_injective`).

Key definitions: `ValueTree`, `OperandTree`, `OperandsTree`, `StatementTree`,
`ProgramTree`, `Closes`.
Key theorems: `closes_tokens`, `ProgramTree.kind_ne_endOfInput`, `OperandTree.tokens_append_inj`,
`ProgramTree.tokens_injective`.
-/
import Mathlib.Data.Subtype
import Chip8.Program.Read

namespace Chip8

namespace Token

/-- A token of a kind. -/
abbrev OfKind (kind : Kind) := { t : Token // t.kind = kind }

/-- A token that is the symbol `c`. -/
abbrev Symbol (c : Char) := { t : Token // t.isSymbol c = true }

/-- A token that is the name of the special register `word`. -/
abbrev Register (word : String) := { t : Token // t.isKeyword word = true }

end Token

/-- The marks in front of a value, and the kind of operand each makes of it. -/
def Operand.marks : List (Char × Operand.Kind) :=
  [('&', .address), ('@', .register), ('!', .nibble)]

/-- A derivation of a value. -/
inductive ValueTree where
  | name (t : Token.OfKind .identifier)
  | number (n : UInt32) (t : Token.OfKind (.number n))

/-- A derivation of an operand. -/
inductive OperandTree where
  | indexed (opening : Token.Symbol '[') (register : Token.Register "I")
      (closing : Token.Symbol ']')
  | bracketed (opening : Token.Symbol '[') (value : ValueTree) (closing : Token.Symbol ']')
  | marked (c : Char) (kind : Operand.Kind) (known : (c, kind) ∈ Operand.marks)
      (mark : Token.Symbol c) (value : ValueTree)
  | keyword (kind : Operand.Kind) (t : Token.OfKind .keyword)
      (known : Operand.Kind.ofKeyword? t.val.text = some kind)
  | plain (value : ValueTree)

/-- A derivation of the operands of a statement. -/
inductive OperandsTree where
  | empty
  | list (first : OperandTree) (more : List (Token.Symbol ',' × OperandTree))

/-- A derivation of a statement. -/
inductive StatementTree where
  | label (name : Token.OfKind .identifier) (colon : Token.Symbol ':')
  | instruction (mnemonic : Token.OfKind .mnemonic) (operands : OperandsTree)
  | directive (dot : Token.Symbol '.') (name : Token.OfKind .identifier) (operands : OperandsTree)

/-- A derivation of a program. -/
abbrev ProgramTree := List StatementTree

/-! ### The leaves of a tree, and what it stands for -/

namespace ValueTree

/-- The one leaf. -/
def token : ValueTree → Token
  | name t => t.val
  | number _ t => t.val

/-- The value that is derived. -/
def value : ValueTree → Value
  | name t => .name t.val.text
  | number n _ => .number n

end ValueTree

namespace OperandTree

/-- The leaves. -/
def tokens : OperandTree → List Token
  | indexed opening register closing => [opening.val, register.val, closing.val]
  | bracketed opening v closing => [opening.val, v.token, closing.val]
  | marked _ _ _ mark v => [mark.val, v.token]
  | keyword _ t _ => [t.val]
  | plain v => [v.token]

/-- The operand that is derived; it stands where its first leaf does. -/
def operand : OperandTree → Operand
  | indexed opening _ _ => ⟨.indexAddress, .absent, opening.val.position⟩
  | bracketed opening v _ => ⟨.address, v.value, opening.val.position⟩
  | marked _ kind _ mark v => ⟨kind, v.value, mark.val.position⟩
  | keyword kind t _ => ⟨kind, .absent, t.val.position⟩
  | plain v => ⟨.byte, v.value, v.token.position⟩

end OperandTree

namespace OperandsTree

/-- The leaves behind the first operand. -/
def moreTokens (more : List (Token.Symbol ',' × OperandTree)) : List Token :=
  more.flatMap fun (comma, o) => comma.val :: o.tokens

/-- The leaves. -/
def tokens : OperandsTree → List Token
  | empty => []
  | list first more => first.tokens ++ moreTokens more

/-- The operands that are derived. -/
def operands : OperandsTree → List Operand
  | empty => []
  | list first more => first.operand :: more.map fun (_, o) => o.operand

end OperandsTree

namespace StatementTree

/-- The leaves. -/
def tokens : StatementTree → List Token
  | label name colon => [name.val, colon.val]
  | instruction mnemonic os => mnemonic.val :: os.tokens
  | directive dot name os => dot.val :: name.val :: os.tokens

/-- The statement that is derived; it stands where its first leaf does. -/
def statement : StatementTree → Statement
  | label name _ => .label name.val.text name.val.position
  | instruction mnemonic os => .instruction mnemonic.val.text os.operands mnemonic.val.position
  | directive dot name os => .directive name.val.text os.operands dot.val.position

end StatementTree

namespace ProgramTree

/-- The leaves. -/
def tokens (T : ProgramTree) : List Token := T.flatMap StatementTree.tokens

/-- The program that is derived. -/
def program (T : ProgramTree) : List Statement := T.map StatementTree.statement

end ProgramTree

/-! ### What a row of tokens begins with -/

theorem Lexeme.kind_of_isSymbol {l : Lexeme} {c : Char} (h : l.isSymbol c = true) :
    l.kind = .symbol := (symbol?_eq_some_iff.mp (isSymbol_iff.mp h)).1

/-- A token is one symbol only. -/
theorem Lexeme.isSymbol_eq_false {l : Lexeme} {c d : Char} (h : l.isSymbol c = true) (hne : c ≠ d) :
    l.isSymbol d = false := by
  rw [← Bool.not_eq_true, isSymbol_iff, isSymbol_iff.mp h, Option.some.injEq]
  exact hne

theorem Lexeme.isSymbol_eq_false_of_kind {l : Lexeme} (h : l.kind ≠ .symbol) (c : Char) :
    l.isSymbol c = false := by
  rw [← Bool.not_eq_true]
  exact fun hs => h (kind_of_isSymbol hs)

/-- The marks that the reader knows are those of the grammar. -/
theorem Operand.Kind.ofMark?_eq_some_iff {c : Char} {kind : Operand.Kind} :
    ofMark? c = some kind ↔ (c, kind) ∈ Operand.marks := by
  unfold ofMark?
  split <;> simp_all [Operand.marks, eq_comm]

theorem ValueTree.isSymbol_token (v : ValueTree) (c : Char) : v.token.isSymbol c = false := by
  apply Lexeme.isSymbol_eq_false_of_kind
  cases v with
  | name t => simp [token, t.property]
  | number n t => simp [token, t.property]

/-- What may stand behind the operands of a statement: neither an operand, nor a comma
that would bring one, nor a colon that would make a label of the last one. -/
structure Closes (ts : List Token) : Prop where
  not_operand : Operand.isNext ts = false
  not_comma : ∀ t ∈ ts.head?, t.isSymbol ',' = false
  not_colon : ∀ t ∈ ts.head?, t.isSymbol ':' = false

theorem StatementTree.closes_tokens_append (s : StatementTree) (ts : List Token) :
    Closes (s.tokens ++ ts) := by
  cases s with
  | label name colon =>
    have hs := Lexeme.isSymbol_eq_false_of_kind (l := name.val.toLexeme) (by simp [name.property])
    refine ⟨?_, ?_, ?_⟩
    · simp [tokens, Operand.isNext, name.property, colon.property]
    · simp [tokens, hs]
    · simp [tokens, hs]
  | instruction mnemonic os =>
    have hs := Lexeme.isSymbol_eq_false_of_kind (l := mnemonic.val.toLexeme)
      (by simp [mnemonic.property])
    refine ⟨?_, ?_, ?_⟩
    · simp [tokens, Operand.isNext, mnemonic.property]
    · simp [tokens, hs]
    · simp [tokens, hs]
  | directive dot name os =>
    have hdot := Lexeme.isSymbol_iff.mp dot.property
    have hs : ∀ c, '.' ≠ c → dot.val.isSymbol c = false := fun c =>
      Lexeme.isSymbol_eq_false dot.property
    refine ⟨?_, ?_, ?_⟩
    · simp [tokens, Operand.isNext, Lexeme.kind_of_isSymbol dot.property, hs, hdot,
        Operand.Kind.ofMark?]
    · simp [tokens, hs]
    · simp [tokens, hs]

/-- A program may stand behind the operands of a statement. -/
theorem closes_tokens (T : ProgramTree) : Closes T.tokens := by
  cases T with
  | nil => exact ⟨rfl, by simp [ProgramTree.tokens], by simp [ProgramTree.tokens]⟩
  | cons s T => exact s.closes_tokens_append _

/-- An operand that no colon follows is seen as one. -/
theorem OperandTree.isNext_tokens_append (o : OperandTree) {ts : List Token}
    (h : ∀ t ∈ ts.head?, t.isSymbol ':' = false) : Operand.isNext (o.tokens ++ ts) = true := by
  have hnext : ∀ v : ValueTree, (∀ t ∈ ts.head?, t.isSymbol ':' = false) →
      Operand.isNext (v.token :: ts) = true := by
    intro v h
    cases v with
    | name t =>
      cases ts with
      | nil => simp [ValueTree.token, Operand.isNext, t.property]
      | cons u ts => simpa [ValueTree.token, Operand.isNext, t.property] using h
    | number n t => simp [ValueTree.token, Operand.isNext, t.property]
  cases o with
  | indexed opening register closing =>
    simp [tokens, Operand.isNext, Lexeme.kind_of_isSymbol opening.property, opening.property]
  | bracketed opening v closing =>
    simp [tokens, Operand.isNext, Lexeme.kind_of_isSymbol opening.property, opening.property]
  | marked c kind known mark v =>
    have hmark := Lexeme.isSymbol_iff.mp mark.property
    simp [tokens, Operand.isNext, Lexeme.kind_of_isSymbol mark.property, hmark,
      Operand.Kind.ofMark?_eq_some_iff.mpr known]
  | keyword kind t known => simp [tokens, Operand.isNext, t.property]
  | plain v => exact hnext v h

/-! ### The end of the input is no leaf -/

theorem ValueTree.kind_token_ne_endOfInput (v : ValueTree) : v.token.kind ≠ .endOfInput := by
  cases v with
  | name t => simp [token, t.property]
  | number n t => simp [token, t.property]

theorem OperandTree.kind_ne_endOfInput (o : OperandTree) :
    ∀ t ∈ o.tokens, t.kind ≠ .endOfInput := by
  have hsymbol := fun c (t : Token.Symbol c) => Lexeme.kind_of_isSymbol t.property
  cases o with
  | indexed opening register closing =>
    simp [tokens, hsymbol, (Lexeme.isKeyword_iff.mp register.property).1]
  | bracketed opening v closing => simp [tokens, hsymbol, v.kind_token_ne_endOfInput]
  | marked c kind known mark v => simp [tokens, hsymbol, v.kind_token_ne_endOfInput]
  | keyword kind t known => simp [tokens, t.property]
  | plain v => simp [tokens, v.kind_token_ne_endOfInput]

theorem OperandsTree.kind_ne_endOfInput (os : OperandsTree) :
    ∀ t ∈ os.tokens, t.kind ≠ .endOfInput := by
  cases os with
  | empty => nofun
  | list first more =>
    intro t ht
    rcases List.mem_append.mp ht with ht | ht
    · exact first.kind_ne_endOfInput t ht
    · obtain ⟨⟨comma, o⟩, -, hm⟩ := List.mem_flatMap.mp ht
      rcases List.mem_cons.mp hm with rfl | hm
      · simp [Lexeme.kind_of_isSymbol comma.property]
      · exact o.kind_ne_endOfInput t hm

theorem StatementTree.kind_ne_endOfInput (s : StatementTree) :
    ∀ t ∈ s.tokens, t.kind ≠ .endOfInput := by
  have hsymbol := fun c (t : Token.Symbol c) => Lexeme.kind_of_isSymbol t.property
  cases s with
  | label name colon => simp [tokens, name.property, hsymbol]
  | instruction mnemonic os =>
    exact List.forall_mem_cons.mpr ⟨by simp [mnemonic.property], os.kind_ne_endOfInput⟩
  | directive dot name os =>
    exact List.forall_mem_cons.mpr ⟨by simp [hsymbol],
      List.forall_mem_cons.mpr ⟨by simp [name.property], os.kind_ne_endOfInput⟩⟩

/-- The end of the input is no leaf. -/
theorem ProgramTree.kind_ne_endOfInput (T : ProgramTree) :
    ∀ t ∈ T.tokens, t.kind ≠ .endOfInput := by
  intro t ht
  obtain ⟨s, -, hs⟩ := List.mem_flatMap.mp ht
  exact s.kind_ne_endOfInput t hs

/-! ### A row of tokens has one derivation -/

theorem ValueTree.token_injective : ∀ {v v' : ValueTree}, v.token = v'.token → v = v'
  | name _, name _, h => congrArg name (Subtype.ext h)
  | name t, number _ t', h => by
    have hk := t.property.symm.trans ((congrArg (·.kind) h).trans t'.property)
    cases hk
  | number _ t, name t', h => by
    have hk := t.property.symm.trans ((congrArg (·.kind) h).trans t'.property)
    cases hk
  | number n t, number n' t', h => by
    have hk := t.property.symm.trans ((congrArg (·.kind) h).trans t'.property)
    cases hk
    exact congrArg (number n) (Subtype.ext h)

theorem ValueTree.kind_token_ne_keyword (v : ValueTree) : v.token.kind ≠ .keyword := by
  cases v with
  | name t => simp [token, t.property]
  | number n t => simp [token, t.property]

theorem Operand.ne_bracket_of_mem_marks : ∀ m ∈ marks, m.1 ≠ '[' := by decide

theorem Operand.eq_of_mem_marks : ∀ m ∈ marks, ∀ m' ∈ marks, m.1 = m'.1 → m = m' := by decide

/-- Operands are free of prefixes: where one ends is seen from its own tokens. -/
theorem OperandTree.tokens_append_inj {o o' : OperandTree} {ts ts' : List Token}
    (h : o.tokens ++ ts = o'.tokens ++ ts') : o = o' ∧ ts = ts' := by
  -- The first leaf tells the rules apart, and behind a bracket the second one does.
  have hsymbol := fun l c => @Lexeme.kind_of_isSymbol l c
  have hone := fun l c d => @Lexeme.isSymbol_eq_false l c d
  have hregister := fun l word => @Lexeme.isKeyword_iff l word
  have hvalue := ValueTree.isSymbol_token
  have hkeyword := ValueTree.kind_token_ne_keyword
  have hinj := fun v v' => @ValueTree.token_injective v v'
  have hbracket := Operand.ne_bracket_of_mem_marks
  have hmarks := Operand.eq_of_mem_marks
  cases o <;> cases o' <;>
    simp only [tokens, List.cons_append, List.nil_append, List.cons.injEq] at h <;> grind

namespace OperandsTree

theorem moreTokens_cons (comma : Token.Symbol ',') (o : OperandTree)
    (more : List (Token.Symbol ',' × OperandTree)) :
    moreTokens ((comma, o) :: more) = comma.val :: (o.tokens ++ moreTokens more) := rfl

/-- Where no comma follows, the operands behind commas end. -/
theorem moreTokens_append_inj {ts ts' : List Token} (hc : ∀ t ∈ ts.head?, t.isSymbol ',' = false)
    (hc' : ∀ t ∈ ts'.head?, t.isSymbol ',' = false) :
    ∀ {more more' : List (Token.Symbol ',' × OperandTree)},
      moreTokens more ++ ts = moreTokens more' ++ ts' → more = more' ∧ ts = ts'
  | [], [], h => ⟨rfl, h⟩
  | [], (comma, o) :: more', h => by
    have hh := hc comma.val (by
      simp only [moreTokens, List.flatMap_nil, List.nil_append] at h
      simp [h])
    simp [comma.property] at hh
  | (comma, o) :: more, [], h => by
    have hh := hc' comma.val (by simp [moreTokens] at h; simp [← h])
    simp [comma.property] at hh
  | (comma, o) :: more, (comma', o') :: more', h => by
    simp only [moreTokens_cons, List.cons_append, List.append_assoc, List.cons.injEq] at h
    obtain ⟨rfl, hrest⟩ := OperandTree.tokens_append_inj h.2
    obtain ⟨rfl, hts⟩ := moreTokens_append_inj hc hc' hrest
    exact ⟨by rw [Subtype.ext h.1], hts⟩

/-- Behind an operand stands a comma, or what stands behind all of them. -/
theorem not_colon_moreTokens_append {ts : List Token} (h : Closes ts)
    (more : List (Token.Symbol ',' × OperandTree)) :
    ∀ t ∈ (moreTokens more ++ ts).head?, t.isSymbol ':' = false := by
  cases more with
  | nil => exact h.not_colon
  | cons m more =>
    obtain ⟨comma, o⟩ := m
    simpa [moreTokens_cons] using Lexeme.isSymbol_eq_false comma.property (by decide : ',' ≠ ':')

theorem isNext_list_append {ts : List Token} (h : Closes ts) (o : OperandTree)
    (more : List (Token.Symbol ',' × OperandTree)) :
    Operand.isNext ((list o more).tokens ++ ts) = true := by
  rw [tokens, List.append_assoc]
  exact o.isNext_tokens_append (not_colon_moreTokens_append h more)

theorem tokens_append_inj {os os' : OperandsTree} {ts ts' : List Token} (hc : Closes ts)
    (hc' : Closes ts') (h : os.tokens ++ ts = os'.tokens ++ ts') : os = os' ∧ ts = ts' := by
  cases os with
  | empty =>
    cases os' with
    | empty => exact ⟨rfl, h⟩
    | list o' more' =>
      have hnext := isNext_list_append hc' o' more'
      rw [← h, tokens, List.nil_append, hc.not_operand] at hnext
      cases hnext
  | list o more =>
    cases os' with
    | empty =>
      have hnext := isNext_list_append hc o more
      rw [h, tokens, List.nil_append, hc'.not_operand] at hnext
      cases hnext
    | list o' more' =>
      simp only [tokens, List.append_assoc] at h
      obtain ⟨rfl, hmore⟩ := OperandTree.tokens_append_inj h
      obtain ⟨rfl, hts⟩ := moreTokens_append_inj hc.not_comma hc'.not_comma hmore
      exact ⟨rfl, hts⟩

end OperandsTree

theorem StatementTree.tokens_append_inj {s s' : StatementTree} {ts ts' : List Token}
    (hc : Closes ts) (hc' : Closes ts') (h : s.tokens ++ ts = s'.tokens ++ ts') :
    s = s' ∧ ts = ts' := by
  have hsymbol := fun l c => @Lexeme.kind_of_isSymbol l c
  have hoperands := fun os os' => @OperandsTree.tokens_append_inj os os' ts ts' hc hc'
  cases s <;> cases s' <;>
    simp only [tokens, List.cons_append, List.nil_append, List.cons.injEq] at h <;> grind

/-- A row of tokens has at most one derivation. -/
theorem ProgramTree.tokens_injective : ∀ {T T' : ProgramTree}, T.tokens = T'.tokens → T = T'
  | [], [], _ => rfl
  | [], s :: T, h => absurd h (by cases s <;> simp [tokens, StatementTree.tokens])
  | s :: T, [], h => absurd h (by cases s <;> simp [tokens, StatementTree.tokens])
  | s :: T, s' :: T', h => by
    obtain ⟨rfl, hT⟩ := StatementTree.tokens_append_inj (closes_tokens T) (closes_tokens T') h
    rw [tokens_injective hT]

end Chip8
