/-
# Where statements and operands begin

A statement, and an operand, stands where the first leaf of its derivation does. These
leaves, statement by statement with the operands of each behind it, are in the order
of the text (`ProgramTree.leading_sublist`): every statement begins at a leaf of its
own, in front of the leaves of its operands.

Key definitions: `Statement.positions`, `Program.positions`, `StatementTree.operandTrees`,
`ProgramTree.leading`.
Key theorems: `ProgramTree.map_position_leading`, `ProgramTree.leading_sublist`.
-/
import Mathlib.Data.List.Flatten
import Chip8.Proofs.Grammar.Tree

namespace Chip8

/-- Where a statement and its operands stand. -/
def Statement.positions (s : Statement) : List Position :=
  s.position :: s.operands.map Operand.position

/-- Where the statements of a program and their operands stand, in the order of the program. -/
def Program.positions (program : List Statement) : List Position :=
  program.flatMap Statement.positions

/-- The derivations of the operands. -/
def OperandsTree.trees : OperandsTree → List OperandTree
  | empty => []
  | list first more => first :: more.map Prod.snd

/-- The derivations of the operands of a statement. -/
def StatementTree.operandTrees : StatementTree → List OperandTree
  | label _ _ => []
  | instruction _ os => os.trees
  | directive _ _ os => os.trees

/-- The first leaf of a statement, and those of its operands. -/
def StatementTree.leading (s : StatementTree) : List Token :=
  s.tokens.take 1 ++ s.operandTrees.flatMap fun o => o.tokens.take 1

/-- The first leaves of all statements, and behind each those of its operands. -/
def ProgramTree.leading (T : ProgramTree) : List Token := T.flatMap StatementTree.leading

/-! ### They stand there -/

theorem OperandTree.map_position_take (o : OperandTree) :
    (o.tokens.take 1).map Token.position = [o.operand.position] := by
  cases o <;> rfl

theorem StatementTree.map_position_take (s : StatementTree) :
    (s.tokens.take 1).map Token.position = [s.statement.position] := by
  cases s <;> rfl

theorem StatementTree.map_operand_operandTrees (s : StatementTree) :
    s.operandTrees.map OperandTree.operand = s.statement.operands := by
  have hlist (os : OperandsTree) : os.trees.map OperandTree.operand = os.operands := by
    cases os with
    | empty => rfl
    | list first more => simp [OperandsTree.trees, OperandsTree.operands]
  cases s with
  | label name colon => rfl
  | instruction mnemonic os => exact hlist os
  | directive dot name os => exact hlist os

theorem StatementTree.map_position_leading (s : StatementTree) :
    s.leading.map Token.position = s.statement.positions := by
  have hoperands : (s.operandTrees.flatMap fun o => o.tokens.take 1).map Token.position =
      s.statement.operands.map Operand.position := by
    rw [List.map_flatMap, ← map_operand_operandTrees, List.map_map, List.map_eq_flatMap]
    simp only [OperandTree.map_position_take, Function.comp_apply]
  rw [leading, List.map_append, map_position_take, hoperands]
  rfl

/-- Statements and operands stand where their first leaves do. -/
theorem ProgramTree.map_position_leading (T : ProgramTree) :
    T.leading.map Token.position = Program.positions T.program := by
  rw [leading, List.map_flatMap, Program.positions, program, List.flatMap_map]
  simp only [StatementTree.map_position_leading]

/-! ### In the order of the text -/

theorem OperandsTree.flatMap_take_sublist (os : OperandsTree) :
    (os.trees.flatMap fun o => o.tokens.take 1).Sublist os.tokens := by
  have hfirst (o : OperandTree) : (o.tokens.take 1).Sublist o.tokens := List.take_sublist 1 _
  cases os with
  | empty => exact List.Sublist.refl []
  | list first more =>
    rw [trees, tokens, List.flatMap_cons, moreTokens, List.flatMap_map]
    refine (hfirst first).append (List.Sublist.flatMap_right more fun m _ => ?_)
    exact (hfirst m.2).trans (List.sublist_cons_self m.1.val m.2.tokens)

theorem StatementTree.leading_sublist (s : StatementTree) : s.leading.Sublist s.tokens := by
  cases s with
  | label name colon => exact List.take_sublist 1 [name.val, colon.val]
  | instruction mnemonic os => exact os.flatMap_take_sublist.cons_cons mnemonic.val
  | directive dot name os =>
    exact (os.flatMap_take_sublist.trans (List.sublist_cons_self name.val _)).cons_cons dot.val

/-- The first leaves follow one another as the statements and operands do. -/
theorem ProgramTree.leading_sublist (T : ProgramTree) : T.leading.Sublist T.tokens :=
  List.Sublist.flatMap_right T fun s _ => s.leading_sublist

end Chip8
