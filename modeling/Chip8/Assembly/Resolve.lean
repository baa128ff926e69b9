/-
# Replacing names by addresses

The second pass replaces every operand that is a name by the address that the
name is bound to. It goes through the program operand by operand, and a name
without an address ends it: the operands before keep their new values, that
one and those behind stay as they were.

Key definitions: `replaceUntil`, `Operand.resolve`, `Statement.resolve`, `Program.resolve`.
Key theorems: `replaceUntil_append`, `length_replaceUntil`.
-/
import Chip8.Fault
import Chip8.Layout.Basic
import Chip8.Program.Statement

namespace Chip8

/-- Replaces the members of a list one after another, up to the first that
meets with a fault; the rest stays. -/
def replaceUntil {α ε : Type} (f : α → α × Option ε) : List α → List α × Option ε
  | [] => ([], none)
  | a :: as =>
    match f a with
    | (b, some e) => (b :: as, some e)
    | (b, none) =>
      let (bs, e) := replaceUntil f as
      (b :: bs, e)

theorem length_replaceUntil {α ε : Type} (f : α → α × Option ε) :
    ∀ as : List α, (replaceUntil f as).1.length = as.length
  | [] => rfl
  | a :: as => by
    unfold replaceUntil
    split
    · rfl
    · simp [length_replaceUntil f as]

/-- Without a fault in the first part, the second part is replaced too. -/
theorem replaceUntil_append {α ε : Type} {f : α → α × Option ε} :
    ∀ {as bs : List α}, (replaceUntil f as).2 = none →
      replaceUntil f (as ++ bs) =
        ((replaceUntil f as).1 ++ (replaceUntil f bs).1, (replaceUntil f bs).2)
  | [], _, _ => rfl
  | a :: as, bs, h => by
    rcases hf : f a with ⟨b, _ | e⟩
    · simp only [replaceUntil, hf] at h
      simp [replaceUntil, hf, replaceUntil_append h]
    · simp [replaceUntil, hf] at h

/-- An operand with its name replaced. -/
def Operand.resolve (symbols : Symbols) (o : Operand) : Operand × Option Fault :=
  match o.value with
  | .name x =>
    match symbols.get? x with
    | some address => ({ o with value := .number address }, none)
    | none => (o, some ⟨o.position, .unknownName x⟩)
  | _ => (o, none)

namespace Statement

/-- The statement with other operands; a label has none to change. -/
def withOperands : Statement → List Operand → Statement
  | label name position, _ => label name position
  | instruction mnemonic _ position, os => instruction mnemonic os position
  | directive name _ position, os => directive name os position

/-- A statement with the names in its operands replaced. -/
def resolve (symbols : Symbols) (s : Statement) : Statement × Option Fault :=
  let (os, e) := replaceUntil (Operand.resolve symbols) s.operands
  (s.withOperands os, e)

end Statement

/-- A program with the names in its operands replaced. -/
def Program.resolve (symbols : Symbols) (ss : List Statement) : List Statement × Option Fault :=
  replaceUntil (Statement.resolve symbols) ss

end Chip8
