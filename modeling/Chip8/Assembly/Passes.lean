/-
# The passes, one by one

The three passes of an assembly can be run one by one, in any order and again,
over a workbench that holds the statements and the layout. A pass that meets
with a fault leaves on the workbench what it did before: placing the labels
before the statement at fault, resolving the operands before the name that is
not bound. Emitting changes nothing.

Key definitions: `Workbench`, `Pass`, `Product`, `Pass.run`, `Workbench.after`.
Key theorems: `after_append`.
-/
import Chip8.Assembly.Emit
import Chip8.Assembly.Resolve

namespace Chip8

/-- What the passes work on. -/
structure Workbench where
  statements : List Statement
  layout : Layout
deriving DecidableEq

/-- The passes of an assembly. -/
inductive Pass where
  | place
  | resolve
  | emit
deriving DecidableEq

/-- What a pass that meets with no fault yields. -/
inductive Product where
  | addresses (as : List UInt32)
  | resolved
  | code (bytes : List (List UInt8))
deriving DecidableEq

/-- Runs a pass: the workbench it leaves, and what came of it. -/
def Pass.run (b : Workbench) : Pass → Workbench × Outcome Product
  | .place =>
    let (layout, placed) := b.layout.placeAll b.statements
    ({ b with layout }, .addresses <$> placed)
  | .resolve =>
    let (statements, fault) := Program.resolve b.layout.symbols b.statements
    ({ b with statements },
      match fault with
      | some f => .fail f
      | none => pure .resolved)
  | .emit => (b, .code <$> Program.emit b.statements)

/-- The workbench behind a row of passes. -/
def Workbench.after (b : Workbench) (ps : List Pass) : Workbench :=
  ps.foldl (fun b p => (p.run b).1) b

theorem Workbench.after_append (b : Workbench) (ps qs : List Pass) :
    b.after (ps ++ qs) = (b.after ps).after qs := List.foldl_append

end Chip8
