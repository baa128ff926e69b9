/-
# The history of a layout

A layout changes by events: the cursor moves on, moves to an address, or is
given a name. A history is a row of events, and the layout behind it depends on
the moves and on the last binding of each name (`get?_after`).

Key definitions: `Layout.Event`, `Layout.after`, `Layout.replay`.
Key theorems: `replay_append`, `get?_after`, `cursor_after`.
-/
import Chip8.Layout.Basic

namespace Chip8
namespace Layout

/-- The events that change a layout. -/
inductive Event where
  | advance (count : UInt32)
  | moveTo (address : UInt32)
  | define (name : String)
deriving DecidableEq

/-- The layout behind an event. -/
def after (l : Layout) : Event → Layout
  | .advance count => l.advance count
  | .moveTo address => l.moveTo address
  | .define name => (l.define name).2

/-- The layout behind a history. -/
def replay (l : Layout) (es : List Event) : Layout := es.foldl after l

theorem replay_nil (l : Layout) : l.replay [] = l := rfl

theorem replay_cons (l : Layout) (e : Event) (es : List Event) :
    l.replay (e :: es) = (l.after e).replay es := rfl

/-- A history can be cut anywhere. -/
theorem replay_append (l : Layout) (es fs : List Event) :
    l.replay (es ++ fs) = (l.replay es).replay fs := List.foldl_append

/-- Only the binding of a name changes what the name is bound to. -/
theorem get?_after (l : Layout) (e : Event) (name : String) :
    (l.after e).get? name = if e = .define name then some l.cursor else l.get? name := by
  cases e with
  | advance count => rfl
  | moveTo address => rfl
  | define other => simp [after, get?_define, eq_comm]

/-- Only moves change the cursor. -/
theorem cursor_after (l : Layout) (e : Event) :
    (l.after e).cursor = match e with
      | .advance count => l.cursor + count
      | .moveTo address => address
      | .define _ => l.cursor := by
  cases e <;> rfl

end Layout
end Chip8
