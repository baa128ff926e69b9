/-
# Giving addresses

The first pass over a program walks it with a layout: every statement gets the
cursor as its address, and then moves the cursor behind itself. A label binds
its name, an instruction takes two bytes, `.db` one byte for each operand, and
`.org` moves the cursor to its operand, cut to 12 bits.

The layout is changed step by step (`Layout.Step`), and what a step has changed
stays changed if a later one meets with a fault.

Noted on the way: a label that was bound before, an `.org` that is cut, and an
`.org` that goes back.

Key definitions: `Directive`, `Directive.originOf`, `Layout.Step`, `Statement.place`,
`Program.place`, `Layout.place`, `Layout.placeAll`.
Key theorems: `Step.bind_ok`, `Step.bind_error`, `placeAll_nil`, `placeAll_ok`, `placeAll_error`.
-/
import Chip8.Outcome
import Chip8.Layout.Basic

namespace Chip8

/-- The directives that mean something. -/
inductive Directive where
  | org
  | db
deriving DecidableEq

namespace Directive

/-- The directive with a name. -/
def ofName? : String → Option Directive
  | "org" => some org
  | "db" => some db
  | _ => none

/-- The address that the operands of an `.org` at `position` give: there has to
be one operand, an address or byte that is a number. -/
def originOf (position : Position) : List Operand → Except Fault UInt32
  | [o] =>
    if o.kind = .address ∨ o.kind = .byte then
      match o.value with
      | .number n => .ok n
      | .name x => .error ⟨o.position, .originName x⟩
      | .absent => .error ⟨o.position, .originAbsent⟩
    else .error ⟨position, .originShape⟩
  | _ => .error ⟨position, .originShape⟩

end Directive

/-- A step over a layout: the layout it leaves, also where it meets with a fault, and what comes of
it. -/
def Layout.Step (α : Type) : Type := Layout → Layout × Outcome α

namespace Layout.Step

variable {α β : Type}

/-- A step that leaves the layout as it is. -/
def ofOutcome (x : Outcome α) : Step α := fun l => (l, x)

/-- The second step goes on from the layout that the first one leaves, if that has a value. -/
protected def bind (x : Step α) (f : α → Step β) : Step β := fun l =>
  match x l with
  | (l', ⟨ns, .error e⟩) => (l', ⟨ns, .error e⟩)
  | (l', ⟨ns, .ok a⟩) =>
    let (l'', y) := f a l'
    (l'', ⟨ns ++ y.notices, y.result⟩)

instance : Monad Step where
  pure a := ofOutcome (pure a)
  bind := Step.bind

/-- Notices and nothing else. -/
def note (ns : List Notice) : Step Unit := ofOutcome ⟨ns, .ok ()⟩

/-- A fault and nothing else. -/
def fail (f : Fault) : Step α := ofOutcome (.fail f)

/-- The cursor. -/
def cursor : Step UInt32 := fun l => (l, pure l.cursor)

/-- Moves the cursor on. -/
def advance (count : UInt32) : Step Unit := fun l => (l.advance count, pure ())

/-- Moves the cursor to an address. -/
def moveTo (address : UInt32) : Step Unit := fun l => (l.moveTo address, pure ())

/-- Binds a name to the cursor, and tells what it was bound to. -/
def define (name : String) : Step (Option UInt32) := fun l =>
  let (previous, after) := l.define name
  (after, pure previous)

end Layout.Step

open Layout in
/-- Places a statement at the cursor, and moves behind it. -/
def Statement.place : Statement → Step Unit
  | .label name position => do
    let previous ← Step.define name
    Step.note (previous.map (.redefined position name)).toList
  | .instruction _ _ _ => Step.advance 2
  | .directive name operands position =>
    match Directive.ofName? name with
    | some .org => do
      let n ← Step.ofOutcome (.ofExcept (Directive.originOf position operands))
      Step.note (if 0xFFF < n then [.originCut position n] else [])
      let address := n % 0x1000
      let cursor ← Step.cursor
      Step.note (if address < cursor then [.originBack position cursor address] else [])
      Step.moveTo address
    | some .db =>
      if operands = [] then Step.fail ⟨position, .dataEmpty⟩
      else Step.advance (UInt32.ofNat operands.length)
    | none => Step.fail ⟨position, .unknownDirective name⟩

/-- Places statements one behind another, and gives their addresses. -/
def Program.place : List Statement → Layout.Step (List UInt32)
  | [] => return []
  | s :: ss => do
    let address ← Layout.Step.cursor
    s.place
    let addresses ← Program.place ss
    return address :: addresses

namespace Layout

/-- What placing a statement leaves of a layout, and what comes of it. -/
def place (l : Layout) (s : Statement) : Layout × Outcome Unit := s.place l

/-- What placing a program leaves of a layout, and the addresses of its statements. -/
def placeAll (l : Layout) (ss : List Statement) : Layout × Outcome (List UInt32) :=
  Program.place ss l

/-- What is noted of an `.org` that moves the cursor from an address to `n`. -/
def originNotices (position : Position) (address n : UInt32) : List Notice :=
  (if 0xFFF < n then [.originCut position n] else []) ++
    (if n % 0x1000 < address then [.originBack position address (n % 0x1000)] else [])

/-! ### Steps one behind another -/

namespace Step

variable {α β : Type} {x : Step α} {l l' : Layout} {ns : List Notice}

theorem pure_apply (a : α) (l : Layout) : (pure a : Step α) l = (l, ⟨[], .ok a⟩) := rfl

/-- Behind a value the second step goes on. -/
theorem bind_ok {a : α} (h : x l = (l', ⟨ns, .ok a⟩)) (f : α → Step β) :
    (x >>= f) l = ((f a l').1, ⟨ns ++ (f a l').2.notices, (f a l').2.result⟩) := by
  change Step.bind x f l = _
  rw [Step.bind, h]

/-- What a step has changed stays changed where it meets with a fault. -/
theorem bind_error {e : Fault} (h : x l = (l', ⟨ns, .error e⟩)) (f : α → Step β) :
    (x >>= f) l = (l', ⟨ns, .error e⟩) := by
  change Step.bind x f l = _
  rw [Step.bind, h]

end Step

/-! ### One statement -/

theorem place_label (l : Layout) (name : String) (p : Position) :
    l.place (.label name p) =
      ((l.define name).2, ⟨((l.get? name).map (.redefined p name)).toList, .ok ()⟩) := by
  have hdefine : Step.define name l = ((l.define name).2, ⟨[], .ok (l.get? name)⟩) := rfl
  exact Step.bind_ok hdefine _

theorem place_instruction (l : Layout) (m : String) (os : List Operand) (p : Position) :
    l.place (.instruction m os p) = (l.advance 2, pure ()) := rfl

section

variable {os : List Operand} {p : Position} (l : Layout)

theorem place_origin {n : UInt32} (h : Directive.originOf p os = .ok n) :
    l.place (.directive "org" os p) =
      (l.moveTo (n % 0x1000), ⟨originNotices p l.cursor n, .ok ()⟩) := by
  have hn : Step.ofOutcome (.ofExcept (Directive.originOf p os)) l = (l, ⟨[], .ok n⟩) := by
    rw [h]
    rfl
  refine (Step.bind_ok hn _).trans ?_
  rw [originNotices, ← List.append_nil (if n % 0x1000 < l.cursor then _ else _)]
  rfl

theorem place_origin_error {f : Fault} (h : Directive.originOf p os = .error f) :
    l.place (.directive "org" os p) = (l, .fail f) := by
  have hf : Step.ofOutcome (.ofExcept (Directive.originOf p os)) l = (l, ⟨[], .error f⟩) := by
    rw [h]
    rfl
  exact Step.bind_error hf _

theorem place_data (h : os ≠ []) :
    l.place (.directive "db" os p) = (l.advance (UInt32.ofNat os.length), pure ()) :=
  congrFun (if_neg h) l

theorem place_data_error : l.place (.directive "db" [] p) = (l, .fail ⟨p, .dataEmpty⟩) := rfl

theorem place_unknown {name : String} (h : Directive.ofName? name = none) :
    l.place (.directive name os p) = (l, .fail ⟨p, .unknownDirective name⟩) := by
  rw [place, Statement.place, h]
  rfl

end

/-! ### A whole program -/

theorem placeAll_nil (l : Layout) : l.placeAll [] = (l, pure []) := rfl

variable {l : Layout} {s : Statement}

/-- The walk ends at a statement that cannot be placed, with what this leaves. -/
theorem placeAll_error {f : Fault} (h : (l.place s).2.result = .error f) (ss : List Statement) :
    l.placeAll (s :: ss) = ((l.place s).1, ⟨(l.place s).2.notices, .error f⟩) := by
  have hs : s.place l = ((l.place s).1, ⟨(l.place s).2.notices, .error f⟩) := by
    rw [← h]
    rfl
  refine (Step.bind_ok (x := Step.cursor) rfl _).trans ?_
  rw [Step.bind_error hs]
  rfl

/-- The walk goes on behind a statement that is placed. -/
theorem placeAll_ok (h : (l.place s).2.result = .ok ()) (ss : List Statement) :
    l.placeAll (s :: ss) =
      (((l.place s).1.placeAll ss).1,
        ⟨(l.place s).2.notices ++ ((l.place s).1.placeAll ss).2.notices,
          ((l.place s).1.placeAll ss).2.result.map (l.cursor :: ·)⟩) := by
  have hs : s.place l = ((l.place s).1, ⟨(l.place s).2.notices, .ok ()⟩) := by
    rw [← h]
    rfl
  have hrest : Program.place ss (l.place s).1 = (l.place s).1.placeAll ss := rfl
  refine (Step.bind_ok (x := Step.cursor) rfl _).trans ?_
  rw [Step.bind_ok hs]
  cases hr : ((l.place s).1.placeAll ss).2.result with
  | error f =>
    rw [Step.bind_error (hrest.trans (Prod.ext rfl (Outcome.ext rfl hr)))]
    rfl
  | ok addresses =>
    rw [Step.bind_ok (hrest.trans (Prod.ext rfl (Outcome.ext rfl hr)))]
    simp [Step.pure_apply, Except.map]

end Layout
end Chip8
