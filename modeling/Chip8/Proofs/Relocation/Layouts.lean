/-
# Layouts from another origin

Let a program begin `d` bytes further on. Up to and with the first `.org` its statements are
`d` further on; behind that they stand where they stood, since an `.org` says itself
where it goes (`Program.drift`). A name drifts with its last label, wherever it is used
(`Program.NameDrifts`). To see this, a program is walked from both origins at once: the two
layouts stay that far apart (`Layout.Apart`) with every statement (`Apart.past`), and so all
along a program (`apart_pastAll`). All of this is modulo 2^32, as the cursor is.

Key definitions: `Statement.isOrigin`, `Program.drift`, `Program.NameDrifts`, `Symbols.Apart`,
`Layout.Apart`.
Key theorems: `Statement.next_add`, `Layout.Apart.past`, `Layout.apart_pastAll`,
`Program.getElem?_addresses`.
-/
import Mathlib.Data.List.Induction
import Chip8.Proofs.Assembly.Place

namespace Chip8

/-- The statement is an `.org`. -/
def Statement.isOrigin : Statement → Bool
  | directive "org" _ _ => true
  | _ => false

namespace Program

/-- How far a statement is moved by an origin that is moved by `d`, from the statements before it:
by `d`, unless one of them is an `.org`. -/
def drift (d : UInt32) (before : List Statement) : UInt32 :=
  if before.any Statement.isOrigin then 0 else d

/-- A name drifts as the last label of the program that bears it. -/
inductive NameDrifts (d : UInt32) : List Statement → String → UInt32 → Prop where
  | intro {before after : List Statement} {s : Statement} {x : String}
      (hlabel : s.label? = some x) (hlast : ∀ t ∈ after, t.label? ≠ some x) :
      NameDrifts d (before ++ s :: after) x (drift d before)

end Program

/-- Two tables bind the same names, and their addresses are as far apart as the names drift. -/
def Symbols.Apart (d : UInt32) (program : List Statement) (s t : Symbols) : Prop :=
  ∀ x, (s.get? x = none ∧ t.get? x = none) ∨
    ∃ address e, s.get? x = some address ∧ t.get? x = some (address + e) ∧
      Program.NameDrifts d program x e

/-- Two layouts behind the same statements are as far apart as these drift. -/
structure Layout.Apart (d : UInt32) (before : List Statement) (l k : Layout) : Prop where
  cursor : k.cursor = l.cursor + Program.drift d before
  symbols : l.symbols.Apart d before k.symbols

variable {d e address : UInt32} {before ss : List Statement} {s : Statement} {x : String}

/-! ### One statement -/

/-- An `.org` that can be placed says where it goes. -/
theorem Statement.isSome_origin? (h : s.Placeable) : s.origin?.isSome = s.isOrigin := by
  cases s with
  | label name p => rfl
  | instruction m os p => rfl
  | directive name os p =>
    rcases h with ⟨rfl, ⟨kind, value, p'⟩, n, rfl, -, hv⟩ | ⟨rfl, -⟩
    · cases hv
      rfl
    · rfl

/-- Behind an `.org` it makes no difference where that stood. -/
theorem Statement.next_add (h : s.Placeable) :
    s.next (address + e) = s.next address + if s.isOrigin then 0 else e := by
  rw [← isSome_origin? h, next, next]
  cases s.origin? with
  | some n => exact (UInt32.add_zero _).symm
  | none =>
    change address + e + UInt32.ofNat s.size = address + UInt32.ofNat s.size + e
    rw [UInt32.add_assoc, UInt32.add_comm e, UInt32.add_assoc]

namespace Program

theorem drift_concat : drift d (before ++ [s]) = if s.isOrigin then 0 else drift d before := by
  have hany : (before ++ [s]).any Statement.isOrigin =
      (before.any Statement.isOrigin || s.isOrigin) := by
    rw [List.any_append, List.any_cons, List.any_nil, Bool.or_false]
  rw [drift, drift, hany]
  cases s.isOrigin with
  | false => rw [Bool.or_false]; rfl
  | true => rw [Bool.or_true]; rfl

theorem NameDrifts.concat (h : NameDrifts d ss x e) (hs : s.label? ≠ some x) :
    NameDrifts d (ss ++ [s]) x e := by
  cases h with
  | @intro before after t _ hlabel hlast =>
    rw [List.append_assoc, List.cons_append]
    refine .intro hlabel fun u hu => ?_
    rcases List.mem_append.mp hu with hu | hu
    · exact hlast u hu
    · obtain rfl := List.mem_singleton.mp hu
      exact hs

end Program

namespace Layout

variable {l k : Layout}

theorem apart_start (origin d : UInt32) : Apart d [] (start origin) (start (origin + d)) :=
  ⟨rfl, fun _ => .inl ⟨rfl, rfl⟩⟩

/-- Layouts that are apart are so behind the next statement. -/
theorem Apart.past (h : Apart d before l k) (hs : s.Placeable) :
    Apart d (before ++ [s]) (l.past s) (k.past s) := by
  refine ⟨?_, fun x => ?_⟩
  · change s.next k.cursor = s.next l.cursor + _
    rw [h.cursor, Statement.next_add hs, Program.drift_concat]
  · change ((l.past s).get? x = none ∧ (k.past s).get? x = none) ∨ ∃ address e,
      (l.past s).get? x = some address ∧ (k.past s).get? x = some (address + e) ∧ _
    rw [get?_past, get?_past]
    by_cases hx : s.label? = some x
    · rw [if_pos hx, if_pos hx, h.cursor]
      exact .inr ⟨_, _, rfl, rfl, .intro hx nofun⟩
    · rw [if_neg hx, if_neg hx]
      rcases h.symbols x with hnone | ⟨address, e, hl, hk, hdrifts⟩
      · exact .inl hnone
      · exact .inr ⟨address, e, hl, hk, hdrifts.concat hx⟩

/-- Walks of a program from origins that are `d` apart stay apart. -/
theorem apart_pastAll (origin : UInt32) (hp : ∀ s ∈ ss, s.Placeable) :
    Apart d ss ((start origin).pastAll ss) ((start (origin + d)).pastAll ss) := by
  induction ss using List.reverseRecOn with
  | nil => exact apart_start origin d
  | append_singleton ss s ih =>
    obtain ⟨hss, hs⟩ := List.forall_mem_append.mp hp
    rw [pastAll, pastAll, List.foldl_append, List.foldl_append]
    exact (ih hss).past (hs s List.mem_cons_self)

end Layout

/-- The address of a statement is the cursor behind those before it. -/
theorem Program.getElem?_addresses : ∀ {ss : List Statement} (l : Layout) {i : Nat},
    i < ss.length → (addresses l.cursor ss)[i]? = some (l.pastAll (ss.take i)).cursor
  | _ :: _, _, 0, _ => rfl
  | s :: _, l, _ + 1, h => getElem?_addresses (l.past s) (Nat.lt_of_succ_lt_succ h)

end Chip8
