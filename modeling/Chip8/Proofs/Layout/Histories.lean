/-
# What a history of a layout leaves behind

The layout behind a history is known from the history alone. Its cursor is the last
address it was moved to, or the origin if there was none, and the steps behind it
(`Layout.cursorBehind`); a name is bound to the cursor at its last binding
(`Layout.LastBound`). Both are shown from the end of the history, where one more event is
added behind the others.

The listing of the symbols depends on the bindings alone. The order of listing is a
strict total order of bindings, so there is only one way to list them: a table of the
bindings in any order at all, sorted, is the listing (`Symbols.mergeSort_eq_entries`).

Key definitions: `Layout.cursorBehind`, `Layout.LastBound`, `Binding.notBehind`,
`Symbols.IsTable`.
Key theorems: `Layout.toNat_cursor_replay`, `Layout.get?_replay_eq_some_iff`,
`Symbols.mergeSort_eq_entries`, `Layout.last_writes_are_listed`.
-/
import Mathlib.Algebra.Ring.Nat
import Mathlib.Data.List.DropRight
import Mathlib.Data.List.Induction
import Mathlib.Data.List.Nodup
import Chip8.Layout.History

namespace Chip8

namespace Layout

/-- The address that an event moves the cursor to. -/
def Event.target? : Event → Option UInt32
  | .moveTo address => some address
  | .advance _ | .define _ => none

/-- How far an event moves the cursor on. -/
def Event.step : Event → Nat
  | .advance count => count.toNat
  | .moveTo _ | .define _ => 0

/-- The cursor behind a history: the last address it was moved to, or else the origin, and the
steps behind that, in 32 bits. -/
def cursorBehind (origin : UInt32) (es : List Event) : Nat :=
  (((es.filterMap Event.target?).getLast?.getD origin).toNat +
    ((es.rtakeWhile fun e => e.target?.isNone).map Event.step).sum) % UInt32.size

/-- The address `a` is that of the cursor at the last binding of `x`. -/
def LastBound (origin : UInt32) (es : List Event) (x : String) (a : UInt32) : Prop :=
  ∃ before later, es = before ++ .define x :: later ∧ .define x ∉ later ∧
    a.toNat = cursorBehind origin before

variable {origin a : UInt32} {es : List Event} {e : Event} {x : String}

theorem replay_concat (l : Layout) (es : List Event) (e : Event) :
    l.replay (es ++ [e]) = (l.replay es).after e := by
  rw [replay_append]
  rfl

/-! ### The cursor -/

theorem cursorBehind_concat_of_target (h : e.target? = some a) :
    cursorBehind origin (es ++ [e]) = a.toNat := by
  have hlast : ((es ++ [e]).filterMap Event.target?).getLast? = some a := by simp [h]
  have hnone : (es ++ [e]).rtakeWhile (fun e => e.target?.isNone) = [] := by
    rw [List.rtakeWhile_concat_neg _ _ _ (by simp [h])]
  rw [cursorBehind, hlast, hnone]
  exact Nat.mod_eq_of_lt a.toNat_lt

theorem cursorBehind_concat_of_no_target (h : e.target? = none) :
    cursorBehind origin (es ++ [e]) = (cursorBehind origin es + e.step) % UInt32.size := by
  have hlast : (es ++ [e]).filterMap Event.target? = es.filterMap Event.target? := by simp [h]
  have hsteps : (((es ++ [e]).rtakeWhile fun e => e.target?.isNone).map Event.step).sum =
      ((es.rtakeWhile fun e => e.target?.isNone).map Event.step).sum + e.step := by
    rw [List.rtakeWhile_concat_pos _ _ _ (by simp [h])]
    simp
  rw [cursorBehind, hlast, hsteps, ← Nat.add_assoc, cursorBehind, Nat.mod_add_mod]

/-- The cursor behind a history is the last address it was moved to and the steps behind. -/
theorem toNat_cursor_replay (origin : UInt32) (es : List Event) :
    ((start origin).replay es).cursor.toNat = cursorBehind origin es := by
  induction es using List.reverseRecOn with
  | nil => exact (Nat.mod_eq_of_lt origin.toNat_lt).symm
  | append_singleton es e ih =>
    rw [replay_concat, cursor_after]
    cases e with
    | advance count =>
      rw [cursorBehind_concat_of_no_target rfl, ← ih]
      exact UInt32.toNat_add _ _
    | moveTo address => exact (cursorBehind_concat_of_target rfl).symm
    | define name =>
      rw [cursorBehind_concat_of_no_target rfl, ← ih]
      exact (Nat.mod_eq_of_lt (UInt32.toNat_lt _)).symm

/-! ### The names -/

theorem not_lastBound_nil : ¬LastBound origin [] x a := by
  rintro ⟨before, later, h, -⟩
  simp at h

/-- The last event binds the name, or else the last binding stands in front of it. -/
theorem lastBound_concat_iff :
    LastBound origin (es ++ [e]) x a ↔
      if e = .define x then a.toNat = cursorBehind origin es else LastBound origin es x a := by
  constructor
  · rintro ⟨before, later, h, hlater, ha⟩
    rcases List.eq_nil_or_concat' later with rfl | ⟨later, d, rfl⟩
    · obtain ⟨rfl, rfl⟩ := List.append_singleton_inj.mp h
      rwa [if_pos rfl]
    · rw [← List.cons_append, ← List.append_assoc] at h
      obtain ⟨rfl, rfl⟩ := List.append_singleton_inj.mp h
      rw [List.mem_append, List.mem_singleton, not_or] at hlater
      rw [if_neg (Ne.symm hlater.2)]
      exact ⟨before, later, rfl, hlater.1, ha⟩
  · intro h
    split at h
    · next he => exact ⟨es, [], by rw [he], List.not_mem_nil, h⟩
    · next he =>
      obtain ⟨before, later, rfl, hlater, ha⟩ := h
      refine ⟨before, later ++ [e], by simp, ?_, ha⟩
      rw [List.mem_append, List.mem_singleton, not_or]
      exact ⟨hlater, Ne.symm he⟩

/-- **The last binding counts.** A name is bound to the cursor at its last binding. -/
theorem get?_replay_eq_some_iff :
    ((start origin).replay es).get? x = some a ↔ LastBound origin es x a := by
  induction es using List.reverseRecOn generalizing a with
  | nil => simp [replay_nil, get?_start, not_lastBound_nil]
  | append_singleton es e ih =>
    rw [replay_concat, get?_after, lastBound_concat_iff]
    split
    · rw [← toNat_cursor_replay, UInt32.toNat_inj, Option.some_inj, eq_comm]
    · exact ih

/-- A name that is never bound is the one that is bound to nothing. -/
theorem get?_replay_eq_none_iff :
    ((start origin).replay es).get? x = none ↔ .define x ∉ es := by
  induction es using List.reverseRecOn with
  | nil => simp [replay_nil, get?_start]
  | append_singleton es e ih =>
    rw [replay_concat, get?_after, List.mem_append, List.mem_singleton, not_or, ← ih]
    split
    · next he => simp [he]
    · next he => simp [Ne.symm he]

end Layout

/-! ### The listing -/

/-- Whether a binding need not be listed behind another one. -/
def Binding.notBehind (a b : Binding) : Bool := !decide (b.Before a)

theorem Binding.notBehind_iff {a b : Binding} : a.notBehind b = true ↔ a = b ∨ a.Before b := by
  rw [notBehind, Bool.not_eq_true', decide_eq_false_iff_not]
  constructor
  · intro h
    by_cases hab : a = b
    · exact .inl hab
    · exact .inr (before_of_not_before (Ne.symm hab) h)
  · rintro (rfl | hab) hba
    · exact Before.irrefl a hba
    · exact Before.irrefl a (hab.trans hba)

namespace Symbols

/-- The row holds the bindings of a symbol table, each name once, in whichever order. -/
structure IsTable (s : Symbols) (bs : List Binding) : Prop where
  distinct : (bs.map Binding.name).Nodup
  mem_iff : ∀ b, b ∈ bs ↔ s.get? b.name = some b.address

/-- **The listing is the bindings, sorted**, in whichever order they come. -/
theorem mergeSort_eq_entries {s : Symbols} {bs : List Binding} (h : s.IsTable bs) :
    bs.mergeSort Binding.notBehind = s.entries := by
  have hperm := List.mergeSort_perm bs Binding.notBehind
  have hsorted : (bs.mergeSort Binding.notBehind).Pairwise fun a b => a.notBehind b = true := by
    refine List.pairwise_mergeSort (fun a b c hab hbc => ?_) (fun a b => ?_) bs
    · rw [Binding.notBehind_iff] at hab hbc ⊢
      rcases hab with rfl | hab
      · exact hbc
      · rcases hbc with rfl | hbc
        · exact .inr hab
        · exact .inr (hab.trans hbc)
    · rw [Bool.or_eq_true, Binding.notBehind_iff, Binding.notBehind_iff]
      by_cases hab : a.Before b
      · exact .inl (.inr hab)
      · by_cases heq : a = b
        · exact .inl (.inl heq)
        · exact .inr (.inr (Binding.before_of_not_before heq hab))
  have hdistinct : (bs.mergeSort Binding.notBehind).Pairwise fun a b => a ≠ b :=
    hperm.nodup_iff.mpr (List.Nodup.of_map Binding.name h.distinct)
  refine eq_of_pairwise_before ?_ s.ordered fun b => ?_
  · refine (hsorted.and hdistinct).imp fun ⟨hab, hne⟩ => ?_
    exact (Binding.notBehind_iff.mp hab).resolve_left hne
  · rw [hperm.mem_iff, h.mem_iff, get?_eq_some_iff]

end Symbols

namespace Layout

/-- **A layout holds the last writes, and lists them in one way.** Behind any history the cursor is
the last address it was moved to, or the origin, and the steps behind. A name is bound to the
cursor at its last binding, and to nothing if it was never bound; binding it again says what it was
bound to. The listing has every name that was bound once, with its address, by address and then by
name; it is what any table of the bindings comes to if it is sorted, and another history that leaves
the same bindings leaves the same listing. -/
theorem last_writes_are_listed (origin : UInt32) (es : List Event) :
    let l := (start origin).replay es
    l.cursor.toNat = cursorBehind origin es ∧
      (∀ x a, l.get? x = some a ↔ LastBound origin es x a) ∧
      (∀ x, l.get? x = none ↔ .define x ∉ es) ∧
      (∀ x, (l.define x).1 = l.get? x) ∧
      (∀ b, b ∈ l.symbols.entries ↔ LastBound origin es b.name b.address) ∧
      (∀ x, x ∈ l.symbols.entries.map Binding.name ↔ .define x ∈ es) ∧
      (l.symbols.entries.map Binding.name).Nodup ∧ l.symbols.entries.Pairwise Binding.Before ∧
      (∀ bs, l.symbols.IsTable bs → bs.mergeSort Binding.notBehind = l.symbols.entries) ∧
      ∀ origin' es', (∀ x, ((start origin').replay es').get? x = l.get? x) →
        ((start origin').replay es').symbols.entries = l.symbols.entries := by
  intro l
  have hentries : ∀ b, b ∈ l.symbols.entries ↔ LastBound origin es b.name b.address := fun b => by
    rw [← get?_replay_eq_some_iff]
    exact Symbols.get?_eq_some_iff.symm
  have hnames : ∀ x, x ∈ l.symbols.entries.map Binding.name ↔ .define x ∈ es := fun x => by
    have hnone : l.get? x = none ↔ x ∉ l.symbols.entries.map Binding.name :=
      Symbols.get?_eq_none_iff
    rw [← not_iff_not, ← hnone]
    exact get?_replay_eq_none_iff
  refine ⟨toNat_cursor_replay origin es, fun x a => get?_replay_eq_some_iff,
    fun x => get?_replay_eq_none_iff, fun x => rfl, hentries, hnames, l.symbols.distinct,
    l.symbols.ordered, fun bs hbs => Symbols.mergeSort_eq_entries hbs, fun origin' es' hsame => ?_⟩
  exact congrArg Symbols.entries (Symbols.ext_get? hsame)

/-- A name that is bound twice is listed at its later address. -/
example : ((start 0xFFFFFFFE).replay
    [.define "a", .advance 4, .define "b", .moveTo 1, .define "a"]).symbols.entries =
      [⟨"a", 1⟩, ⟨"b", 2⟩] := by decide

end Layout
end Chip8
