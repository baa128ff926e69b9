/-
# What placing a program does

Whether a statement can be placed depends on the statement alone (`Placeable`),
and so does the fault if it cannot (`Misplaced`), which is found out before
anything is changed or noted (`place_of_misplaced`). A statement that is placed
moves the layout on in one way, `Layout.past`: the cursor goes to the number of
an `.org`, cut to 12 bits, or else behind the bytes that the statement will have;
and a label is bound to the cursor. So a program is placed iff all of its
statements can be, the addresses are those of a walk that only counts
(`Program.addresses`), and otherwise the first misplaced statement is at fault.

Key definitions: `Statement.Placeable`, `Statement.Misplaced`, `Statement.origin?`,
`Statement.size`, `Statement.next`, `Statement.label?`, `Layout.past`, `Program.addresses`.
Key theorems: `place_of_placeable`, `place_of_misplaced`, `placeAll_of_placeable`,
`result_placeAll_eq_ok_iff`, `result_placeAll_eq_error_iff`.
-/
import Chip8.Assembly.Place
import Chip8.Proofs.First

namespace Chip8

namespace Directive

theorem ofName?_eq_org_iff {name : String} : ofName? name = some .org ↔ name = "org" := by
  unfold ofName?
  split <;> simp_all

theorem ofName?_eq_db_iff {name : String} : ofName? name = some .db ↔ name = "db" := by
  unfold ofName?
  split <;> simp_all

theorem ofName?_eq_none_iff {name : String} :
    ofName? name = none ↔ name ≠ "org" ∧ name ≠ "db" := by
  unfold ofName?
  split <;> simp_all

end Directive

namespace Statement

/-- A statement that can be placed: of the directives, an `.org` whose one operand is an
address or byte that is a number, and a `.db` with operands. -/
def Placeable : Statement → Prop
  | label _ _ => True
  | instruction _ _ _ => True
  | directive name os _ =>
    (name = "org" ∧ ∃ o n, os = [o] ∧ (o.kind = .address ∨ o.kind = .byte) ∧ o.value = .number n) ∨
      (name = "db" ∧ os ≠ [])

/-- What is wrong with a statement that cannot be placed, and where. -/
inductive Misplaced : Statement → Fault → Prop where
  | unknown {name : String} {os : List Operand} {p : Position} (horg : name ≠ "org")
      (hdb : name ≠ "db") : Misplaced (.directive name os p) ⟨p, .unknownDirective name⟩
  | shape {name : String} {os : List Operand} {p : Position} (horg : name = "org")
      (h : ¬∃ o, os = [o] ∧ (o.kind = .address ∨ o.kind = .byte)) :
      Misplaced (.directive name os p) ⟨p, .originShape⟩
  | named {name x : String} {o : Operand} {p : Position} (horg : name = "org")
      (hk : o.kind = .address ∨ o.kind = .byte) (hv : o.value = .name x) :
      Misplaced (.directive name [o] p) ⟨o.position, .originName x⟩
  | absent {name : String} {o : Operand} {p : Position} (horg : name = "org")
      (hk : o.kind = .address ∨ o.kind = .byte) (hv : o.value = .absent) :
      Misplaced (.directive name [o] p) ⟨o.position, .originAbsent⟩
  | empty {name : String} {p : Position} (hdb : name = "db") :
      Misplaced (.directive name [] p) ⟨p, .dataEmpty⟩

/-- The number that an `.org` moves to. -/
def origin? : Statement → Option UInt32
  | directive "org" [⟨_, .number n, _⟩] _ => some n
  | _ => none

/-- The number of bytes of a statement. -/
def size : Statement → Nat
  | label _ _ => 0
  | instruction _ _ _ => 2
  | directive name os _ => if name = "db" then os.length else 0

/-- The name that a label binds. -/
def label? : Statement → Option String
  | label name _ => some name
  | _ => none

/-- The address behind a statement at `address`. -/
def next (address : UInt32) (s : Statement) : UInt32 :=
  match s.origin? with
  | some n => n % 0x1000
  | none => address + UInt32.ofNat s.size

theorem toNat_next (address : UInt32) (s : Statement) :
    (s.next address).toNat =
      match s.origin? with
      | some n => n.toNat % 4096
      | none => (address.toNat + s.size) % UInt32.size := by
  unfold next
  split
  · rfl
  · rw [UInt32.toNat_add, UInt32.toNat_ofNat', Nat.add_mod_mod]

end Statement

namespace Layout

/-- The layout behind a statement that is placed at the cursor. -/
def past (l : Layout) (s : Statement) : Layout where
  cursor := s.next l.cursor
  symbols :=
    match s.label? with
    | some name => l.symbols.insert name l.cursor
    | none => l.symbols

end Layout

/-! ### One statement -/

namespace Directive

theorem originOf_eq_ok_iff {p : Position} {os : List Operand} {n : UInt32} :
    originOf p os = .ok n ↔
      ∃ o, os = [o] ∧ (o.kind = .address ∨ o.kind = .byte) ∧ o.value = .number n := by
  unfold originOf
  split
  · next o =>
    split
    · next hk =>
      split <;> simp_all
    · next hk => simp [hk]
  · next hne =>
    constructor
    · nofun
    · rintro ⟨o, rfl, -⟩
      exact absurd rfl (hne o)

theorem originOf_eq_error_iff {p : Position} {os : List Operand} {f : Fault} :
    originOf p os = .error f ↔ Statement.Misplaced (.directive "org" os p) f := by
  constructor
  · intro h
    unfold originOf at h
    split at h
    · split at h
      · next hk =>
        split at h
        · cases h
        · next hv =>
          cases h
          exact .named rfl hk hv
        · next hv =>
          cases h
          exact .absent rfl hk hv
      · next hk =>
        cases h
        exact .shape rfl (by simpa using hk)
    · next hne =>
      cases h
      exact .shape rfl fun ⟨o, ho, _⟩ => hne o ho
  · intro h
    cases h with
    | unknown horg hdb => exact absurd rfl horg
    | shape _ h =>
      unfold originOf
      split
      · next o => rw [if_neg fun hk => h ⟨o, rfl, hk⟩]
      · rfl
    | named _ hk hv => simp [originOf, hk, hv]
    | absent _ hk hv => simp [originOf, hk, hv]
    | empty hdb => exact absurd hdb (by decide)

end Directive

namespace Statement

/-- Either a statement can be placed or something is wrong with it. -/
theorem placeable_or_misplaced (s : Statement) : s.Placeable ∨ ∃ f, s.Misplaced f := by
  cases s with
  | label name p => exact .inl trivial
  | instruction m os p => exact .inl trivial
  | directive name os p =>
    by_cases horg : name = "org"
    · subst horg
      cases h : Directive.originOf p os with
      | ok n =>
        obtain ⟨o, ho⟩ := Directive.originOf_eq_ok_iff.mp h
        exact .inl (.inl ⟨rfl, o, n, ho⟩)
      | error f => exact .inr ⟨f, Directive.originOf_eq_error_iff.mp h⟩
    · by_cases hdb : name = "db"
      · subst hdb
        cases os with
        | nil => exact .inr ⟨_, .empty rfl⟩
        | cons o os => exact .inl (.inr ⟨rfl, List.cons_ne_nil o os⟩)
      · exact .inr ⟨_, .unknown horg hdb⟩

end Statement

namespace Layout

/-- A statement that can be placed is placed, and the layout moves past it. -/
theorem place_of_placeable (l : Layout) {s : Statement} (h : s.Placeable) :
    (l.place s).1 = l.past s ∧ (l.place s).2.result = .ok () := by
  cases s with
  | label name p =>
    rw [place_label]
    simp [past, Statement.next, Statement.origin?, Statement.size, Statement.label?, define]
  | instruction m os p =>
    rw [place_instruction]
    exact ⟨rfl, rfl⟩
  | directive name os p =>
    rcases h with ⟨rfl, o, n, rfl, hk, hv⟩ | ⟨rfl, hos⟩
    · rw [place_origin l (Directive.originOf_eq_ok_iff.mpr ⟨o, rfl, hk, hv⟩)]
      obtain ⟨kind, value, position⟩ := o
      cases hv
      exact ⟨rfl, rfl⟩
    · rw [place_data l hos]
      exact ⟨rfl, rfl⟩

/-- What is wrong with a statement is found out before the layout is changed or anything is
noted. -/
theorem place_of_misplaced (l : Layout) {s : Statement} {f : Fault} (h : s.Misplaced f) :
    l.place s = (l, .fail f) := by
  cases h with
  | unknown horg hdb => exact place_unknown l (Directive.ofName?_eq_none_iff.mpr ⟨horg, hdb⟩)
  | shape horg h =>
    subst horg
    exact place_origin_error l (Directive.originOf_eq_error_iff.mpr (.shape rfl h))
  | named horg hk hv =>
    subst horg
    exact place_origin_error l (Directive.originOf_eq_error_iff.mpr (.named rfl hk hv))
  | absent horg hk hv =>
    subst horg
    exact place_origin_error l (Directive.originOf_eq_error_iff.mpr (.absent rfl hk hv))
  | empty hdb =>
    subst hdb
    exact place_data_error l

/-- What is wrong with a statement that is not placed does not depend on the layout. -/
theorem result_place_eq_error_iff {l : Layout} {s : Statement} {f : Fault} :
    (l.place s).2.result = .error f ↔ s.Misplaced f := by
  constructor
  · intro h
    rcases s.placeable_or_misplaced with hs | ⟨g, hg⟩
    · rw [(l.place_of_placeable hs).2] at h
      cases h
    · rw [l.place_of_misplaced hg] at h
      cases h
      exact hg
  · intro h
    rw [l.place_of_misplaced h]
    rfl

/-- A statement is placed iff it can be. -/
theorem result_place_eq_ok_iff {l : Layout} {s : Statement} :
    (l.place s).2.result = .ok () ↔ s.Placeable := by
  refine ⟨fun h => s.placeable_or_misplaced.resolve_right ?_, fun h => (l.place_of_placeable h).2⟩
  rintro ⟨f, hf⟩
  rw [result_place_eq_error_iff.mpr hf] at h
  cases h

end Layout

/-- A statement can be placed iff nothing is wrong with it. -/
theorem Statement.placeable_iff {s : Statement} : s.Placeable ↔ ∀ f, ¬s.Misplaced f := by
  refine ⟨fun h f hf => ?_, fun h => s.placeable_or_misplaced.resolve_right fun ⟨f, hf⟩ => h f hf⟩
  have hok := ((Layout.start 0).place_of_placeable h).2
  rw [Layout.result_place_eq_error_iff.mpr hf] at hok
  cases hok

/-! ### A whole program -/

/-- The addresses of the statements of a program, the first at `address`. -/
def Program.addresses (address : UInt32) : List Statement → List UInt32
  | [] => []
  | s :: ss => address :: addresses (s.next address) ss

namespace Layout

/-- The layout behind a program. -/
def pastAll (l : Layout) (ss : List Statement) : Layout := ss.foldl past l

theorem pastAll_cons (l : Layout) (s : Statement) (ss : List Statement) :
    l.pastAll (s :: ss) = (l.past s).pastAll ss := rfl

/-- A program whose statements can all be placed is placed. -/
theorem placeAll_of_placeable : ∀ {ss : List Statement} (l : Layout), (∀ s ∈ ss, s.Placeable) →
    (l.placeAll ss).1 = l.pastAll ss ∧
      (l.placeAll ss).2.result = .ok (Program.addresses l.cursor ss)
  | [], _, _ => ⟨rfl, rfl⟩
  | s :: ss, l, h => by
    obtain ⟨hs, hss⟩ := List.forall_mem_cons.mp h
    obtain ⟨hlast, has⟩ := placeAll_of_placeable (l.past s) hss
    obtain ⟨hpast, hok⟩ := l.place_of_placeable hs
    rw [placeAll_ok hok, hpast, pastAll_cons]
    refine ⟨hlast, ?_⟩
    simp only [has]
    rfl

/-- The first misplaced statement is at fault. -/
theorem result_placeAll_eq_error_iff : ∀ {ss : List Statement} {l : Layout} {f : Fault},
    (l.placeAll ss).2.result = .error f ↔ First Statement.Misplaced ss f
  | [], l, f => ⟨nofun, fun h => absurd h (not_first_nil f)⟩
  | s :: ss, l, f => by
    rw [first_cons_iff]
    cases hp : (l.place s).2.result with
    | error g =>
      rw [placeAll_error hp]
      have hg := result_place_eq_error_iff.mp hp
      constructor
      · intro h
        cases h
        exact .inl hg
      · rintro (h | ⟨h, -⟩)
        · have hf := hp.symm.trans (result_place_eq_error_iff.mpr h)
          cases hf
          rfl
        · exact absurd hg (h g)
    | ok =>
      rw [placeAll_ok hp, ← result_placeAll_eq_error_iff]
      have hs := Statement.placeable_iff.mp (result_place_eq_ok_iff.mp hp)
      cases hss : ((l.place s).1.placeAll ss).2.result <;> simp [Except.map, hs]

/-- A program is placed iff all of its statements can be. -/
theorem result_placeAll_eq_ok_iff {ss : List Statement} {l : Layout} {as : List UInt32} :
    (l.placeAll ss).2.result = .ok as ↔
      (∀ s ∈ ss, s.Placeable) ∧ as = Program.addresses l.cursor ss := by
  constructor
  · intro h
    have hss : ∀ s ∈ ss, s.Placeable := by
      refine fun s hs => Statement.placeable_iff.mpr fun f hf => ?_
      obtain ⟨g, hg⟩ := exists_first_iff.mpr ⟨s, hs, f, hf⟩
      rw [result_placeAll_eq_error_iff.mpr hg] at h
      cases h
    exact ⟨hss, Except.ok.inj (h.symm.trans (placeAll_of_placeable l hss).2)⟩
  · rintro ⟨hss, rfl⟩
    exact (placeAll_of_placeable l hss).2

theorem get?_past (l : Layout) (s : Statement) (name : String) :
    (l.past s).get? name = if s.label? = some name then some l.cursor else l.get? name := by
  cases hs : s.label? with
  | none => simp [past, get?, hs]
  | some other => simp [past, get?, hs, Symbols.get?_insert, eq_comm]

/-- The names that are bound behind a program are those bound before and those of its labels. -/
theorem get?_pastAll_ne_none_iff {name : String} : ∀ {ss : List Statement} {l : Layout},
    (l.pastAll ss).get? name ≠ none ↔ l.get? name ≠ none ∨ ∃ s ∈ ss, s.label? = some name
  | [], l => by simp [pastAll]
  | s :: ss, l => by
    rw [pastAll_cons, get?_pastAll_ne_none_iff, get?_past]
    by_cases hs : s.label? = some name <;> simp [hs]

end Layout
end Chip8
