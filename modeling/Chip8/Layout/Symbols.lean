/-
# The symbol table

A symbol table binds names to addresses. It is kept in the order in which it
is listed, by address and then by name, and holds each name once; so what is
listed depends on the bindings alone and not on how they came about
(`ext_get?`). Binding a name again replaces what it was bound to
(`get?_insert`).

Key definitions: `Binding`, `Binding.Before`, `Symbols`, `Symbols.get?`, `Symbols.insert`.
Key theorems: `get?_eq_some_iff`, `get?_eq_none_iff`, `mem_entries_insert`, `get?_insert`,
`ext_get?`.
-/

namespace Chip8

/-- A name and the address it is bound to. -/
structure Binding where
  name : String
  address : UInt32
deriving DecidableEq

namespace Binding

/-- The order of listing: by address, then by name. -/
def Before (a b : Binding) : Prop :=
  a.address < b.address ∨ a.address = b.address ∧ a.name < b.name

instance (a b : Binding) : Decidable (a.Before b) := by
  unfold Before
  infer_instance

theorem Before.irrefl (a : Binding) : ¬a.Before a := by
  rintro (h | ⟨-, h⟩)
  · exact UInt32.lt_irrefl _ h
  · exact String.lt_irrefl _ h

theorem Before.trans {a b c : Binding} (hab : a.Before b) (hbc : b.Before c) : a.Before c := by
  unfold Before at *
  rcases hab with hab | ⟨heq, hab⟩ <;> rcases hbc with hbc | ⟨heq', hbc⟩
  · exact .inl (UInt32.lt_trans hab hbc)
  · exact .inl (heq' ▸ hab)
  · exact .inl (heq ▸ hbc)
  · exact .inr ⟨heq.trans heq', String.lt_trans hab hbc⟩

/-- Of two different bindings one is before the other. -/
theorem before_of_not_before {a b : Binding} (hne : a ≠ b) (h : ¬a.Before b) : b.Before a := by
  unfold Before at *
  have hle : b.address ≤ a.address := UInt32.not_lt.mp fun hlt => h (.inl hlt)
  rcases UInt32.lt_or_eq_of_le hle with hlt | heq
  · exact .inl hlt
  · refine .inr ⟨heq, ?_⟩
    have hle : b.name ≤ a.name := String.not_lt.mp fun hlt => h (.inr ⟨heq.symm, hlt⟩)
    refine Decidable.byContradiction fun hn => hne ?_
    have hname := String.le_antisymm (String.not_lt.mp hn) hle
    cases a
    cases b
    simp_all

end Binding

/-- Bindings in the order of listing, each name once. -/
structure Symbols where
  entries : List Binding
  ordered : entries.Pairwise Binding.Before
  distinct : (entries.map Binding.name).Nodup
deriving DecidableEq

namespace Symbols

/-- Puts a binding where the order wants it. -/
def place (b : Binding) : List Binding → List Binding
  | [] => [b]
  | e :: es => if b.Before e then b :: e :: es else e :: place b es

theorem mem_place {b c : Binding} : ∀ {es : List Binding}, c ∈ place b es ↔ c = b ∨ c ∈ es
  | [] => by simp [place]
  | e :: es => by
    unfold place
    split
    · simp
    · simp only [List.mem_cons, mem_place]
      exact ⟨by rintro (h | h | h) <;> simp [h], by rintro (h | h | h) <;> simp [h]⟩

theorem perm_place (b : Binding) : ∀ es : List Binding, (place b es).Perm (b :: es)
  | [] => .refl _
  | e :: es => by
    unfold place
    split
    · exact .refl _
    · exact ((perm_place b es).cons e).trans (.swap b e es)

theorem pairwise_place {b : Binding} : ∀ {es : List Binding}, es.Pairwise Binding.Before →
    (∀ e ∈ es, b ≠ e) → (place b es).Pairwise Binding.Before
  | [], _, _ => by simp [place]
  | e :: es, h, hne => by
    have hcons := List.pairwise_cons.mp h
    unfold place
    split
    · next hbe =>
      refine List.pairwise_cons.mpr ⟨fun c hc => ?_, h⟩
      rcases List.mem_cons.mp hc with rfl | hc
      · exact hbe
      · exact hbe.trans (hcons.1 c hc)
    · next hbe =>
      refine List.pairwise_cons.mpr ⟨fun c hc => ?_, pairwise_place hcons.2 fun c hc =>
        hne c (List.mem_cons_of_mem e hc)⟩
      rcases mem_place.mp hc with rfl | hc
      · exact Binding.before_of_not_before (hne e (List.mem_cons_self ..)) hbe
      · exact hcons.1 c hc

/-- The bindings of other names. -/
def without (name : String) (es : List Binding) : List Binding := es.filter fun e => e.name != name

theorem name_ne_of_mem_without {name : String} {es : List Binding} {e : Binding}
    (h : e ∈ without name es) : e.name ≠ name := by
  simpa using (List.mem_filter.mp h).2

/-- A table without bindings. -/
def empty : Symbols := ⟨[], .nil, .nil⟩

/-- The address a name is bound to. -/
def get? (s : Symbols) (name : String) : Option UInt32 :=
  (s.entries.find? fun e => e.name == name).map Binding.address

/-- Binds a name to an address, and to nothing else. -/
def insert (s : Symbols) (name : String) (address : UInt32) : Symbols where
  entries := place ⟨name, address⟩ (without name s.entries)
  ordered := pairwise_place (s.ordered.sublist List.filter_sublist) fun e he h =>
    name_ne_of_mem_without he (h ▸ rfl)
  distinct := by
    have hsub : ((without name s.entries).map Binding.name).Nodup :=
      s.distinct.sublist (List.filter_sublist.map Binding.name)
    refine ((perm_place ⟨name, address⟩ _).map Binding.name).nodup_iff.mpr ?_
    refine List.nodup_cons.mpr ⟨fun h => ?_, hsub⟩
    obtain ⟨e, he, hname⟩ := List.mem_map.mp h
    exact name_ne_of_mem_without he hname

/-! ### The table as a set of bindings -/

/-- In a list where names are distinct, an entry is found by its name. -/
theorem find?_name_eq_some : ∀ {es : List Binding}, (es.map Binding.name).Nodup →
    ∀ {b : Binding}, b ∈ es → es.find? (fun e => e.name == b.name) = some b
  | e :: es, hd, b, hb => by
    obtain ⟨hnot, hd⟩ := List.nodup_cons.mp hd
    rcases List.mem_cons.mp hb with rfl | hb
    · simp
    · have hne : e.name ≠ b.name := fun h => hnot (h ▸ List.mem_map_of_mem hb)
      simp [hne, find?_name_eq_some hd hb]

/-- A name is bound to an address iff that binding is listed. -/
theorem get?_eq_some_iff {s : Symbols} {name : String} {address : UInt32} :
    s.get? name = some address ↔ ⟨name, address⟩ ∈ s.entries := by
  constructor
  · intro h
    obtain ⟨e, he, rfl⟩ := Option.map_eq_some_iff.mp h
    have hname := List.find?_some he
    simp only [beq_iff_eq] at hname
    subst hname
    exact List.mem_of_find?_eq_some he
  · intro h
    rw [get?, find?_name_eq_some s.distinct h]
    rfl

theorem get?_eq_none_iff {s : Symbols} {name : String} :
    s.get? name = none ↔ name ∉ s.entries.map Binding.name := by
  rw [get?, Option.map_eq_none_iff, List.find?_eq_none]
  simp

/-- After binding a name the table holds that binding and those of other names. -/
theorem mem_entries_insert {s : Symbols} {name : String} {address : UInt32} {b : Binding} :
    b ∈ (s.insert name address).entries ↔
      b = ⟨name, address⟩ ∨ b ∈ s.entries ∧ b.name ≠ name := by
  simp [insert, mem_place, without]

theorem get?_empty (name : String) : empty.get? name = none := rfl

/-- The last binding of a name counts. -/
theorem get?_insert (s : Symbols) (name other : String) (address : UInt32) :
    (s.insert name address).get? other = if other = name then some address else s.get? other := by
  apply Option.ext
  intro a
  rw [get?_eq_some_iff, mem_entries_insert]
  by_cases h : other = name
  · simp [h, eq_comm]
  · simp [h, get?_eq_some_iff]

/-- Ordered lists with the same members are the same. -/
theorem eq_of_pairwise_before : ∀ {xs ys : List Binding}, xs.Pairwise Binding.Before →
    ys.Pairwise Binding.Before → (∀ b, b ∈ xs ↔ b ∈ ys) → xs = ys
  | [], [], _, _, _ => rfl
  | [], y :: ys, _, _, h => absurd ((h y).mpr (List.mem_cons_self ..)) (by simp)
  | x :: xs, [], _, _, h => absurd ((h x).mp (List.mem_cons_self ..)) (by simp)
  | x :: xs, y :: ys, hx, hy, h => by
    obtain ⟨hx1, hx2⟩ := List.pairwise_cons.mp hx
    obtain ⟨hy1, hy2⟩ := List.pairwise_cons.mp hy
    have hxy : x = y := by
      rcases List.mem_cons.mp ((h x).mp (List.mem_cons_self ..)) with e | hxy
      · exact e
      · rcases List.mem_cons.mp ((h y).mpr (List.mem_cons_self ..)) with e | hyx
        · exact e.symm
        · exact absurd ((hy1 x hxy).trans (hx1 y hyx)) (Binding.Before.irrefl y)
    subst hxy
    congr 1
    refine eq_of_pairwise_before hx2 hy2 fun b => ⟨fun hb => ?_, fun hb => ?_⟩
    · rcases List.mem_cons.mp ((h b).mp (List.mem_cons_of_mem x hb)) with rfl | hb'
      · exact absurd (hx1 b hb) (Binding.Before.irrefl b)
      · exact hb'
    · rcases List.mem_cons.mp ((h b).mpr (List.mem_cons_of_mem x hb)) with rfl | hb'
      · exact absurd (hy1 b hb) (Binding.Before.irrefl b)
      · exact hb'

/-- A table is determined by what its names are bound to. -/
theorem ext_get? {s t : Symbols} (h : ∀ name, s.get? name = t.get? name) : s = t := by
  have hmem : ∀ b, b ∈ s.entries ↔ b ∈ t.entries := fun b => by
    rw [← get?_eq_some_iff (s := s), ← get?_eq_some_iff (s := t), h]
  have hentries := eq_of_pairwise_before s.ordered t.ordered hmem
  cases s
  cases t
  cases hentries
  rfl

end Symbols
end Chip8
