/-
# Assembling two programs behind one another

A program that goes on with another one is assembled part by part: the second part
begins where the cursor stands behind the first (`addresses_append`). Symbols of the
two parts come together in one table, in which a name of the second part hides that
of the first (`get?_symbols_append`). If the parts have no name in common, the table
extends those of both, and so each name of a part is replaced as in the part alone
(`Statement.resolved_of_extends`).

Key definitions: `Symbols.Extends`.
Key theorems: `pastAll_append`, `addresses_append`, `get?_pastAll`, `get?_symbols_append`,
`result_assembleProgram_append`.
-/
import Mathlib.Data.List.Nodup
import Chip8.Proofs.Assembly.Program

namespace Chip8

variable {origin : UInt32} {ss ts : List Statement}

/-! ### Placing -/

namespace Layout

theorem pastAll_append (l : Layout) (ss ts : List Statement) :
    l.pastAll (ss ++ ts) = (l.pastAll ss).pastAll ts := List.foldl_append

/-- What names are bound to behind a program: what it binds them to, or else what they were bound
to before. -/
theorem get?_pastAll (l : Layout) (ss : List Statement) (x : String) :
    (l.pastAll ss).get? x = (((start l.cursor).pastAll ss).get? x).or (l.get? x) := by
  induction ss generalizing l with
  | nil => rfl
  | cons s ss ih =>
    have hfresh := ih ((start l.cursor).past s)
    rw [pastAll_cons, pastAll_cons, ih, hfresh, Option.or_assoc, get?_past, get?_past, get?_start]
    congr 1
    by_cases hx : s.label? = some x
    · simp [hx, start]
    · simp [hx]

end Layout

namespace Program

/-- The second part has the addresses that it has from the cursor on. -/
theorem addresses_append (l : Layout) (ss ts : List Statement) :
    addresses l.cursor (ss ++ ts) =
      addresses l.cursor ss ++ addresses (l.pastAll ss).cursor ts := by
  induction ss generalizing l with
  | nil => rfl
  | cons s ss ih =>
    have htail := ih (l.past s)
    rw [List.cons_append, addresses, addresses, List.cons_append, Layout.pastAll_cons]
    exact congrArg _ htail

/-- A name of the second part hides that of the first. -/
theorem get?_symbols_append (x : String) :
    (symbols origin (ss ++ ts)).get? x =
      ((symbols ((Layout.start origin).pastAll ss).cursor ts).get? x).or
        ((symbols origin ss).get? x) := by
  have hget := ((Layout.start origin).pastAll ss).get?_pastAll ts x
  rwa [← Layout.pastAll_append] at hget

end Program

/-! ### Replacing names -/

/-- The table `t` binds all names of `s`, and as `s` does. -/
def Symbols.Extends (t s : Symbols) : Prop :=
  ∀ x address, s.get? x = some address → t.get? x = some address

variable {s t : Symbols}

theorem Operand.resolved_of_extends (h : t.Extends s) {o : Operand} (ho : o.Bound s) :
    o.Bound t ∧ o.resolved t = o.resolved s := by
  by_cases hlit : o.Literal
  · exact ⟨fun x hx => absurd hx (hlit x), by
      rw [resolved_of_literal hlit, resolved_of_literal hlit]⟩
  · obtain ⟨kind, value, p⟩ := o
    cases value with
    | name x =>
      obtain ⟨address, hs⟩ := Option.ne_none_iff_exists'.mp (ho x rfl)
      have ht := h x address hs
      exact ⟨fun y hy => by cases hy; simp [ht], by simp [resolved, resolve, hs, ht]⟩
    | number n => exact absurd nofun hlit
    | absent => exact absurd nofun hlit

theorem Statement.resolved_of_extends (h : t.Extends s) {u : Statement} (hu : u.Bound s) :
    u.Bound t ∧ u.resolved t = u.resolved s := by
  refine ⟨fun o ho => (Operand.resolved_of_extends h (hu o ho)).1, ?_⟩
  rw [resolved, resolved, List.map_congr_left fun o ho =>
    (Operand.resolved_of_extends h (hu o ho)).2]

/-- A part of a program has its names replaced as alone, if the table extends its own. -/
theorem Program.map_resolved_of_extends (h : t.Extends s) (hb : ∀ u ∈ ss, u.Bound s) :
    (∀ u ∈ ss, u.Bound t) ∧ ss.map (Statement.resolved t) = ss.map (Statement.resolved s) :=
  ⟨fun u hu => (Statement.resolved_of_extends h (hb u hu)).1,
    List.map_congr_left fun u hu => (Statement.resolved_of_extends h (hb u hu)).2⟩

/-! ### Making bytes, and putting lines together -/

theorem Program.result_emit_append {code code' : List (List UInt8)}
    (hss : (emit ss).result = .ok code) (hts : (emit ts).result = .ok code') :
    (emit (ss ++ ts)).result = .ok (code ++ code') := by
  unfold emit at *
  rw [Outcome.result_mapM_eq_ok_iff] at *
  exact List.rel_append hss hts

theorem Assembly.linesOf_append : ∀ {as as' : List UInt32} {ss ts : List Statement}
    {code code' : List (List UInt8)}, as.length = ss.length → code.length = ss.length →
      linesOf (as ++ as') (ss ++ ts) (code ++ code') = linesOf as ss code ++ linesOf as' ts code'
  | [], _, [], _, [], _, _, _ => rfl
  | a :: as, as', s :: ss, ts, bytes :: code, code', has, hcode => by
    have htail := @linesOf_append as as' ss ts code code' (Nat.succ.inj has) (Nat.succ.inj hcode)
    simp only [List.cons_append, linesOf, htail]

/-! ### Tables without a name in common -/

namespace Symbols

variable {u : Symbols}

/-- A table in which the names of `t` hide those of `s` extends both, if none is in both. -/
theorem extends_of_get?_eq_or (hu : ∀ x, u.get? x = (t.get? x).or (s.get? x))
    (hnames : ∀ x ∈ s.entries.map Binding.name, x ∉ t.entries.map Binding.name) :
    u.Extends s ∧ u.Extends t := by
  constructor
  · intro x address hx
    have hmem := List.mem_map_of_mem (f := Binding.name) (get?_eq_some_iff.mp hx)
    rw [hu, get?_eq_none_iff.mpr (hnames x hmem), hx]
    rfl
  · intro x address hx
    rw [hu, hx]
    rfl

/-- Such a table has the entries of both. -/
theorem perm_entries_of_get?_eq_or (hu : ∀ x, u.get? x = (t.get? x).or (s.get? x))
    (hnames : ∀ x ∈ s.entries.map Binding.name, x ∉ t.entries.map Binding.name) :
    u.entries.Perm (s.entries ++ t.entries) := by
  obtain ⟨hs, ht⟩ := extends_of_get?_eq_or hu hnames
  have hdisjoint : s.entries.Disjoint t.entries := fun b hbs hbt =>
    hnames b.name (List.mem_map_of_mem hbs) (List.mem_map_of_mem hbt)
  have hnodup : (s.entries ++ t.entries).Nodup :=
    (List.Nodup.of_map _ s.distinct).append (List.Nodup.of_map _ t.distinct) hdisjoint
  refine (List.perm_ext_iff_of_nodup (List.Nodup.of_map _ u.distinct) hnodup).mpr ?_
  intro ⟨x, address⟩
  rw [List.mem_append, ← get?_eq_some_iff, ← get?_eq_some_iff, ← get?_eq_some_iff]
  constructor
  · intro hx
    rw [hu, Option.or_eq_some_iff] at hx
    rcases hx with hx | ⟨-, hx⟩
    · exact .inr hx
    · exact .inl hx
  · rintro (hx | hx)
    · exact hs x address hx
    · exact ht x address hx

end Symbols

/-! ### All passes -/

/-- **A program is assembled part by part.** If the second part, begun where the cursor stands
behind the first, has no name in common with it, the two parts are assembled as each is alone: the
lines stand one behind another, and the tables make up one. -/
theorem result_assembleProgram_append {source : String} {a b : Assembly}
    (ha : (assembleProgram source origin ss).result = .ok a)
    (hb : (assembleProgram source ((Layout.start origin).pastAll ss).cursor ts).result = .ok b)
    (hnames : ∀ x ∈ a.symbols.entries.map Binding.name, x ∉ b.symbols.entries.map Binding.name) :
    ∃ c, (assembleProgram source origin (ss ++ ts)).result = .ok c ∧
      c.lines = a.lines ++ b.lines ∧
      c.symbols.entries.Perm (a.symbols.entries ++ b.symbols.entries) := by
  obtain ⟨hplaceA, hboundA, codeA, hcodeA, rfl⟩ := result_assembleProgram_eq_ok_iff.mp ha
  obtain ⟨hplaceB, hboundB, codeB, hcodeB, rfl⟩ := result_assembleProgram_eq_ok_iff.mp hb
  have hget := fun x => @Program.get?_symbols_append origin ss ts x
  obtain ⟨hextendsA, hextendsB⟩ := Symbols.extends_of_get?_eq_or hget hnames
  obtain ⟨hA, hresolvedA⟩ := Program.map_resolved_of_extends hextendsA hboundA
  obtain ⟨hB, hresolvedB⟩ := Program.map_resolved_of_extends hextendsB hboundB
  have hresolved : Program.resolved origin (ss ++ ts) = Program.resolved origin ss ++
      Program.resolved ((Layout.start origin).pastAll ss).cursor ts := by
    rw [Program.resolved, List.map_append, hresolvedA, hresolvedB]
    rfl
  have haddresses : Program.addresses origin (ss ++ ts) = Program.addresses origin ss ++
      Program.addresses ((Layout.start origin).pastAll ss).cursor ts :=
    Program.addresses_append (Layout.start origin) ss ts
  have hcode : (Program.emit (Program.resolved origin (ss ++ ts))).result =
      .ok (codeA ++ codeB) := by
    rw [hresolved]
    exact Program.result_emit_append hcodeA hcodeB
  refine ⟨_, result_assembleProgram_eq_ok_iff.mpr
    ⟨List.forall_mem_append.mpr ⟨hplaceA, hplaceB⟩, List.forall_mem_append.mpr ⟨hA, hB⟩, _, hcode,
      rfl⟩, ?_, Symbols.perm_entries_of_get?_eq_or hget hnames⟩
  have hss : (Program.resolved origin ss).length = ss.length := List.length_map ..
  have hlengths := (Program.length_addresses ss origin).trans hss.symm
  rw [haddresses, hresolved]
  exact Assembly.linesOf_append hlengths (Program.length_of_result_emit hcodeA)

end Chip8
