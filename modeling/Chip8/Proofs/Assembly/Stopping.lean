/-
# A walk that stops

Placing changes the layout step by step, and what was changed or noted before a fault
stays. But a statement is checked before the first change it makes and before the first
notice of it, so one that meets with a fault leaves the layout as it was and nothing
noted (`place_of_error`). So a walk that meets with a fault leaves what the walk over the
statements before it leaves, and nothing of the statement at fault
(`Layout.StopsBefore`). And since a walk carries nothing along but the layout, one that
meets with no fault can be taken in two parts, wherever it is cut (`placeAll_append`).

Key definitions: `Layout.StopsBefore`.
Key theorems: `place_of_error`, `placeAll_append`, `result_placeAll_eq_error_iff_stops`,
`walks_stop_cleanly`.
-/
import Chip8.Proofs.Assembly.Program

namespace Chip8
namespace Layout

variable {l : Layout} {s : Statement} {f : Fault}

/-- The walk over `ss` stops before the statement `k`, with the fault `f`: those before it are
placed, and what the walk over them leaves and notes is all there is; and from there, the statement
`k` alone is at fault and changes nothing. -/
structure StopsBefore (l : Layout) (ss : List Statement) (k : Nat) (f : Fault) : Prop where
  placed : ∃ as, (l.placeAll (ss.take k)).2.result = .ok as
  layout : (l.placeAll ss).1 = (l.placeAll (ss.take k)).1
  notices : (l.placeAll ss).2.notices = (l.placeAll (ss.take k)).2.notices
  fault : ∃ s, ss[k]? = some s ∧
    (l.placeAll (ss.take k)).1.placeAll [s] = ((l.placeAll (ss.take k)).1, ⟨[], .error f⟩)

/-! ### Two parts -/

/-- Behind a first part that is placed, a walk goes on with the layout that this part leaves. -/
theorem placeAll_append {front : List Statement} {as : List UInt32}
    (h : (l.placeAll front).2.result = .ok as) (back : List Statement) :
    l.placeAll (front ++ back) =
      (((l.placeAll front).1.placeAll back).1,
        ⟨(l.placeAll front).2.notices ++ ((l.placeAll front).1.placeAll back).2.notices,
          ((l.placeAll front).1.placeAll back).2.result.map (as ++ ·)⟩) := by
  induction front generalizing l as with
  | nil =>
    obtain rfl : [] = as := Except.ok.inj h
    rw [List.nil_append, placeAll_nil]
    cases hr : (l.placeAll back).2.result with
    | error f => simp [Except.map, ← hr]
    | ok bs => simp [Except.map, ← hr]
  | cons s front ih =>
    obtain ⟨hp, -⟩ := result_placeAll_eq_ok_iff.mp h
    obtain ⟨hpast, hs⟩ := l.place_of_placeable (hp s List.mem_cons_self)
    rw [placeAll_ok hs, hpast] at h
    obtain ⟨bs, hbs, rfl⟩ := Except.map_eq_ok_iff.mp h
    have hrest := ih hbs
    rw [List.cons_append, placeAll_ok hs, placeAll_ok hs, hpast, hrest]
    simp only [List.append_assoc]
    cases (((l.past s).placeAll front).1.placeAll back).2.result with
    | error f => rfl
    | ok cs => rfl

/-! ### The statement at fault -/

/-- A statement that meets with a fault leaves the layout as it was, and nothing is noted. -/
theorem place_of_error (h : (l.place s).2.result = .error f) : l.place s = (l, .fail f) :=
  l.place_of_misplaced (result_place_eq_error_iff.mp h)

/-- So a walk leaves nothing of the statement at which it stops. -/
theorem placeAll_of_error (h : (l.place s).2.result = .error f) (ss : List Statement) :
    l.placeAll (s :: ss) = (l, ⟨[], .error f⟩) := by
  rw [placeAll_error h, place_of_error h]
  rfl

/-- Behind a first part that is placed, a walk stops at a statement that cannot be placed. -/
theorem stopsBefore_length {before : List Statement} (hb : ∀ t ∈ before, t.Placeable)
    (hs : s.Misplaced f) (after : List Statement) :
    l.StopsBefore (before ++ s :: after) before.length f := by
  obtain ⟨-, has⟩ := placeAll_of_placeable l hb
  have hwhole := placeAll_append has (s :: after)
  rw [placeAll_of_error (result_place_eq_error_iff.mpr hs)] at hwhole
  have htake : (before ++ s :: after).take before.length = before := List.take_left
  refine ⟨⟨_, htake.symm ▸ has⟩, ?_, ?_, s, ?_,
    placeAll_of_error (result_place_eq_error_iff.mpr hs) []⟩
  · rw [htake, hwhole]
  · rw [htake, hwhole]
    exact List.append_nil _
  · rw [List.getElem?_append_right (Nat.le_refl _), Nat.sub_self]
    rfl

/-- **A walk meets with a fault iff it stops before some statement with this fault.** -/
theorem result_placeAll_eq_error_iff_stops {ss : List Statement} :
    (l.placeAll ss).2.result = .error f ↔ ∃ k, l.StopsBefore ss k f := by
  constructor
  · intro h
    obtain ⟨before, s, after, rfl, hb, hs⟩ := result_placeAll_eq_error_iff.mp h
    have hplaceable : ∀ t ∈ before, t.Placeable := fun t ht =>
      Statement.placeable_iff.mpr (hb t ht)
    exact ⟨before.length, stopsBefore_length hplaceable hs after⟩
  · rintro ⟨k, ⟨as, has⟩, -, -, s, hk, hfault⟩
    obtain ⟨hlt, hget⟩ := List.getElem?_eq_some_iff.mp hk
    have hsplit : ss = ss.take k ++ s :: ss.drop (k + 1) := by
      rw [← hget, List.getElem_cons_drop, List.take_append_drop]
    have hs : s.Misplaced f := by
      have hone := congrArg (fun r => r.2.result) hfault
      obtain ⟨t, ht, hmis⟩ := (result_placeAll_eq_error_iff.mp hone).exists_mem
      rwa [List.mem_singleton.mp ht] at hmis
    have hwhole := placeAll_append has (s :: ss.drop (k + 1))
    rw [← hsplit, placeAll_of_error (result_place_eq_error_iff.mpr hs)] at hwhole
    rw [hwhole]
    rfl

end Layout

/-- **A walk that meets with a fault stops cleanly.** A walk over statements meets with a fault iff
it stops before one of them: those before it are placed, the layout and the notices are those that
the walk over them leaves, and from there that statement alone has this fault, with the layout as it
was and nothing noted. A walk without a fault may be cut anywhere: the first part is placed, and the
second one from the layout behind it; their addresses and notices follow one another, and the
layout behind both is that of the whole walk. -/
theorem walks_stop_cleanly (l : Layout) (ss : List Statement) :
    (∀ f, (l.placeAll ss).2.result = .error f ↔ ∃ k, l.StopsBefore ss k f) ∧
      ∀ as, (l.placeAll ss).2.result = .ok as → ∀ front back, ss = front ++ back →
        ∃ bs cs, (l.placeAll front).2.result = .ok bs ∧
          ((l.placeAll front).1.placeAll back).2.result = .ok cs ∧ as = bs ++ cs ∧
          (l.placeAll ss).1 = ((l.placeAll front).1.placeAll back).1 ∧
          (l.placeAll ss).2.notices =
            (l.placeAll front).2.notices ++ ((l.placeAll front).1.placeAll back).2.notices := by
  refine ⟨fun f => Layout.result_placeAll_eq_error_iff_stops, ?_⟩
  rintro as h front back rfl
  obtain ⟨hplaceable, -⟩ := Layout.result_placeAll_eq_ok_iff.mp h
  obtain ⟨-, hfront⟩ := Layout.placeAll_of_placeable l (List.forall_mem_append.mp hplaceable).1
  have hwhole := Layout.placeAll_append hfront back
  rw [hwhole] at h
  obtain ⟨cs, hcs, has⟩ := Except.map_eq_ok_iff.mp h
  exact ⟨_, cs, hfront, hcs, has.symm, by rw [hwhole], by rw [hwhole]⟩

/-- A label is there twice and an `.org` is cut and goes back, all of which is noted; then an `.org`
goes to a name, and the label behind it is not bound. Cut between the two labels, the statements
before are placed in two parts. -/
theorem walks_stop_cleanly_behind_warnings :
    ∃ (p : Position) (l : Layout) (front back : List Statement) (org label : Statement) (f : Fault),
      l = .start 0x210 ∧ front = [.label "x" p, .instruction "cls" [] p] ∧
      back = [.label "x" p, .directive "org" [⟨.address, .number 0x1200, p⟩] p] ∧
      org = .directive "org" [⟨.byte, .name "x", p⟩] p ∧ label = .label "y" p ∧
      (l.placeAll (front ++ back ++ [org, label])).2.result = .error f ∧
      (∃ k, l.StopsBefore (front ++ back ++ [org, label]) k f) ∧
      (l.placeAll (front ++ back)).2.result = .ok [0x210, 0x210, 0x212, 0x212] ∧
      ∃ bs cs, (l.placeAll front).2.result = .ok bs ∧
        ((l.placeAll front).1.placeAll back).2.result = .ok cs ∧
        [0x210, 0x210, 0x212, 0x212] = bs ++ cs ∧
        (l.placeAll (front ++ back)).1 = ((l.placeAll front).1.placeAll back).1 ∧
        (l.placeAll (front ++ back)).2.notices =
          (l.placeAll front).2.notices ++ ((l.placeAll front).1.placeAll back).2.notices := by
  refine ⟨.start "t", _, _, _, _, _, ⟨.start "t", .originName "x"⟩, rfl, rfl, rfl, rfl, rfl,
    by decide +kernel, ?_, by decide +kernel, ?_⟩
  · exact ((walks_stop_cleanly _ _).1 _).mp (by decide +kernel)
  · exact (walks_stop_cleanly _ _).2 _ (by decide +kernel) _ _ rfl

end Chip8
