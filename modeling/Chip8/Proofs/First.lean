/-
# The first complaint

A pass goes through a list and ends at the first member that it cannot accept.
`First c xs e` says that of the members of `xs` the first one with a complaint
complains of `e`. It does not depend on how the pass is written: a row of steps
and a replacement in place end with the same complaint if their steps do
(`result_mapM_eq_error_iff`, `replaceUntil_eq_some_iff`). There is a first
complaint iff some member has one (`exists_first_iff`).

Key definitions: `First`.
Key theorems: `first_cons_iff`, `exists_first_iff`, `first_congr`, `result_mapM_eq_ok_iff`,
`result_mapM_eq_error_iff`, `replaceUntil_eq_some_iff`, `replaceUntil_of_forall_none`,
`replaceUntil_map`.
-/
import Mathlib.Data.List.Forall2
import Chip8.Assembly.Resolve
import Chip8.Outcome

namespace Chip8

variable {α β ε : Type}

/-- The first member of `xs` with a complaint complains of `e`. -/
def First (c : α → ε → Prop) (xs : List α) (e : ε) : Prop :=
  ∃ before x after, xs = before ++ x :: after ∧ (∀ y ∈ before, ∀ d, ¬c y d) ∧ c x e

variable {c : α → ε → Prop}

theorem not_first_nil (e : ε) : ¬First c [] e := by
  rintro ⟨before, x, after, h, -⟩
  simp at h

theorem first_cons_iff {x : α} {xs : List α} {e : ε} :
    First c (x :: xs) e ↔ c x e ∨ (∀ d, ¬c x d) ∧ First c xs e := by
  constructor
  · rintro ⟨before, y, after, h, hb, hy⟩
    cases before with
    | nil =>
      obtain ⟨rfl, rfl⟩ := List.cons.inj h
      exact .inl hy
    | cons z before =>
      obtain ⟨rfl, rfl⟩ := List.cons.inj h
      exact .inr ⟨hb x (List.mem_cons_self ..), before, y, after, rfl,
        fun w hw => hb w (List.mem_cons_of_mem x hw), hy⟩
  · rintro (h | ⟨hx, before, y, after, rfl, hb, hy⟩)
    · exact ⟨[], x, xs, rfl, by simp, h⟩
    · refine ⟨x :: before, y, after, rfl, fun w hw => ?_, hy⟩
      rcases List.mem_cons.mp hw with rfl | hw
      · exact hx
      · exact hb w hw

/-- There is a first complaint iff there is a complaint. -/
theorem exists_first_iff : ∀ {xs : List α}, (∃ e, First c xs e) ↔ ∃ x ∈ xs, ∃ e, c x e
  | [] => by simp [not_first_nil]
  | x :: xs => by
    have ih := @exists_first_iff xs
    simp only [first_cons_iff, List.mem_cons, exists_eq_or_imp, ← ih]
    constructor
    · rintro ⟨e, h | ⟨-, h⟩⟩
      · exact .inl ⟨e, h⟩
      · exact .inr ⟨e, h⟩
    · rintro (⟨e, h⟩ | ⟨e, h⟩)
      · exact ⟨e, .inl h⟩
      · by_cases hx : ∃ d, c x d
        · obtain ⟨d, hd⟩ := hx
          exact ⟨d, .inl hd⟩
        · exact ⟨e, .inr ⟨not_exists.mp hx, h⟩⟩

theorem First.exists_mem {xs : List α} {e : ε} (h : First c xs e) : ∃ x ∈ xs, c x e := by
  obtain ⟨before, x, after, rfl, -, hx⟩ := h
  exact ⟨x, by simp, hx⟩

/-- Where not all members keep a rule, one is the first to break it. -/
theorem exists_first_of_not_forall {ok : α → Prop} {xs : List α} (hc : ∀ x, ok x ↔ ∀ e, ¬c x e)
    (h : ¬∀ x ∈ xs, ok x) : ∃ e, First c xs e := by
  rw [exists_first_iff]
  by_contra hno
  exact h fun x hx => (hc x).mpr fun e he => hno ⟨x, hx, e, he⟩

/-- Members that complain of the same have the same first complaint. -/
theorem first_congr {c' : α → ε → Prop} : ∀ {xs : List α}, (∀ x ∈ xs, ∀ d, c x d ↔ c' x d) →
    ∀ e, First c xs e ↔ First c' xs e
  | [], _, e => by simp [not_first_nil]
  | x :: xs, h, e => by
    obtain ⟨hx, hxs⟩ := List.forall_mem_cons.mp h
    simp only [first_cons_iff, hx, first_congr hxs e]

theorem first_map_iff {f : β → α} : ∀ {ys : List β} {e : ε},
    First c (ys.map f) e ↔ First (fun y => c (f y)) ys e
  | [], e => by simp [not_first_nil]
  | y :: ys, e => by simp only [List.map_cons, first_cons_iff, @first_map_iff f ys]

/-! ### A row of steps -/

namespace Outcome

variable {f : α → Outcome β}

theorem result_mapM_cons (x : α) (xs : List α) :
    ((x :: xs).mapM f).result =
      (f x).result.bind fun b => (xs.mapM f).result.map (b :: ·) := by
  rw [List.mapM_cons, result_bind]
  congr 1
  funext b
  rw [result_bind]
  cases (xs.mapM f).result <;> rfl

/-- A row of steps has a value iff each step does. -/
theorem result_mapM_eq_ok_iff : ∀ {xs : List α} {ys : List β},
    (xs.mapM f).result = .ok ys ↔ List.Forall₂ (fun x y => (f x).result = .ok y) xs ys
  | [], ys => by
    rw [List.mapM_nil, List.forall₂_nil_left_iff]
    exact ⟨fun h => (Except.ok.inj h).symm, fun h => h ▸ rfl⟩
  | x :: xs, ys => by
    rw [result_mapM_cons, List.forall₂_cons_left_iff]
    cases hx : (f x).result with
    | error d => simp [Except.bind]
    | ok b =>
      have ih := fun bs => @result_mapM_eq_ok_iff xs bs
      cases hxs : (xs.mapM f).result with
      | error d =>
        rw [hxs] at ih
        simp [Except.bind, Except.map, ← ih]
      | ok bs =>
        rw [hxs] at ih
        simp [Except.bind, Except.map, ← ih, eq_comm]

/-- A row of steps ends with the first fault. -/
theorem result_mapM_eq_error_iff : ∀ {xs : List α} {d : Fault},
    (xs.mapM f).result = .error d ↔ First (fun x d => (f x).result = .error d) xs d
  | [], d => by
    rw [List.mapM_nil]
    exact ⟨nofun, fun h => absurd h (not_first_nil d)⟩
  | x :: xs, d => by
    rw [result_mapM_cons, first_cons_iff, ← result_mapM_eq_error_iff]
    cases hx : (f x).result with
    | error d' => simp [Except.bind]
    | ok b => cases hxs : (xs.mapM f).result <;> simp [Except.bind, Except.map]

end Outcome

/-! ### Replacing in place -/

/-- A replacement ends with the first fault. -/
theorem replaceUntil_eq_some_iff {f : α → α × Option ε} : ∀ {xs : List α} {e : ε},
    (replaceUntil f xs).2 = some e ↔ First (fun x e => (f x).2 = some e) xs e
  | [], e => by simp [replaceUntil, not_first_nil]
  | x :: xs, e => by
    rw [first_cons_iff, ← replaceUntil_eq_some_iff]
    rcases hx : f x with ⟨y, _ | d⟩ <;> simp [replaceUntil, hx]

/-- Without a fault every member is replaced. -/
theorem replaceUntil_of_forall_none {f : α → α × Option ε} : ∀ {xs : List α},
    (∀ x ∈ xs, (f x).2 = none) → replaceUntil f xs = (xs.map fun x => (f x).1, none)
  | [], _ => rfl
  | x :: xs, h => by
    obtain ⟨hx, hxs⟩ := List.forall_mem_cons.mp h
    rcases hf : f x with ⟨y, e⟩
    rw [hf] at hx
    obtain rfl : e = none := hx
    simp [replaceUntil, hf, replaceUntil_of_forall_none hxs]

/-- What is replaced by `k'` behind a map is what is replaced by `k` and then mapped, if it is so
for each member. -/
theorem replaceUntil_map {δ : Type} {g : α → β} {h : ε → δ} {k : α → α × Option ε}
    {k' : β → β × Option δ} : ∀ {xs : List α},
      (∀ x ∈ xs, k' (g x) = (k x).map g (Option.map h)) →
        replaceUntil k' (xs.map g) = (replaceUntil k xs).map (List.map g) (Option.map h)
  | [], _ => rfl
  | x :: xs, hk => by
    obtain ⟨hx, hxs⟩ := List.forall_mem_cons.mp hk
    have ih := replaceUntil_map hxs
    rcases hkx : k x with ⟨y, _ | e⟩
    · rw [hkx] at hx
      simp [replaceUntil, hkx, hx, ih]
    · rw [hkx] at hx
      simp [replaceUntil, hkx, hx]

theorem replaceUntil_eq_none_iff {f : α → α × Option ε} {xs : List α} :
    (replaceUntil f xs).2 = none ↔ ∀ x ∈ xs, (f x).2 = none := by
  constructor
  · intro h x hx
    refine Option.eq_none_iff_forall_ne_some.mpr fun e he => ?_
    have hfirst : ∃ d, First (fun x e => (f x).2 = some e) xs d :=
      exists_first_iff.mpr ⟨x, hx, e, he⟩
    obtain ⟨d, hd⟩ := hfirst
    rw [replaceUntil_eq_some_iff.mpr hd] at h
    cases h
  · intro h
    rw [replaceUntil_of_forall_none h]

end Chip8
