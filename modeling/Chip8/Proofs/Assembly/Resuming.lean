/-
# Resolving that is interrupted

Resolving goes through the operands in order and changes them in place. A name that
nothing is bound to ends it, and what it leaves is a program of two parts: the operands
before that name are replaced, and it and those behind it are as they were
(`Program.Interrupted`). With a table that binds more, resolving can be taken up again on
what is left, and comes to the same program and the same end as resolving once with that
table. For where the first run replaced an operand, the second finds nothing more to do;
and it never ends earlier than the first, so what it finds behind its own end no run has
touched (`replaceUntil_replaceUntil`).

Key definitions: `Operand.Resolves`, `Statement.Resolves`, `Program.Interrupted`.
Key theorems: `replaceUntil_replaceUntil`, `replaceUntil_eq_some_iff_parts`,
`Program.resolve_resolve`, `Program.resolve_eq_some_iff_interrupted`,
`resolving_can_be_resumed`.
-/
import Chip8.Proofs.Assembly.Passes
import Chip8.Proofs.Joining.Programs

namespace Chip8

/-- The second operand is the first one, its name replaced by the address that it is bound to. -/
inductive Operand.Resolves (symbols : Symbols) : Operand → Operand → Prop where
  | name {kind : Operand.Kind} {x : String} {p : Position} {address : UInt32}
      (h : symbols.get? x = some address) :
      Resolves symbols ⟨kind, .name x, p⟩ ⟨kind, .number address, p⟩
  | literal {o : Operand} (h : o.Literal) : Resolves symbols o o

/-- The second statement is the first one, the names in its operands replaced. -/
inductive Statement.Resolves (symbols : Symbols) : Statement → Statement → Prop where
  | intro {s : Statement} {os : List Operand}
      (h : List.Forall₂ (Operand.Resolves symbols) s.operands os) :
      Resolves symbols s (s.withOperands os)

/-- Resolving the first program ended at the first operand that nothing is bound to, as `f` says.
In the second program the operands before that one are replaced; it and those behind it stayed. -/
inductive Program.Interrupted (symbols : Symbols) :
    List Statement → List Statement → Fault → Prop where
  | intro {before before' after : List Statement} {s : Statement} {os os' rest : List Operand}
      {o : Operand} {f : Fault} (hbefore : List.Forall₂ (Statement.Resolves symbols) before before')
      (hs : s.operands = os ++ o :: rest) (hos : List.Forall₂ (Operand.Resolves symbols) os os')
      (ho : o.Unbound symbols f) :
      Interrupted symbols (before ++ s :: after)
        (before' ++ s.withOperands (os' ++ o :: rest) :: after) f

/-! ### Replacing in place -/

section Replacing

variable {α ε : Type} {f g : α → α × Option ε}

/-- Let `g` do to a member what it does to the member that `f` replaced, and be content where `f`
is. Then replacing with `f` first makes no difference, wherever that ends. -/
theorem replaceUntil_replaceUntil (hsame : ∀ a, g (f a).1 = g a)
    (hnone : ∀ a, (f a).2 = none → (g a).2 = none) :
    ∀ as : List α, replaceUntil g (replaceUntil f as).1 = replaceUntil g as
  | [] => rfl
  | a :: as => by
    have ha := hsame a
    rcases hf : f a with ⟨b, _ | e⟩
    · -- `f` goes on, and so does `g`.
      have hg : (g a).2 = none := hnone a (by rw [hf])
      have ih := replaceUntil_replaceUntil hsame hnone as
      rw [hf] at ha
      rcases hga : g a with ⟨c, _ | e⟩
      · simp [replaceUntil, hf, ha, hga, ih]
      · simp [hga] at hg
    · -- `f` ends here, so `g` finds the members behind as they were.
      rw [hf] at ha
      have hb : g b = g a := ha
      simp [replaceUntil, hf, hb]

/-- Without a fault every member is replaced. -/
theorem replaceUntil_eq_none_iff_forall₂ : ∀ {xs ys : List α},
    replaceUntil f xs = (ys, none) ↔ List.Forall₂ (fun x y => f x = (y, none)) xs ys
  | [], ys => by simp [replaceUntil, eq_comm]
  | x :: xs, ys => by
    rw [List.forall₂_cons_left_iff]
    rcases hf : f x with ⟨y, _ | e⟩
    · have ih := fun zs => @replaceUntil_eq_none_iff_forall₂ xs zs
      rcases hrest : replaceUntil f xs with ⟨zs, d⟩
      simp only [replaceUntil, hf, hrest, Prod.mk.injEq] at ih ⊢
      constructor
      · rintro ⟨rfl, hd⟩
        exact ⟨y, zs, ⟨rfl, trivial⟩, (ih zs).mp ⟨rfl, hd⟩, rfl⟩
      · rintro ⟨z, zs', ⟨rfl, -⟩, hzs, rfl⟩
        obtain ⟨rfl, hd⟩ := (ih zs').mpr hzs
        exact ⟨rfl, hd⟩
    · simp [replaceUntil, hf]

/-- A fault ends the replacing: the members before are replaced, and those behind stay. -/
theorem replaceUntil_eq_some_iff_parts : ∀ {xs ys : List α} {e : ε},
    replaceUntil f xs = (ys, some e) ↔ ∃ before before' x y after,
      xs = before ++ x :: after ∧ ys = before' ++ y :: after ∧
        List.Forall₂ (fun x y => f x = (y, none)) before before' ∧ f x = (y, some e)
  | [], ys, e => by simp [replaceUntil]
  | x :: xs, ys, e => by
    rcases hf : f x with ⟨y, _ | d⟩
    · rcases hrest : replaceUntil f xs with ⟨zs, d⟩
      have ih := fun zs => @replaceUntil_eq_some_iff_parts xs zs e
      simp only [replaceUntil, hf, hrest, Prod.mk.injEq] at ih ⊢
      constructor
      · rintro ⟨rfl, hd⟩
        obtain ⟨before, before', x', y', after, rfl, rfl, hbefore, hx⟩ := (ih zs).mp ⟨rfl, hd⟩
        exact ⟨x :: before, y :: before', x', y', after, rfl, rfl, .cons hf hbefore, hx⟩
      · rintro ⟨before, before', x', y', after, hxs, rfl, hbefore, hx⟩
        cases hbefore with
        | nil =>
          obtain ⟨rfl, rfl⟩ := List.cons.inj hxs
          rw [hf] at hx
          simp at hx
        | @cons z z' before before' hz hbefore =>
          obtain ⟨rfl, rfl⟩ := List.cons.inj hxs
          rw [hf] at hz
          obtain ⟨rfl, -⟩ := Prod.mk.inj hz
          obtain ⟨hzs, hd⟩ := (ih (before' ++ y' :: after)).mpr
            ⟨before, before', x', y', after, rfl, rfl, hbefore, hx⟩
          exact ⟨by rw [hzs]; rfl, hd⟩
    · simp only [replaceUntil, hf, Prod.mk.injEq, Option.some.injEq]
      constructor
      · rintro ⟨rfl, rfl⟩
        exact ⟨[], [], x, y, xs, rfl, rfl, .nil, hf⟩
      · rintro ⟨before, before', x', y', after, hxs, rfl, hbefore, hx⟩
        cases hbefore with
        | nil =>
          obtain ⟨rfl, rfl⟩ := List.cons.inj hxs
          rw [hf] at hx
          obtain ⟨rfl, hd⟩ := Prod.mk.inj hx
          exact ⟨rfl, Option.some.inj hd⟩
        | cons hz _ =>
          obtain ⟨rfl, -⟩ := List.cons.inj hxs
          rw [hf] at hz
          simp at hz

end Replacing

variable {symbols more : Symbols}

/-! ### What is left -/

namespace Operand

variable {o o' : Operand} {f : Fault}

theorem resolve_eq_none_iff_resolves : o.resolve symbols = (o', none) ↔ Resolves symbols o o' := by
  obtain ⟨kind, value, p⟩ := o
  constructor
  · intro h
    cases value with
    | name x =>
      cases hx : symbols.get? x with
      | none => simp [resolve, hx] at h
      | some address =>
        obtain rfl : _ = o' := by simpa [resolve, hx] using h
        exact .name hx
    | number n =>
      obtain rfl : _ = o' := by simpa [resolve] using h
      exact .literal (by simp [Literal])
    | absent =>
      obtain rfl : _ = o' := by simpa [resolve] using h
      exact .literal (by simp [Literal])
  · intro h
    cases h with
    | name hx => simp [resolve, hx]
    | literal hl =>
      cases value with
      | name x => exact absurd rfl (hl x)
      | number n => rfl
      | absent => rfl

theorem resolve_eq_some_iff_unbound :
    o.resolve symbols = (o', some f) ↔ o' = o ∧ o.Unbound symbols f := by
  rw [← resolve_eq_some_iff]
  unfold resolve
  split
  · cases symbols.get? _ <;> simp [eq_comm]
  · simp

end Operand

namespace Statement

variable {s s' : Statement} {f : Fault}

theorem resolve_eq_none_iff_resolves :
    s.resolve symbols = (s', none) ↔ Resolves symbols s s' := by
  have hparts := fun os => @replaceUntil_eq_none_iff_forall₂ _ _ (Operand.resolve symbols)
    s.operands os
  simp only [Operand.resolve_eq_none_iff_resolves] at hparts
  rcases hos : replaceUntil (Operand.resolve symbols) s.operands with ⟨os, e⟩
  rw [hos] at hparts
  simp only [resolve, hos, Prod.mk.injEq] at hparts ⊢
  constructor
  · rintro ⟨rfl, he⟩
    exact .intro ((hparts os).mp ⟨rfl, he⟩)
  · rintro ⟨h⟩
    obtain ⟨rfl, he⟩ := (hparts _).mpr h
    exact ⟨rfl, he⟩

/-- A statement is left with the operands before the first one that is not bound replaced. -/
theorem resolve_eq_some_iff_parts : s.resolve symbols = (s', some f) ↔
    ∃ os os' o rest, s.operands = os ++ o :: rest ∧ s' = s.withOperands (os' ++ o :: rest) ∧
      List.Forall₂ (Operand.Resolves symbols) os os' ∧ o.Unbound symbols f := by
  have hparts := fun os => @replaceUntil_eq_some_iff_parts _ _ (Operand.resolve symbols)
    s.operands os f
  simp only [Operand.resolve_eq_none_iff_resolves, Operand.resolve_eq_some_iff_unbound] at hparts
  rcases hos : replaceUntil (Operand.resolve symbols) s.operands with ⟨os, e⟩
  rw [hos] at hparts
  simp only [resolve, hos, Prod.mk.injEq] at hparts ⊢
  constructor
  · rintro ⟨rfl, he⟩
    obtain ⟨before, before', o, o', rest, h, rfl, hbefore, rfl, ho⟩ := (hparts os).mp ⟨rfl, he⟩
    exact ⟨before, before', o', rest, h, rfl, hbefore, ho⟩
  · rintro ⟨before, before', o, rest, h, rfl, hbefore, ho⟩
    obtain ⟨rfl, he⟩ := (hparts _).mpr ⟨before, before', o, o, rest, h, rfl, hbefore, rfl, ho⟩
    exact ⟨rfl, he⟩

end Statement

/-- **What an interrupted run leaves.** It ends at the first operand that nothing is bound to, with
those before replaced and the others as they were. -/
theorem Program.resolve_eq_some_iff_interrupted {ss ts : List Statement} {f : Fault} :
    resolve symbols ss = (ts, some f) ↔ Interrupted symbols ss ts f := by
  rw [resolve, replaceUntil_eq_some_iff_parts]
  simp only [Statement.resolve_eq_none_iff_resolves, Statement.resolve_eq_some_iff_parts]
  constructor
  · rintro ⟨before, before', s, -, after, rfl, rfl, hbefore, os, os', o, rest, hs, rfl, hos, ho⟩
    exact .intro hbefore hs hos ho
  · rintro ⟨hbefore, hs, hos, ho⟩
    exact ⟨_, _, _, _, _, rfl, rfl, hbefore, _, _, _, _, hs, rfl, hos, ho⟩

/-! ### Taking it up again -/

section Resuming

variable (h : more.Extends symbols)

include h

/-- An operand that is replaced again was replaced right, or is as it was. -/
theorem Operand.resolve_resolve (o : Operand) :
    (o.resolve symbols).1.resolve more = o.resolve more := by
  rcases resolve_cases symbols o with hsame | ⟨x, address, hx, hg, hnew⟩
  · rw [hsame]
  · have hmore := h x address hg
    rw [hnew]
    simp [resolve, hx, hmore]

theorem Operand.resolve_eq_none_of_extends (o : Operand) (ho : (o.resolve symbols).2 = none) :
    (o.resolve more).2 = none :=
  resolve_eq_none_iff.mpr (resolved_of_extends h (resolve_eq_none_iff.mp ho)).1

theorem Statement.resolve_resolve (s : Statement) :
    (s.resolve symbols).1.resolve more = s.resolve more := by
  have hos := replaceUntil_replaceUntil (Operand.resolve_resolve h)
    (Operand.resolve_eq_none_of_extends h) s.operands
  rw [resolve, operands_resolve, hos]
  cases s <;> rfl

theorem Statement.resolve_eq_none_of_extends (s : Statement) (hs : (s.resolve symbols).2 = none) :
    (s.resolve more).2 = none :=
  resolve_eq_none_iff.mpr (resolved_of_extends h (resolve_eq_none_iff.mp hs)).1

/-- A program that was resolved as far as it went is resolved further as if from the start. -/
theorem Program.resolve_resolve (ss : List Statement) :
    resolve more (resolve symbols ss).1 = resolve more ss :=
  replaceUntil_replaceUntil (Statement.resolve_resolve h) (Statement.resolve_eq_none_of_extends h)
    ss

/-- **Resolving can be resumed.** Let a table bind what another one binds, and maybe more. Resolving
with the smaller table, whether it meets with a fault or not, and then with the larger one on what
that leaves, comes to the same program and the same end as resolving with the larger one alone. And
the smaller table meets with a fault iff there is an operand that nothing is bound to: at the first
one, with the operands before it replaced, and it and those behind it as they were. -/
theorem resolving_can_be_resumed (ss : List Statement) :
    Program.resolve more (Program.resolve symbols ss).1 = Program.resolve more ss ∧
      ∀ ts f, Program.resolve symbols ss = (ts, some f) ↔ Program.Interrupted symbols ss ts f :=
  ⟨Program.resolve_resolve h ss, fun _ _ => Program.resolve_eq_some_iff_interrupted⟩

end Resuming

/-- A sprite is drawn at two names, and only the first one is bound yet. So the run ends in the
middle of a statement, and the same name behind that place is still a name. Once the other one is
bound too, the second run replaces what is left. -/
theorem resolving_can_be_resumed_midway :
    ∃ (symbols more : Symbols) (ss ts : List Statement) (p : Position),
      ss = [.instruction "drw" [⟨.register, .name "x", p⟩, ⟨.register, .name "y", p⟩,
        ⟨.nibble, .name "x", p⟩] p, .directive "db" [⟨.byte, .name "x", p⟩] p] ∧
      ts = [.instruction "drw" [⟨.register, .number 512, p⟩, ⟨.register, .name "y", p⟩,
        ⟨.nibble, .name "x", p⟩] p, .directive "db" [⟨.byte, .name "x", p⟩] p] ∧
      more.Extends symbols ∧ Program.resolve symbols ss = (ts, some ⟨p, .unknownName "y"⟩) ∧
      (Program.resolve more ss).2 = none ∧ Program.resolve more ts = Program.resolve more ss ∧
      Program.Interrupted symbols ss ts ⟨p, .unknownName "y"⟩ := by
  have hextends : ((Symbols.empty.insert "x" 512).insert "y" 514).Extends
      (Symbols.empty.insert "x" 512) := by
    intro name address h
    by_cases hy : name = "y"
    · subst hy
      have hnone : (Symbols.empty.insert "x" 512).get? "y" = none := by decide +kernel
      rw [hnone] at h
      cases h
    · rw [Symbols.get?_insert, if_neg hy, h]
  have hmidway : ∀ ss ts f, Program.resolve (.insert .empty "x" 512) ss = (ts, some f) →
      Program.resolve (.insert (.insert .empty "x" 512) "y" 514) ts =
        Program.resolve (.insert (.insert .empty "x" 512) "y" 514) ss ∧
      Program.Interrupted (.insert .empty "x" 512) ss ts f := by
    intro ss ts f h
    obtain ⟨hresumed, hends⟩ := resolving_can_be_resumed hextends ss
    rw [h] at hresumed
    exact ⟨hresumed, (hends ts f).mp h⟩
  exact ⟨_, _, _, _, .start "t", rfl, rfl, hextends, by decide +kernel, by decide +kernel,
    hmidway _ _ _ (by decide +kernel)⟩

end Chip8
