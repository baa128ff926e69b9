/-
# Outcomes

Every step of the assembler has an outcome: the notices it raised, in order,
and a value or the fault that stopped it. Steps follow one another; the first
fault ends the row, and what was noted before it stays noted.

Key definitions: `Outcome`, `Outcome.fail`, `Outcome.raise`, `Outcome.ofExcept`.
Key theorems: `bind_ok`, `bind_error`, `notices_bind`, `result_bind`, the laws of a monad.
-/
import Chip8.Fault
import Chip8.Notice

namespace Chip8

/-- A step that can fail has a value iff both of its parts do. -/
theorem Except.bind_eq_ok_iff {ε α β : Type} {x : Except ε α} {f : α → Except ε β} {b : β} :
    x >>= f = .ok b ↔ ∃ a, x = .ok a ∧ f a = .ok b := by
  cases x <;> simp [bind, Except.bind]

/-- What a step noted, and its value or the fault that stopped it. -/
structure Outcome (α : Type) where
  notices : List Notice
  result : Except Fault α

namespace Outcome

variable {α β : Type}

/-- A value without a notice. -/
protected def pure (a : α) : Outcome α := ⟨[], .ok a⟩

/-- The second step runs on the value of the first, and its notices follow. -/
protected def bind (x : Outcome α) (f : α → Outcome β) : Outcome β :=
  match x.result with
  | .error e => ⟨x.notices, .error e⟩
  | .ok a => ⟨x.notices ++ (f a).notices, (f a).result⟩

/-- A step whose value is changed; it notes what it noted. -/
protected def map (f : α → β) (x : Outcome α) : Outcome β := ⟨x.notices, x.result.map f⟩

instance : Monad Outcome where
  pure := Outcome.pure
  bind := Outcome.bind
  map := Outcome.map

/-- A fault without a notice. -/
def fail (f : Fault) : Outcome α := ⟨[], .error f⟩

/-- A notice and nothing else. -/
def raise (n : Notice) : Outcome Unit := ⟨[n], .ok ()⟩

/-- A value or fault without a notice. -/
def ofExcept (r : Except Fault α) : Outcome α := ⟨[], r⟩

@[ext] theorem ext {x y : Outcome α} (hn : x.notices = y.notices) (hr : x.result = y.result) :
    x = y := by
  cases x
  cases y
  simp_all

@[simp] theorem notices_pure (a : α) : (pure a : Outcome α).notices = [] := rfl

@[simp] theorem result_pure (a : α) : (pure a : Outcome α).result = .ok a := rfl

@[simp] theorem notices_fail (f : Fault) : (fail f : Outcome α).notices = [] := rfl

@[simp] theorem result_fail (f : Fault) : (fail f : Outcome α).result = .error f := rfl

@[simp] theorem notices_raise (n : Notice) : (raise n).notices = [n] := rfl

@[simp] theorem result_raise (n : Notice) : (raise n).result = .ok () := rfl

@[simp] theorem notices_ofExcept (r : Except Fault α) : (ofExcept r).notices = [] := rfl

@[simp] theorem result_ofExcept (r : Except Fault α) : (ofExcept r).result = r := rfl

/-- After a value the next step runs. -/
theorem bind_ok {x : Outcome α} {a : α} (h : x.result = .ok a) (f : α → Outcome β) :
    x >>= f = ⟨x.notices ++ (f a).notices, (f a).result⟩ := by
  change Outcome.bind x f = _
  simp [Outcome.bind, h]

/-- After a fault no step runs. -/
theorem bind_error {x : Outcome α} {e : Fault} (h : x.result = .error e) (f : α → Outcome β) :
    x >>= f = ⟨x.notices, .error e⟩ := by
  change Outcome.bind x f = _
  simp [Outcome.bind, h]

@[simp] theorem result_bind (x : Outcome α) (f : α → Outcome β) :
    (x >>= f).result = x.result.bind fun a => (f a).result := by
  cases h : x.result with
  | error e => simp [bind_error h, Except.bind]
  | ok a => simp [bind_ok h, Except.bind]

/-- The notices of the first step, then those of the second if it ran. -/
theorem notices_bind (x : Outcome α) (f : α → Outcome β) :
    (x >>= f).notices =
      x.notices ++ match x.result with
        | .error _ => []
        | .ok a => (f a).notices := by
  cases h : x.result with
  | error e => simp [bind_error h]
  | ok a => simp [bind_ok h]

/-- A row of steps has a value iff all of its steps do. -/
theorem bind_eq_ok_iff {x : Outcome α} {f : α → Outcome β} {b : β} :
    (x >>= f).result = .ok b ↔ ∃ a, x.result = .ok a ∧ (f a).result = .ok b := by
  cases h : x.result <;> simp [h, Except.bind]

@[simp] theorem notices_map (f : α → β) (x : Outcome α) : (f <$> x).notices = x.notices := rfl

@[simp] theorem result_map (f : α → β) (x : Outcome α) : (f <$> x).result = x.result.map f := rfl

instance : LawfulMonad Outcome :=
  LawfulMonad.mk' Outcome
    (fun x => by cases h : x.result <;> ext <;> simp [h, Except.map])
    (fun _ _ => rfl)
    (fun x f g => by
      change Outcome.bind (Outcome.bind x f) g = Outcome.bind x fun a => Outcome.bind (f a) g
      cases hx : x.result with
      | error e => simp [Outcome.bind, hx]
      | ok a => cases hf : (f a).result <;> simp [Outcome.bind, hx, hf])
    (fun _ _ => rfl) (fun _ _ => rfl) (fun _ _ => rfl)
    (fun f x => by
      change Outcome.bind x _ = Outcome.map f x
      cases h : x.result <;> simp [Outcome.bind, Outcome.map, h, Except.map])

end Outcome
end Chip8
