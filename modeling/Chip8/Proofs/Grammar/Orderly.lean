/-
# Using a queue in order

A reader that begins with the row `ts` in front of `tail` uses the queue in order
(`Orderly`) if it takes a front part of `ts` and leaves the rest, finds `tail` behind a
last part of `ts` at every use, and notes only statements that took a token. Readers
that do so one behind another do so together (`Orderly.trans`); hence what is known of a
reader (`EndsAs`: it ends, in order, with the outcome of the same reader over rows)
follows from what is known of its parts (`EndsAs.bind`).

Key definitions: `Queue.Orderly`, `Queue.EndsAs`, `Queue.ReadsAs`.
Key theorems: `Orderly.trans`, `readsAs_of_access`, `EndsAs.bind`, `EndsAs.bind_ok`,
`ReadsAs.bind`.
-/
import Chip8.Proofs.Grammar.Queue

namespace Chip8
namespace Queue

variable {α β : Type} {tail ts mid rest : List Token}

/-! ### Running readers -/

theorem Reader.runFrom_pure (a : α) (s : State) : (pure a : Reader α).runFrom s = (.ok a, s) :=
  rfl

theorem Reader.runFrom_throw (h : Halt) (s : State) :
    (throw h : Reader α).runFrom s = (.error h, s) := rfl

theorem Reader.runFrom_get_bind (F : State → Reader β) (s : State) :
    (get >>= F).runFrom s = (F s).runFrom s := rfl

/-- The second reader begins where the first has ended with a value. -/
theorem Reader.runFrom_bind (X : Reader α) (F : α → Reader β) (s : State) :
    (X >>= F).runFrom s =
      match X.runFrom s with
      | (.ok a, s') => (F a).runFrom s'
      | (.error h, s') => (.error h, s') := by
  rw [runFrom, runFrom, ExceptT.run_bind, StateT.run_bind]
  obtain ⟨r, s'⟩ : Except Halt α × State := X.run.run s
  cases r <;> rfl

theorem taken_append (as bs : List Access) : taken (as ++ bs) = taken as ++ taken bs :=
  List.filterMap_append

/-! ### Order -/

/-- How a queue is used that begins with `ts` and goes on with `tail`. -/
structure Orderly (tail ts : List Token) (accesses : List Access) (calls : List Call)
    (rest : List Token) : Prop where
  /-- What was taken and what is left are the row. -/
  taken : ts = taken accesses ++ rest
  /-- Every use found `tail` at the end of the queue. -/
  accesses : ∀ a ∈ accesses, ∃ front, front <:+ ts ∧ a.queue = front ++ tail
  /-- Every statement took a token, and left `tail` where it was. -/
  calls : ∀ c ∈ calls, ∃ used front, used ≠ [] ∧ used ++ front <:+ ts ∧
    c.before = used ++ (front ++ tail) ∧ c.after = front ++ tail

namespace Orderly

variable {as bs : List Access} {cs ds : List Call}

/-- An unused queue. -/
theorem refl : Orderly tail ts [] [] ts := ⟨rfl, List.forall_mem_nil _, List.forall_mem_nil _⟩

/-- What is left is a last part of the row. -/
theorem suffix (h : Orderly tail ts as cs rest) : rest <:+ ts := ⟨_, h.taken.symm⟩

/-- Order on the way to `mid`, and on from there. -/
theorem trans (h : Orderly tail ts as cs mid) (h' : Orderly tail mid bs ds rest) :
    Orderly tail ts (as ++ bs) (cs ++ ds) rest where
  taken := by rw [taken_append, List.append_assoc, ← h'.taken, ← h.taken]
  accesses a ha := by
    obtain ha | ha := List.mem_append.mp ha
    · exact h.accesses a ha
    · obtain ⟨front, hfront, hqueue⟩ := h'.accesses a ha
      exact ⟨front, hfront.trans h.suffix, hqueue⟩
  calls c hc := by
    obtain hc | hc := List.mem_append.mp hc
    · exact h.calls c hc
    · obtain ⟨used, front, hne, hfront, hcall⟩ := h'.calls c hc
      exact ⟨used, front, hne, hfront.trans h.suffix, hcall⟩

/-- Order where the first token is used once. -/
theorem singleton {a : Access} (hqueue : a.queue = ts ++ tail)
    (htaken : ts = Queue.taken [a] ++ rest) : Orderly tail ts [a] [] rest where
  taken := htaken
  accesses b hb := by
    obtain rfl := List.mem_singleton.mp hb
    exact ⟨ts, List.suffix_rfl, hqueue⟩
  calls := List.forall_mem_nil _

/-- Where less is left than there was, what was taken may be noted as a statement. -/
theorem concat_call (h : Orderly tail ts as [] rest) (hlt : rest.length < ts.length)
    (s : Statement) : Orderly tail ts as [⟨s, ts ++ tail, rest ++ tail⟩] rest where
  taken := h.taken
  accesses := h.accesses
  calls c hc := by
    obtain rfl := List.mem_singleton.mp hc
    refine ⟨Queue.taken as, rest, ?_, ⟨[], h.taken.symm⟩, ?_, rfl⟩
    · intro hnil
      have hrest : ts = rest := by rw [h.taken, hnil, List.nil_append]
      exact absurd hlt (hrest ▸ Nat.lt_irrefl _)
    · rw [← List.append_assoc, ← h.taken]

end Orderly

/-! ### Readers that end in order -/

/-- Over the row `ts` in front of `tail`, the reader ends with the outcome `o` of reading the row,
and uses the queue in order. -/
def EndsAs (tail : List Token) (X : Reader α) (ts : List Token)
    (o : Outcome (α × List Token)) : Prop :=
  (∀ t ∈ ts, t.kind ≠ .endOfInput) → ∀ s : State, s.queue = ts ++ tail →
    ∃ accesses calls rest, Orderly tail ts accesses calls rest ∧
      X.runFrom s = ((o.result.map Prod.fst).mapError .fault,
        ⟨rest ++ tail, s.accesses ++ accesses, s.calls ++ calls⟩) ∧
      calls.map Call.notice = o.notices ∧ ∀ x, o.result = .ok x → x.2 = rest

/-- As `EndsAs`, where reading the row notes nothing. -/
abbrev ReadsAs (tail : List Token) (X : Reader α) (ts : List Token)
    (r : Except Fault (α × List Token)) : Prop :=
  EndsAs tail X ts (.ofExcept r)

theorem endsAs_pure (a : α) : EndsAs tail (pure a) ts (pure (a, ts)) := by
  intro _ s hs
  refine ⟨[], [], ts, Orderly.refl, ?_, rfl, ?_⟩
  · rw [Reader.runFrom_pure, List.append_nil, List.append_nil, ← hs]
    rfl
  · rintro x h
    cases h
    rfl

theorem endsAs_throw (f : Fault) : EndsAs tail (throw (.fault f) : Reader α) ts (.fail f) := by
  intro _ s hs
  refine ⟨[], [], ts, Orderly.refl, ?_, rfl, fun x h => nomatch h⟩
  rw [Reader.runFrom_throw, List.append_nil, List.append_nil, ← hs]
  rfl

/-- A reader that uses the first token once. -/
theorem readsAs_of_access {X : Reader α} {x : α} {a : Access} (hqueue : a.queue = ts ++ tail)
    (htaken : ts = taken [a] ++ rest)
    (hrun : ∀ s : State, s.queue = ts ++ tail →
      X.runFrom s = (.ok x, ⟨rest ++ tail, s.accesses ++ [a], s.calls⟩)) :
    ReadsAs tail X ts (.ok (x, rest)) := by
  intro _ s hs
  refine ⟨[a], [], rest, Orderly.singleton hqueue htaken, ?_, rfl, ?_⟩
  · rw [hrun s hs, List.append_nil]
    rfl
  · rintro y h
    cases h
    rfl

namespace EndsAs

variable {X : Reader α} {o : Outcome (α × List Token)}

/-- What follows a reader begins where it has ended. -/
theorem bind {F : α → Reader β} {p : α × List Token → Outcome (β × List Token)}
    (hX : EndsAs tail X ts o)
    (hF : ∀ a rest, o.result = .ok (a, rest) → EndsAs tail (F a) rest (p (a, rest))) :
    EndsAs tail (X >>= F) ts (o >>= p) := by
  intro hkinds s hs
  obtain ⟨as, cs, mid, horder, hrun, hnotices, hmid⟩ := hX hkinds s hs
  rw [Reader.runFrom_bind, hrun]
  cases hr : o.result with
  | error f =>
    rw [Outcome.bind_error hr]
    exact ⟨as, cs, mid, horder, rfl, hnotices, fun x h => nomatch h⟩
  | ok x =>
    obtain ⟨a, rest⟩ := x
    obtain rfl : rest = mid := hmid _ hr
    have hkinds' : ∀ t ∈ rest, t.kind ≠ .endOfInput :=
      fun t ht => hkinds t (horder.suffix.subset ht)
    obtain ⟨bs, ds, rest', horder', hrun', hnotices', hrest⟩ :=
      hF a rest hr hkinds' ⟨rest ++ tail, s.accesses ++ as, s.calls ++ cs⟩ rfl
    rw [Outcome.bind_ok hr]
    refine ⟨as ++ bs, cs ++ ds, rest', horder.trans horder', ?_, ?_, hrest⟩
    · rw [← List.append_assoc, ← List.append_assoc]
      exact hrun'
    · rw [List.map_append, hnotices, hnotices']

/-- A reader may ask for the queue. -/
theorem get_bind {F : State → Reader α}
    (hF : ∀ s : State, s.queue = ts ++ tail → EndsAs tail (F s) ts o) :
    EndsAs tail (get >>= F) ts o :=
  fun hkinds s hs => hF s hs hkinds s hs

theorem bind_ok {F : α → Reader β} {a : α} {p : Outcome (β × List Token)}
    (hX : ReadsAs tail X ts (.ok (a, rest))) (hF : EndsAs tail (F a) rest p) :
    EndsAs tail (X >>= F) ts p := by
  refine bind (p := fun _ => p) hX fun a' rest' h => ?_
  cases h
  exact hF

theorem bind_error {F : α → Reader β} {f : Fault} (hX : ReadsAs tail X ts (.error f)) :
    ReadsAs tail (X >>= F) ts (.error f) :=
  bind (p := fun _ => .fail f) hX fun _ _ h => nomatch h

/-- A reader whose value is changed. -/
theorem map (hX : EndsAs tail X ts o) (f : α → β) :
    EndsAs tail (do return f (← X)) ts ((fun (a, rest) => (f a, rest)) <$> o) := by
  rw [map_eq_pure_bind]
  exact hX.bind fun _ _ _ => endsAs_pure _

end EndsAs

theorem ReadsAs.bind {X : Reader α} {F : α → Reader β} {r : Except Fault (α × List Token)}
    {p : α × List Token → Except Fault (β × List Token)} (hX : ReadsAs tail X ts r)
    (hF : ∀ a rest, r = .ok (a, rest) → ReadsAs tail (F a) rest (p (a, rest))) :
    ReadsAs tail (X >>= F) ts (r >>= p) := by
  have h := EndsAs.bind (p := fun x => .ofExcept (p x)) hX hF
  cases r <;> exact h

end Queue
end Chip8
