/-
# Renaming labels

Label names are free: the assembler compares them with one another and with nothing
else. This module says what it is to give labels other names. The names of labels and
of operands are mapped (`Statement.renamed`); mnemonics and the names of directives are
words of the language and stay. What a step comes to is renamed along with it
(`Outcome.renamed`), and renaming goes through a row of steps (`renamed_bind`,
`renamed_mapM`).

A renamed table of symbols has the same bindings with the names mapped, but not in the
same order, since bindings of one address are listed by name; so it is the first table
put into another order (`Symbols.Renamed`). If no two names that occur become one,
looking up and binding go the same way in both (`Renamed.get?`, `Renamed.insert`).

Key definitions: `Statement.renamed`, `Fault.renamed`, `Outcome.renamed`, `Statement.names`,
`Symbols.Renamed`, `Distinguishes`.
Key theorems: `renamed_bind`, `renamed_mapM`, `Symbols.Renamed.get?`, `Symbols.Renamed.insert`.
-/
import Chip8.Proofs.Assembly.Place

namespace Chip8

variable (f : String → String)

/-- The value with its name mapped by `f`. -/
def Value.renamed : Value → Value
  | name x => name (f x)
  | v => v

/-- The operand with its name mapped by `f`. -/
def Operand.renamed (o : Operand) : Operand := { o with value := o.value.renamed f }

/-- The statement with the names of labels mapped by `f`, its own and those of its operands. -/
def Statement.renamed : Statement → Statement
  | label name p => label (f name) p
  | instruction mnemonic os p => instruction mnemonic (os.map (Operand.renamed f)) p
  | directive name os p => directive name (os.map (Operand.renamed f)) p

/-- The cause with the name of a label mapped by `f`. -/
def Fault.Cause.renamed : Cause → Cause
  | originName x => originName (f x)
  | unknownName x => unknownName (f x)
  | unresolvedName x => unresolvedName (f x)
  | c => c

/-- The fault, at the same place, with the name of a label mapped by `f`. -/
def Fault.renamed (e : Fault) : Fault := { e with cause := e.cause.renamed f }

/-- The notice with the names of labels mapped by `f`. -/
def Notice.renamed : Notice → Notice
  | redefined p name previous => redefined p (f name) previous
  | parsed s => parsed (s.renamed f)
  | n => n

/-- The same value, or the fault and the notices with the names of labels mapped by `f`. -/
def Outcome.renamed {α : Type} (x : Outcome α) : Outcome α :=
  ⟨x.notices.map (Notice.renamed f), x.result.mapError (Fault.renamed f)⟩

/-- The binding of the name that `f` gives. -/
def Binding.renamed (b : Binding) : Binding := { b with name := f b.name }

/-- The second table lists the bindings of the first one with names mapped by `f`, put into the
order of listing, which every table is in. -/
def Symbols.Renamed (s t : Symbols) : Prop := t.entries.Perm (s.entries.map (Binding.renamed f))

/-- No two of the names become one. -/
def Distinguishes (used : List String) : Prop := ∀ x ∈ used, ∀ y ∈ used, f x = f y → x = y

instance (used : List String) : Decidable (Distinguishes f used) := by
  unfold Distinguishes
  infer_instance

/-! ### The names that occur -/

/-- The name that the operand is, if it is one. -/
def Operand.name? (o : Operand) : Option String :=
  match o.value with
  | .name x => some x
  | _ => none

/-- The names of labels in a statement: that of the label, and those that operands are. -/
def Statement.names : Statement → List String
  | label name _ => [name]
  | instruction _ os _ => os.filterMap Operand.name?
  | directive _ os _ => os.filterMap Operand.name?

/-- The names of labels in a program. -/
def Program.names (ss : List Statement) : List String := ss.flatMap Statement.names

/-- The names that are bound. -/
def Symbols.names (s : Symbols) : List String := s.entries.map Binding.name

variable {f}

theorem Distinguishes.mono {used fewer : List String} (h : Distinguishes f used)
    (hsub : fewer ⊆ used) : Distinguishes f fewer :=
  fun x hx y hy => h x (hsub hx) y (hsub hy)

/-! ### Operands and statements -/

namespace Operand

variable {o : Operand}

@[simp] theorem kind_renamed (o : Operand) : (o.renamed f).kind = o.kind := rfl

theorem map_kind_renamed (os : List Operand) :
    (os.map (renamed f)).map kind = os.map kind := by
  rw [List.map_map]
  rfl

theorem name?_eq_some_iff {x : String} : o.name? = some x ↔ o.value = .name x := by
  unfold name?
  cases o.value <;> simp

end Operand

namespace Statement

theorem operands_renamed (s : Statement) :
    (s.renamed f).operands = s.operands.map (Operand.renamed f) := by
  cases s <;> rfl

theorem withOperands_renamed (s : Statement) (os : List Operand) :
    (s.renamed f).withOperands (os.map (Operand.renamed f)) = (s.withOperands os).renamed f := by
  cases s <;> rfl

theorem mem_names_iff {s : Statement} {x : String} :
    x ∈ s.names ↔ s.label? = some x ∨ ∃ o ∈ s.operands, o.value = .name x := by
  cases s <;> simp [names, label?, operands, Operand.name?_eq_some_iff, @eq_comm _ x]

end Statement

/-! ### Steps -/

namespace Outcome

variable {α β γ δ : Type}

@[simp] theorem renamed_pure (a : α) : (pure a : Outcome α).renamed f = pure a := rfl

@[simp] theorem renamed_map (k : α → β) (x : Outcome α) :
    (k <$> x).renamed f = k <$> x.renamed f := by
  ext
  · rfl
  · simp only [renamed, result_map]
    cases x.result <;> rfl

/-- Renaming goes through one step after another. -/
theorem renamed_bind (x : Outcome α) (k : α → Outcome β) :
    (x >>= k).renamed f = x.renamed f >>= fun a => (k a).renamed f := by
  cases hx : x.result with
  | error e =>
    have hrenamed : (x.renamed f).result = .error (e.renamed f) := by
      simp [renamed, hx, Except.mapError]
    rw [bind_error hx, bind_error hrenamed]
    rfl
  | ok a =>
    have hrenamed : (x.renamed f).result = .ok a := by simp [renamed, hx, Except.mapError]
    rw [bind_ok hx, bind_ok hrenamed]
    simp [renamed]

/-- Renaming goes through a row of steps. -/
theorem renamed_mapM {k : α → Outcome γ} {k' : β → Outcome γ} {g : α → β} : ∀ {xs : List α},
    (∀ x ∈ xs, k' (g x) = (k x).renamed f) → (xs.map g).mapM k' = (xs.mapM k).renamed f
  | [], _ => rfl
  | x :: xs, h => by
    obtain ⟨hx, hxs⟩ := List.forall_mem_cons.mp h
    simp only [List.map_cons, List.mapM_cons, hx, renamed_mapM hxs, renamed_bind, renamed_pure]

end Outcome

/-! ### Symbols -/

namespace Symbols

variable {s t : Symbols} {x : String}

theorem renamed_empty : Renamed f empty empty := .refl _

/-- A name is looked up as the name that `f` gives is in the renamed table. -/
theorem Renamed.get? (h : Renamed f s t) (hf : Distinguishes f (x :: s.names)) :
    t.get? (f x) = s.get? x := by
  apply Option.ext
  intro a
  rw [get?_eq_some_iff, get?_eq_some_iff, h.mem_iff, List.mem_map]
  constructor
  · rintro ⟨⟨y, a'⟩, hb, hrenamed⟩
    obtain ⟨hname, rfl⟩ := Binding.mk.inj hrenamed
    have hy : y ∈ s.names := List.mem_map_of_mem hb
    obtain rfl : y = x := hf y (List.mem_cons_of_mem x hy) x List.mem_cons_self hname
    exact hb
  · intro hb
    exact ⟨⟨x, a⟩, hb, rfl⟩

/-- Dropping the binding of a name can be done before renaming or behind it. -/
theorem without_map_renamed {es : List Binding}
    (hf : Distinguishes f (x :: es.map Binding.name)) :
    without (f x) (es.map (Binding.renamed f)) = (without x es).map (Binding.renamed f) := by
  rw [without, without, List.filter_map]
  congr 1
  refine List.filter_congr fun e he => ?_
  have hname : e.name ∈ es.map Binding.name := List.mem_map_of_mem he
  have hiff : f e.name = f x ↔ e.name = x :=
    ⟨hf e.name (List.mem_cons_of_mem x hname) x List.mem_cons_self, congrArg f⟩
  rw [Bool.eq_iff_iff]
  simp [Binding.renamed, hiff]

/-- Binding a name can be done before renaming or behind it. -/
theorem Renamed.insert (h : Renamed f s t) (hf : Distinguishes f (x :: s.names))
    (address : UInt32) : Renamed f (s.insert x address) (t.insert (f x) address) := by
  have hwithout := without_map_renamed hf
  calc (t.insert (f x) address).entries.Perm
        (⟨f x, address⟩ :: without (f x) t.entries) := perm_place _ _
    List.Perm _ (⟨f x, address⟩ :: without (f x) (s.entries.map (Binding.renamed f))) :=
      (h.filter _).cons _
    _ = (⟨x, address⟩ :: without x s.entries).map (Binding.renamed f) := by
      rw [hwithout]
      rfl
    List.Perm _ ((s.insert x address).entries.map (Binding.renamed f)) :=
      ((perm_place _ _).symm).map _

end Symbols
end Chip8
