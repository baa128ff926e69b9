/-
# Writing a file and reading it again

A path can be written if it leads to a place in a directory, and there is no
directory at the place (`Tree.Writable`). What is written can be read at the same
path, for a path that is written is followed to the same place when it is read, and
following it depends on directories alone, which writing leaves as they are. No other
place has another file than before.

Key definitions: `Tree.Writable`.
Key theorems: `Tree.write_eq_ok_iff`, `Tree.locate_of_target`, `Tree.locate_of_directories_eq`,
`Tree.read_of_write`.
-/
import Chip8.Command.Tree
import Chip8.Outcome

namespace Chip8
namespace Tree

variable {t u : Tree} {path : String} {content : List UInt8} {p here : Place}
  {part : String} {parts : List String}

/-- A file can be written at the path: it leads to a place in a directory, and the place itself is
no directory. -/
def Writable (t : Tree) (path : String) : Prop :=
  ∃ p, t.target path = .ok p ∧ t.isDirectory p = false

/-! ### Following paths -/

theorem requireDirectory_eq_ok_iff {a : Unit} :
    t.requireDirectory p = .ok a ↔ t.isDirectory p = true := by
  unfold requireDirectory
  by_cases hp : t.isDirectory p = true
  · simp [hp]
  · rw [if_neg hp]
    split <;> simp [hp]

theorem enter_eq_ok_iff : t.enter here part = .ok p ↔
    t.isDirectory here = true ∧ part.utf8ByteSize ≤ Path.nameLimit ∧ here.step part = p := by
  rw [enter, Except.bind_eq_ok_iff]
  simp only [requireDirectory_eq_ok_iff, exists_and_left, exists_const]
  refine and_congr_right fun _ => ?_
  by_cases hlong : Path.nameLimit < part.utf8ByteSize
  · simp [hlong, Nat.not_le.mpr hlong]
  · simp [hlong, Nat.not_lt.mp hlong]

theorem walk_cons_eq_ok_iff : t.walk here (part :: parts) = .ok p ↔
    ∃ next, t.enter here part = .ok next ∧ t.walk next parts = .ok p := by
  rw [walk, Except.bind_eq_ok_iff]

/-- The last part of a path is entered from where the other parts lead to. -/
theorem walk_concat_eq_ok_iff : t.walk here (parts ++ [part]) = .ok p ↔
    ∃ next, t.walk here parts = .ok next ∧ t.enter next part = .ok p := by
  induction parts generalizing here with
  | nil =>
    rw [List.nil_append, walk_cons_eq_ok_iff]
    simp [walk]
  | cons first parts ih =>
    simp only [List.cons_append, walk_cons_eq_ok_iff, ih]
    constructor
    · rintro ⟨middle, hfirst, next, hparts, hlast⟩
      exact ⟨next, ⟨middle, hfirst, hparts⟩, hlast⟩
    · rintro ⟨next, ⟨middle, hfirst, hparts⟩, hlast⟩
      exact ⟨middle, hfirst, next, hparts, hlast⟩

/-- Without empty parts at its end, a row of parts is its last part behind the others. -/
theorem parts_eq_concat {before : List String} {last : String} (hslash : parts.getLast? ≠ some "")
    (h : parts.reverse.dropWhile (· == "") = last :: before) :
    parts = before.reverse ++ [last] := by
  rw [← List.reverse_eq_cons_iff, ← h]
  cases hrow : parts.reverse with
  | nil => rfl
  | cons first rest =>
    rw [← List.head?_reverse, hrow] at hslash
    have hfirst : first ≠ "" := by simpa using hslash
    rw [List.dropWhile_cons_of_neg (by simpa using hfirst)]

/-- A path that is written is followed to the same place when it is read. -/
theorem locate_of_target (h : t.target path = .ok p) : t.locate path = .ok p := by
  unfold target at h
  unfold locate
  split at h
  · cases h
  · split at h
    · cases h
    · next hempty hlong =>
      rw [if_neg hempty, if_neg hlong]
      simp only at h
      split at h
      · cases h
      · next last before hparts =>
        obtain ⟨middle, hmiddle, h⟩ := Except.bind_eq_ok_iff.mp h
        obtain ⟨-, -, h⟩ := Except.bind_eq_ok_iff.mp h
        split at h
        · cases h
        · next hslash =>
          rw [parts_eq_concat hslash hparts]
          exact walk_concat_eq_ok_iff.mpr ⟨middle, hmiddle, h⟩

/-- Which directories there are decides where paths lead to. -/
theorem isDirectory_of_directories_eq (h : u.directories = t.directories) (p : Place) :
    u.isDirectory p = t.isDirectory p := by
  rw [isDirectory, isDirectory, h]

theorem walk_of_directories_eq (h : u.directories = t.directories)
    (hp : t.walk here parts = .ok p) : u.walk here parts = .ok p := by
  induction parts generalizing here with
  | nil => exact hp
  | cons part parts ih =>
    obtain ⟨next, henter, hwalk⟩ := walk_cons_eq_ok_iff.mp hp
    rw [enter_eq_ok_iff, ← isDirectory_of_directories_eq h] at henter
    exact walk_cons_eq_ok_iff.mpr ⟨next, enter_eq_ok_iff.mpr henter, ih hwalk⟩

theorem locate_of_directories_eq (h : u.directories = t.directories)
    (hp : t.locate path = .ok p) : u.locate path = .ok p := by
  unfold locate at hp ⊢
  split at hp
  · cases hp
  · split at hp
    · cases hp
    · next hempty hlong =>
      rw [if_neg hempty, if_neg hlong]
      exact walk_of_directories_eq h hp

/-! ### Writing -/

theorem write_eq_ok_iff : t.write path content = .ok u ↔
    ∃ p, t.target path = .ok p ∧ t.isDirectory p = false ∧
      u = { t with files := put p content t.files } := by
  rw [write, Except.bind_eq_ok_iff]
  refine exists_congr fun p => and_congr_right fun _ => ?_
  cases hp : t.isDirectory p <;> simp [eq_comm]

/-- What can be written does not depend on the content. -/
theorem writable_iff (content : List UInt8) :
    t.Writable path ↔ ∃ u, t.write path content = .ok u := by
  simp only [write_eq_ok_iff, Writable]
  constructor
  · rintro ⟨p, hp, hd⟩
    exact ⟨_, p, hp, hd, rfl⟩
  · rintro ⟨-, p, hp, hd, -⟩
    exact ⟨p, hp, hd⟩

/-- **What is written can be read**, at the same path and the same place, and nothing else is
changed: no other file, and no directory. -/
theorem read_of_write (h : t.write path content = .ok u) :
    u.read path = .ok content ∧ u.directories = t.directories ∧
      ∃ p, t.target path = .ok p ∧ u.file? p = some content ∧
        ∀ q, q ≠ p → u.file? q = t.file? q := by
  obtain ⟨p, hp, hd, hu⟩ := write_eq_ok_iff.mp h
  have hdirectories : u.directories = t.directories := by rw [hu]
  have hfile := file?_of_write hp h
  have hcontent : u.file? p = some content := (hfile p).trans (if_pos rfl)
  have hno : ¬u.isDirectory p = true := by
    rw [isDirectory_of_directories_eq hdirectories, hd]
    decide
  refine ⟨?_, hdirectories, p, hp, hcontent, fun q hq => (hfile q).trans (if_neg hq)⟩
  rw [read, Except.bind_eq_ok_iff]
  refine ⟨p, locate_of_directories_eq hdirectories (locate_of_target hp), ?_⟩
  rw [if_neg hno, hcontent]

end Tree
end Chip8
