/-
# Ranges of code points

A class of characters is written as closed ranges of code points. A character
is in the class if its code point lies in one of them (`Ranges.has_iff`).

Key definitions: `Ranges`, `Ranges.has`, `Ranges.hasHead`.
Key theorems: `Ranges.has_iff`, `Ranges.has_of_lt`.
-/

namespace Chip8

/-- Closed ranges of code points, each given by its two ends. -/
abbrev Ranges := List (Nat × Nat)

namespace Ranges

/-- Whether a code point lies in one of the ranges. -/
def has : Ranges → Nat → Bool
  | [], _ => false
  | (lo, hi) :: rs, n => (decide (lo ≤ n) && decide (n ≤ hi)) || has rs n

theorem has_iff : ∀ (rs : Ranges) (n : Nat), rs.has n = true ↔ ∃ r ∈ rs, r.1 ≤ n ∧ n ≤ r.2
  | [], n => by simp [has]
  | r :: rs, n => by simp [has, has_iff rs n]

/-- A code point in front of every range is in none. -/
theorem has_of_lt (rs : Ranges) {k n : Nat} (hk : ∀ r ∈ rs, k ≤ r.1) (hn : n < k) :
    rs.has n = false := by
  rw [← Bool.not_eq_true, has_iff]
  rintro ⟨r, hr, hlo, -⟩
  exact Nat.lt_irrefl n (Nat.lt_of_lt_of_le hn (Nat.le_trans (hk r hr) hlo))

/-- Whether the first of some characters lies in one of the ranges. -/
def hasHead (rs : Ranges) : List Char → Bool
  | [] => false
  | c :: _ => rs.has c.toNat

theorem hasHead_append_cons (rs : Ranges) {d : Char} (h : rs.has d.toNat = false) :
    ∀ cs ds : List Char, rs.hasHead (cs ++ d :: ds) = rs.hasHead cs
  | [], _ => h
  | _ :: _, _ => rfl

end Ranges
end Chip8
