/-
# Numerals

Numbers are read and written in two radices, decimal and hexadecimal. Reading
takes the digits of either case and any number of leading zeros; writing gives
upper-case digits with no more leading zeros than a width asks for. What is
written reads back as the same number (`value_digits`, `value_padded`), and
what is written consists of digits (`all_isDigit_digits`).

Key definitions: `Radix`, `Radix.isDigit`, `Radix.value`, `Radix.digits`,
`Radix.padded`, `word?`.
Key theorems: `Radix.value_digits`, `Radix.value_padded`, `Radix.all_isDigit_digits`.
-/

namespace Chip8

/-- The radices that numbers are written in. -/
inductive Radix where
  | decimal
  | hexadecimal
deriving DecidableEq

/-- The number a digit stands for; a letter counts from ten, in either case. -/
def digitValue (c : Char) : Nat :=
  if c.isDigit then c.toNat - '0'.toNat
  else if c.isUpper then c.toNat - 'A'.toNat + 10
  else c.toNat - 'a'.toNat + 10

/-- The digit for a number below sixteen, a letter in upper case. -/
def digitOf (n : Nat) : Char :=
  if n < 10 then Char.ofNat ('0'.toNat + n) else Char.ofNat ('A'.toNat + (n - 10))

/-- The number of a 32-bit word, if it fits. -/
def word? (n : Nat) : Option UInt32 := if n < UInt32.size then some (UInt32.ofNat n) else none

namespace Radix

/-- The number of digits of the radix. -/
def base : Radix → Nat
  | decimal => 10
  | hexadecimal => 16

/-- The name of the radix. -/
def name : Radix → String
  | decimal => "decimal"
  | hexadecimal => "hexadecimal"

/-- Whether a character is a digit of the radix. -/
def isDigit : Radix → Char → Bool
  | decimal, c => c.isDigit
  | hexadecimal, c => c.isDigit || ('a' ≤ c && c ≤ 'f') || ('A' ≤ c && c ≤ 'F')

/-- The number written by a run of digits, the highest first. -/
def value (r : Radix) (ds : List Char) : Nat := ds.foldl (fun n d => n * r.base + digitValue d) 0

theorem one_lt_base (r : Radix) : 1 < r.base := by cases r <;> decide

theorem base_le (r : Radix) : r.base ≤ 16 := by cases r <;> decide

/-- The digits of a number, the highest first and none to spare. -/
def digits (r : Radix) (n : Nat) : List Char :=
  if n < r.base then [digitOf n] else r.digits (n / r.base) ++ [digitOf (n % r.base)]
termination_by n
decreasing_by
  have := r.one_lt_base
  exact Nat.div_lt_self (by omega) this

/-- The digits of a number with zeros in front up to a width. -/
def padded (r : Radix) (width n : Nat) : List Char := (r.digits n).leftpad width '0'

/-! ### Reading back what is written -/

theorem digitValue_digitOf {n : Nat} (h : n < 16) : digitValue (digitOf n) = n := by
  have all : ∀ k ∈ List.range 16, digitValue (digitOf k) = k := by decide
  exact all n (List.mem_range.mpr h)

theorem isDigit_digitOf {r : Radix} {n : Nat} (h : n < r.base) : r.isDigit (digitOf n) = true := by
  cases r with
  | decimal =>
    have all : ∀ k ∈ List.range 10, decimal.isDigit (digitOf k) = true := by decide
    exact all n (List.mem_range.mpr h)
  | hexadecimal =>
    have all : ∀ k ∈ List.range 16, hexadecimal.isDigit (digitOf k) = true := by decide
    exact all n (List.mem_range.mpr h)

theorem value_nil (r : Radix) : r.value [] = 0 := rfl

theorem value_concat (r : Radix) (ds : List Char) (d : Char) :
    r.value (ds ++ [d]) = r.value ds * r.base + digitValue d := by
  simp [value]

/-- A number's digits read back as the number. -/
theorem value_digits (r : Radix) (n : Nat) : r.value (r.digits n) = n := by
  fun_induction digits r n with
  | case1 n h => simpa [value] using digitValue_digitOf (Nat.lt_of_lt_of_le h r.base_le)
  | case2 n h ih =>
    have hmod := Nat.mod_lt n (Nat.lt_of_succ_lt r.one_lt_base)
    rw [value_concat, ih, digitValue_digitOf (Nat.lt_of_lt_of_le hmod r.base_le), Nat.mul_comm]
    exact Nat.div_add_mod n r.base

theorem digits_ne_nil (r : Radix) (n : Nat) : r.digits n ≠ [] := by
  rw [digits]
  split <;> simp

theorem all_isDigit_digits (r : Radix) (n : Nat) : ∀ d ∈ r.digits n, r.isDigit d = true := by
  fun_induction digits r n with
  | case1 n h => simpa using isDigit_digitOf h
  | case2 n h ih =>
    intro d hd
    rcases List.mem_append.mp hd with hd | hd
    · exact ih d hd
    · rw [List.mem_singleton.mp hd]
      exact isDigit_digitOf (Nat.mod_lt n (Nat.lt_of_succ_lt r.one_lt_base))

/-- Zeros in front of a number do not change it. -/
theorem value_replicate_zero (r : Radix) (ds : List Char) :
    ∀ k, r.value (List.replicate k '0' ++ ds) = r.value ds
  | 0 => rfl
  | k + 1 => by
    have ih := value_replicate_zero r ds k
    have h0 : digitValue '0' = 0 := by decide
    simpa [List.replicate_succ, value, h0] using ih

/-- A padded number reads back as the number. -/
theorem value_padded (r : Radix) (width n : Nat) : r.value (r.padded width n) = n := by
  rw [padded, List.leftpad, value_replicate_zero, value_digits]

end Radix

/-- A number in decimal digits. -/
def decimal (n : Nat) : String := String.ofList (Radix.decimal.digits n)

/-- A number in hexadecimal digits, at least `width` of them. -/
def hex (width n : Nat) : String := String.ofList (Radix.hexadecimal.padded width n)

end Chip8
