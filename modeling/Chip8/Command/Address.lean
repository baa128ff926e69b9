/-
# Addresses on the command line

An address is given in decimal, or in hexadecimal behind `#` or `0x`. One plus
sign may stand before the digits. The digits are read from the left, and the
first thing wrong counts: a character that is no digit, or a number that no
longer fits in 32 bits.

Key definitions: `AddressFault`, `readDigits`, `readAddress`.
-/
import Chip8.Text.Numeral

namespace Chip8

/-- What can be wrong with an address. -/
inductive AddressFault where
  | empty
  | badDigit
  | tooLarge
deriving DecidableEq

/-- The wording of an address fault. -/
def AddressFault.message : AddressFault → String
  | empty => "cannot parse integer from empty string"
  | badDigit => "invalid digit found in string"
  | tooLarge => "number too large to fit in target type"

/-- Reads digits behind the number `n`, as long as it fits. -/
def readDigits (radix : Radix) (n : Nat) : List Char → Except AddressFault UInt32
  | [] => .ok (UInt32.ofNat n)
  | d :: ds =>
    if radix.isDigit d then
      let n := n * radix.base + digitValue d
      if n < UInt32.size then readDigits radix n ds else .error .tooLarge
    else .error .badDigit

/-- Reads digits that may have a plus sign before them. -/
def readSigned (radix : Radix) : List Char → Except AddressFault UInt32
  | [] => .error .empty
  | ['+'] => .error .badDigit
  | '+' :: ds => readDigits radix 0 ds
  | ds => readDigits radix 0 ds

/-- Reads an address. -/
def readAddress (text : String) : Except AddressFault UInt32 :=
  match text.toList with
  | '#' :: ds => readSigned .hexadecimal ds
  | '0' :: 'x' :: ds => readSigned .hexadecimal ds
  | '0' :: 'X' :: ds => readSigned .hexadecimal ds
  | ds => readSigned .decimal ds

end Chip8
