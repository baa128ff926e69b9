/-
# Numbers in programs and on the command line

A program writes a number in decimal digits, or in hexadecimal ones behind a `#`, with any
number of zeros in front, and it has to fit in 32 bits (`IsNumeral`). The command line reads
addresses by rules of its own: it allows `0x` for `#` and a plus sign, and it gives up at the
first digit with which the number no longer fits. As more digits never make a number smaller
(`Radix.le_valueFrom`), giving up early and looking at the whole number come to the same
(`readDigits_eq_ok_iff`). So all that is written as a number in a program is the same number
on the command line, and all that the command line reads besides has a plus sign or a `0x`.

Key definitions: `Radix.Denotes`, `IsNumeral`, `Token.IsNumberAlone`, `Radix.valueFrom`,
`addressMarks`.
Key theorems: `isNumberAlone_iff_isNumeral`, `Radix.le_valueFrom`, `readDigits_eq_ok_iff`,
`readSigned_eq_ok_iff`, `readAddress_eq_ok_iff`, `number_syntaxes_agree`.
-/
import Chip8.Command.Address
import Chip8.Proofs.Splitting.Lossless

namespace Chip8

/-- The row is one of digits, at least one, and its number is `n`. -/
structure Radix.Denotes (radix : Radix) (ds : List Char) (n : UInt32) : Prop where
  some_digit : ds ≠ []
  digits : ∀ d ∈ ds, radix.isDigit d = true
  value : radix.value ds = n.toNat

/-- The text is decimal digits, or hexadecimal digits behind a `#`, whose number is `n`. -/
def IsNumeral (text : String) (n : UInt32) : Prop :=
  ∃ (radix : Radix) (ds : List Char), text.toList = radix.mark ++ ds ∧ radix.Denotes ds n

/-- The text is split into one token, which is all of the text and the number `n`, and the end of
the input. -/
def Token.IsNumberAlone (source text : String) (n : UInt32) : Prop :=
  ∃ ts, (tokenize source text).result = .ok ts ∧
    ts.map toLexeme = [⟨.number n, text⟩, .endOfInput]

/-- What may be written in front of the digits of an address and their sign, and the radix that it
is for. -/
def addressMarks : List (List Char × Radix) :=
  [([], .decimal), (['#'], .hexadecimal), (['0', 'x'], .hexadecimal), (['0', 'X'], .hexadecimal)]

variable {source text : String} {n : UInt32}

/-! ### In a program -/

/-- A number that is as long as it can be is written in digits of its radix. -/
theorem Lexeme.Longest.isNumeral {rest : List Char}
    (h : Lexeme.Longest ⟨.number n, text⟩ rest) : IsNumeral text n := by
  generalize hl : (⟨.number n, text⟩ : Lexeme) = l at h
  cases h with
  | @word w rest hw ends =>
    have hkind : Token.Kind.number n = .ofWord w := congrArg Lexeme.kind hl
    rcases Token.Kind.ofWord_cases w with hw | hw | hw
    all_goals rw [hw] at hkind; cases hkind
  | @number radix ds rest m digits some_digit value ends =>
    obtain ⟨hkind, rfl⟩ := Lexeme.mk.inj hl
    cases hkind
    exact ⟨radix, ds, String.toList_ofList, some_digit, digits, value⟩
  | symbol hc => exact absurd (congrArg Lexeme.kind hl) nofun

theorem IsNumeral.longest (h : IsNumeral text n) : Lexeme.Longest ⟨.number n, text⟩ [] := by
  obtain ⟨radix, ds, htext, some_digit, digits, value⟩ := h
  have hlongest : Lexeme.Longest ⟨.number n, String.ofList (radix.mark ++ ds)⟩ [] :=
    .number radix digits some_digit value nofun
  rwa [← htext, String.ofList_toList] at hlongest

/-- A text is split into a number and nothing else iff it is a numeral. -/
theorem isNumberAlone_iff_isNumeral : Token.IsNumberAlone source text n ↔ IsNumeral text n := by
  constructor
  · rintro ⟨ts, hts, hsay⟩
    rw [Token.result_tokenize, Token.scan_eq_ok_iff_splits] at hts
    generalize hchars : text.toList = cs at hts
    cases hts with
    | done skipped position => simp at hsay
    | @token _ gap rest t ts skipped position longest more =>
      obtain ⟨ht, -⟩ := List.cons.inj hsay
      rw [ht] at longest
      exact longest.isNumeral
  · intro h
    obtain ⟨ts, hts, hsay⟩ := h.longest.spells spells_nil (.start source)
    rw [List.append_nil] at hts
    exact ⟨ts, (Token.result_tokenize source text).trans hts, hsay⟩

/-! ### On the command line -/

namespace Radix

/-- The number written by a run of digits behind the number `k`. -/
def valueFrom (radix : Radix) (k : Nat) (ds : List Char) : Nat :=
  ds.foldl (fun n d => n * radix.base + digitValue d) k

theorem valueFrom_cons (radix : Radix) (k : Nat) (d : Char) (ds : List Char) :
    radix.valueFrom k (d :: ds) = radix.valueFrom (k * radix.base + digitValue d) ds := rfl

/-- More digits make no number smaller. -/
theorem le_valueFrom (radix : Radix) : ∀ (ds : List Char) (k : Nat), k ≤ radix.valueFrom k ds
  | [], k => Nat.le_refl k
  | d :: ds, k => by
    have hbase : 0 < radix.base := Nat.lt_of_succ_lt radix.one_lt_base
    calc k ≤ k * radix.base := Nat.le_mul_of_pos_right k hbase
      _ ≤ k * radix.base + digitValue d := Nat.le_add_right _ _
      _ ≤ radix.valueFrom k (d :: ds) := le_valueFrom radix ds _

end Radix

variable {radix : Radix}

/-- Behind a number that fits, digits are read iff the whole number fits. -/
theorem readDigits_eq_ok_iff {ds : List Char} {k : Nat} (hk : k < UInt32.size) :
    readDigits radix k ds = .ok n ↔
      (∀ d ∈ ds, radix.isDigit d = true) ∧ radix.valueFrom k ds = n.toNat := by
  induction ds generalizing k with
  | nil =>
    have hword : (UInt32.ofNat k).toNat = k := Nat.mod_eq_of_lt hk
    simp only [readDigits, Except.ok.injEq, List.not_mem_nil, false_implies, implies_true,
      true_and, ← UInt32.toNat_inj, hword]
    rfl
  | cons d ds ih =>
    rw [readDigits, List.forall_mem_cons, Radix.valueFrom_cons]
    by_cases hd : radix.isDigit d = true
    · by_cases hfits : k * radix.base + digitValue d < UInt32.size
      · simp only [hd, hfits, if_true, ih hfits, true_and]
      · -- The number is too large already, and will not become smaller.
        have hle := radix.le_valueFrom ds (k * radix.base + digitValue d)
        have hlt := n.toNat_lt
        simp only [hd, hfits, if_true, if_false, true_and, reduceCtorEq, false_iff, not_and]
        intro _ hvalue
        exact hfits (Nat.lt_of_le_of_lt (hvalue ▸ hle) hlt)
    · simp [hd]

/-- A digit is no sign. -/
theorem Radix.isDigit_plus (radix : Radix) : radix.isDigit '+' = false := by
  cases radix <;> decide

/-- What is read is digits, with or without a plus sign. -/
theorem readSigned_eq_ok_iff {cs : List Char} :
    readSigned radix cs = .ok n ↔
      ∃ sign ∈ [[], ['+']], ∃ ds, cs = sign ++ ds ∧ radix.Denotes ds n := by
  have hdigits : ∀ ds, ds ≠ [] → (readDigits radix 0 ds = .ok n ↔ radix.Denotes ds n) := by
    intro ds hne
    rw [readDigits_eq_ok_iff (by decide)]
    exact ⟨fun ⟨h, hvalue⟩ => ⟨hne, h, hvalue⟩, fun h => ⟨h.digits, h.value⟩⟩
  have hplus : ∀ ds, ¬radix.Denotes ('+' :: ds) n := fun ds h => by
    have hsign := h.digits '+' List.mem_cons_self
    rw [radix.isDigit_plus] at hsign
    cases hsign
  simp only [List.mem_cons, List.not_mem_nil, or_false, exists_eq_or_imp, exists_eq_left,
    List.nil_append, List.cons_append, exists_eq_left']
  have hempty : ¬radix.Denotes [] n := fun h => h.some_digit rfl
  unfold readSigned
  split
  · simp [hempty]
  · simp [hplus, hempty]
  · next ds hne => simp [hplus, hdigits ds hne]
  · next hne _ hsign =>
    rw [hdigits cs hne]
    exact ⟨.inl, fun h => h.resolve_right fun ⟨ds, hcs, _⟩ => hsign ds hcs⟩

/-- What is read in decimal has no characters in it but digits and a plus sign. -/
theorem eq_plus_or_isDigit_of_readSigned {cs : List Char} (h : readSigned radix cs = .ok n) :
    ∀ c ∈ cs, c = '+' ∨ radix.isDigit c = true := by
  obtain ⟨sign, hsign, ds, rfl, hds⟩ := readSigned_eq_ok_iff.1 h
  intro c hc
  rcases List.mem_append.1 hc with hc | hc
  · simp only [List.mem_cons, List.not_mem_nil, or_false] at hsign
    rcases hsign with rfl | rfl
    · cases hc
    · exact .inl (List.mem_singleton.1 hc)
  · exact .inr (hds.digits c hc)

/-- What is read as an address has digits, or a sign and digits, behind one of the marks. -/
theorem readAddress_eq_ok_iff_readSigned :
    readAddress text = .ok n ↔
      ∃ m ∈ addressMarks, ∃ cs, text.toList = m.1 ++ cs ∧ readSigned m.2 cs = .ok n := by
  unfold readAddress
  generalize text.toList = cs
  constructor
  · intro h
    split at h
    · exact ⟨(['#'], .hexadecimal), by decide, _, rfl, h⟩
    · exact ⟨(['0', 'x'], .hexadecimal), by decide, _, rfl, h⟩
    · exact ⟨(['0', 'X'], .hexadecimal), by decide, _, rfl, h⟩
    · exact ⟨([], .decimal), by decide, _, rfl, h⟩
  · rintro ⟨m, hm, ds, rfl, h⟩
    simp only [addressMarks, List.mem_cons, List.not_mem_nil, or_false] at hm
    rcases hm with rfl | rfl | rfl | rfl
    · -- A decimal number is not taken for one behind a mark: it has no `#` and no `x` in it.
      have hds := eq_plus_or_isDigit_of_readSigned h
      rw [List.nil_append]
      split
      · exact absurd (hds '#' (by simp)) (by decide)
      · exact absurd (hds 'x' (by simp)) (by decide)
      · exact absurd (hds 'X' (by simp)) (by decide)
      · exact h
    all_goals exact h

/-- What is read as an address is digits, with or without a plus sign, behind one of the marks. -/
theorem readAddress_eq_ok_iff :
    readAddress text = .ok n ↔
      ∃ m ∈ addressMarks, ∃ sign ∈ [[], ['+']], ∃ ds,
        text.toList = m.1 ++ (sign ++ ds) ∧ m.2.Denotes ds n := by
  rw [readAddress_eq_ok_iff_readSigned]
  refine exists_congr fun m => and_congr_right fun _ => ?_
  simp only [readSigned_eq_ok_iff]
  constructor
  · rintro ⟨_, htext, sign, hsign, ds, rfl, hds⟩
    exact ⟨sign, hsign, ds, htext, hds⟩
  · rintro ⟨sign, hsign, ds, htext, hds⟩
    exact ⟨_, htext, sign, hsign, ds, rfl, hds⟩

theorem Radix.mark_mem_addressMarks (radix : Radix) : (radix.mark, radix) ∈ addressMarks := by
  cases radix <;> decide

/-- A text is split into one number and nothing else iff it is decimal digits, or hexadecimal
digits behind a `#`, whose number fits in 32 bits, and then it is the address with that number. An
address that is written in any other way has a plus sign in it or begins with `0x` or `0X`. -/
theorem number_syntaxes_agree (source text : String) (n : UInt32) :
    (Token.IsNumberAlone source text n ↔ IsNumeral text n) ∧
      (IsNumeral text n → readAddress text = .ok n) ∧
        (readAddress text = .ok n → '+' ∈ text.toList ∨ ['0', 'x'] <+: text.toList ∨
          ['0', 'X'] <+: text.toList ∨ Token.IsNumberAlone source text n) := by
  refine ⟨isNumberAlone_iff_isNumeral, ?_, ?_⟩
  · rintro ⟨radix, ds, htext, hds⟩
    exact readAddress_eq_ok_iff.2 ⟨_, radix.mark_mem_addressMarks, [], by simp, ds, htext, hds⟩
  · intro h
    obtain ⟨m, hm, sign, hsign, ds, htext, hds⟩ := readAddress_eq_ok_iff.1 h
    simp only [List.mem_cons, List.not_mem_nil, or_false] at hsign
    rcases hsign with rfl | rfl
    · simp only [addressMarks, List.mem_cons, List.not_mem_nil, or_false] at hm
      rcases hm with rfl | rfl | rfl | rfl
      · exact .inr (.inr (.inr (isNumberAlone_iff_isNumeral.2 ⟨.decimal, ds, htext, hds⟩)))
      · exact .inr (.inr (.inr (isNumberAlone_iff_isNumeral.2 ⟨.hexadecimal, ds, htext, hds⟩)))
      · exact .inr (.inl ⟨ds, htext.symm⟩)
      · exact .inr (.inr (.inl ⟨ds, htext.symm⟩))
    · left
      rw [htext]
      simp

/-- The largest number, with zeros in front and digits in both cases. The one that follows it is
too large. -/
theorem number_syntaxes_agree_at_the_limit :
    IsNumeral "#00fFfFfFfF" 4294967295 ∧ Token.IsNumberAlone "" "#00fFfFfFfF" 4294967295 ∧
      readAddress "#00fFfFfFfF" = .ok 4294967295 ∧
        readAddress "#100000000" = .error .tooLarge := by
  have hnumeral : IsNumeral "#00fFfFfFfF" 4294967295 :=
    ⟨.hexadecimal, "00fFfFfFfF".toList, rfl, by decide, List.all_eq_true.mp (by decide), by decide⟩
  obtain ⟨halone, haddress, -⟩ := number_syntaxes_agree "" "#00fFfFfFfF" 4294967295
  exact ⟨hnumeral, halone.2 hnumeral, haddress hnumeral, by decide⟩

end Chip8
