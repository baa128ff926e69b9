/-
# Reading a listing

A printed listing is read as lines of text, with an empty line behind each of its two
grids. A row of the first is cut at the first colon and at the arrow: before the one is
the address, between them the statement, behind the other the bytes. A row of the second
is cut at the first space. Numbers are read as they are printed. A cell is found again
among the spaces that it is padded with, so it makes no difference how wide the columns
are; a row is its cells with some spaces between them (`Grid.exists_row_cons`).

Key definitions: `Grid.cut?`, `Grid.trim`, `Grid.words`, `Entry`, `Entry.read?`, `Binding.read?`,
`unlines`, `readListing?`.
Key theorems: `readByte?_hex`, `readPlace?_hex`, `Grid.cut?_append`, `Grid.trim_spaces`,
`Grid.words_intercalate`, `Grid.exists_row_cons`.
-/
import Mathlib.Algebra.Ring.Nat
import Mathlib.Data.List.DropRight
import Chip8.Listing
import Chip8.Proofs.Listing.Cells

namespace Chip8

/-! ### What is read -/

namespace Grid

/-- What stands before the first place of a mark, and what behind it. -/
def cut? (mark : List Char) : List Char → Option (List Char × List Char)
  | [] => none
  | c :: cs =>
    if mark.isPrefixOf (c :: cs) then some ([], (c :: cs).drop mark.length)
    else (cut? mark cs).map fun (before, behind) => (c :: before, behind)

/-- A text without the spaces at its ends. -/
def trim (cs : List Char) : List Char := (cs.dropWhile (· == ' ')).rdropWhile (· == ' ')

/-- What stands between the spaces of a text. -/
def words (cs : List Char) : List (List Char) := (cs.splitOn ' ').filter fun w => !w.isEmpty

end Grid

/-- The number that hexadecimal digits spell, if there are any. -/
def readHex? (ds : List Char) : Option Nat :=
  if !ds.isEmpty && ds.all Radix.hexadecimal.isDigit then some (Radix.hexadecimal.value ds)
  else none

/-- The byte that a pair of hexadecimal digits spells. -/
def readByte? (ds : List Char) : Option UInt8 :=
  if ds.length = 2 then (readHex? ds).map UInt8.ofNat else none

/-- The address that is spelled in hexadecimal digits behind `0x`. -/
def readPlace? : List Char → Option UInt32
  | '0' :: 'x' :: ds => (readHex? ds).bind word?
  | _ => none

/-- What a row of a listing says: an address, the written form of a statement, and bytes. -/
structure Entry where
  address : UInt32
  statement : String
  bytes : List UInt8
deriving DecidableEq

/-- What is printed of a line. -/
def Line.entry (l : Line) : Entry := ⟨l.address, l.statement.render, l.bytes⟩

/-- Reads a row of lines: the address up to the first colon, the statement up to the arrow, without
the spaces around it, and behind that the bytes. -/
def Entry.read? (row : List Char) : Option Entry := do
  let (place, rest) ← Grid.cut? [':'] row
  let (statement, code) ← Grid.cut? ['=', '>'] rest
  return ⟨← readPlace? place, String.ofList (Grid.trim statement),
    ← (Grid.words code).mapM readByte?⟩

/-- Reads a row of symbols: the name up to the first space, and behind the spaces the address. -/
def Binding.read? (row : List Char) : Option Binding := do
  let (name, rest) ← Grid.cut? [' '] row
  return ⟨String.ofList name, ← readPlace? (Grid.trim rest)⟩

/-- Rows as they are printed, a newline behind each. -/
def unlines (rows : List (List Char)) : List Char := rows.flatMap (· ++ ['\n'])

/-- Reads a listing: rows of lines up to the first empty line, and rows of symbols up to the next
one, behind which nothing is left. -/
def readListing? (text : List Char) : Option (List Entry × List Binding) :=
  let lines := text.splitOn '\n'
  let below := (lines.dropWhile fun row => !row.isEmpty).drop 1
  if below.dropWhile (fun row => !row.isEmpty) = [[], []] then do
    return (← (lines.takeWhile fun row => !row.isEmpty).mapM Entry.read?,
      ← (below.takeWhile fun row => !row.isEmpty).mapM Binding.read?)
  else none

/-! ### Numbers -/

theorem readHex?_padded (width n : Nat) :
    readHex? (Radix.hexadecimal.padded width n) = some n := by
  have hall : (Radix.hexadecimal.padded width n).all Radix.hexadecimal.isDigit = true :=
    List.all_eq_true.mpr (Radix.all_isDigit_padded _ width n)
  rw [readHex?, if_pos (by simp [Radix.padded_ne_nil, hall]), Radix.value_padded]

/-- A number below a power of the base has no more digits than that. -/
theorem Radix.length_digits_le {radix : Radix} {n : Nat} :
    ∀ {k : Nat}, n < radix.base ^ (k + 1) → (radix.digits n).length ≤ k + 1 := by
  fun_induction digits radix n with
  | case1 n h => simp
  | case2 n h ih =>
    intro k hn
    cases k with
    | zero => exact absurd (by simpa using hn) h
    | succ k =>
      have hdiv : n / radix.base < radix.base ^ (k + 1) :=
        Nat.div_lt_of_lt_mul (by rwa [← Nat.pow_succ'])
      simpa using ih hdiv

/-- A byte is printed as two digits, and read back. -/
theorem readByte?_hex (b : UInt8) : readByte? (hex 2 b.toNat).toList = some b := by
  have hb : b.toNat < Radix.hexadecimal.base ^ (1 + 1) := b.toNat_lt
  have hlength : (Radix.hexadecimal.padded 2 b.toNat).length = 2 := by
    rw [Radix.padded, List.length_leftpad]
    exact Nat.max_eq_left (Radix.length_digits_le hb)
  rw [hex, String.toList_ofList, readByte?, if_pos hlength, readHex?_padded, Option.map_some,
    UInt8.ofNat_toNat]

theorem readPlace?_hex (address : UInt32) :
    readPlace? ("0x" ++ hex 4 address.toNat).toList = some address := by
  have htext : ("0x" ++ hex 4 address.toNat).toList =
      '0' :: 'x' :: Radix.hexadecimal.padded 4 address.toNat := by
    simp [hex]
  rw [htext, readPlace?, readHex?_padded]
  exact Token.word?_toNat address

/-- An address is a piece, and has no colon in it. -/
theorem isPiece_place (n : Nat) : IsPiece ("0x" ++ hex 4 n).toList := by
  rw [String.toList_append]
  exact (isPiece_hex 4 n).cons (by decide) |>.cons (by decide)

theorem colon_notMem_place (n : Nat) : ':' ∉ ("0x" ++ hex 4 n).toList := by
  intro hmem
  rw [String.toList_append, List.mem_append] at hmem
  rcases hmem with hmem | hmem
  · revert hmem
    decide
  · rw [hex, String.toList_ofList] at hmem
    exact absurd (Radix.all_isDigit_padded _ 4 n ':' hmem) (by decide)

/-! ### Cells among spaces -/

namespace Grid

/-- So many spaces. -/
def spaces (k : Nat) : List Char := List.replicate k ' '

theorem eq_of_mem_spaces {k : Nat} {c : Char} (h : c ∈ spaces k) : c = ' ' :=
  (List.mem_replicate.mp h).2

/-- A text is cut in front of a mark whose first character is not in it. -/
theorem cut?_append {m : Char} {before : List Char} (h : m ∉ before) (mark behind : List Char) :
    cut? (m :: mark) (before ++ (m :: mark ++ behind)) = some (before, behind) := by
  induction before with
  | nil =>
    have hmark : (m :: mark).isPrefixOf (m :: (mark ++ behind)) = true :=
      List.isPrefixOf_iff_prefix.mpr ⟨behind, rfl⟩
    rw [List.nil_append, List.cons_append, cut?, if_pos hmark]
    simp
  | cons c before ih =>
    obtain ⟨hne, hbefore⟩ := not_or.mp (mt List.mem_cons.mpr h)
    rw [List.cons_append, cut?, if_neg (by simp [List.isPrefixOf, hne]), ih hbefore]
    rfl

/-- A cell is found among the spaces around it. -/
theorem trim_spaces {cs : List Char} (h : IsCell cs) (i j : Nat) :
    trim (spaces i ++ (cs ++ spaces j)) = cs := by
  have hspaces : ∀ k, ∀ c ∈ spaces k, (c == ' ') = true :=
    fun k c hc => by simpa using eq_of_mem_spaces hc
  obtain ⟨c, hc, hne⟩ := h.first
  obtain ⟨d, hd, hne'⟩ := h.last
  obtain ⟨tail, hcs⟩ := List.head?_eq_some_iff.mp hc
  obtain ⟨front, hcs'⟩ := List.getLast?_eq_some_iff.mp hd
  have hfront : (spaces i ++ (cs ++ spaces j)).dropWhile (· == ' ') = cs ++ spaces j := by
    rw [List.dropWhile_append_of_pos (hspaces i), hcs, List.cons_append,
      List.dropWhile_cons_of_neg (by simpa using hne)]
  have hback : (spaces j).reverse = spaces j := List.reverse_replicate
  rw [trim, hfront, List.rdropWhile, List.reverse_append, hback,
    List.dropWhile_append_of_pos (hspaces j), hcs', List.reverse_append, List.reverse_singleton,
    List.singleton_append, List.dropWhile_cons_of_neg (by simpa using hne'), List.reverse_cons,
    List.reverse_reverse]

theorem trim_spaces_left {cs : List Char} (h : IsCell cs) (k : Nat) :
    trim (spaces k ++ cs) = cs := by
  have htrim := trim_spaces h k 0
  rwa [show spaces 0 = [] from rfl, List.append_nil] at htrim

/-- Spaces in front of words do not count. -/
theorem words_spaces (k : Nat) (cs : List Char) : words (spaces k ++ cs) = words cs := by
  induction k with
  | zero => rfl
  | succ k ih =>
    rw [← ih]
    unfold words
    rw [spaces, List.replicate_succ, List.cons_append, List.splitOn_cons_eq_if_modifyHead,
      if_pos (by decide), List.filter_cons_of_neg (by simp), spaces]

/-- Pieces with spaces between them are its words. -/
theorem words_intercalate {ws : List (List Char)} (h : ∀ w ∈ ws, IsPiece w) :
    words ([' '].intercalate ws) = ws := by
  cases ws with
  | nil => rfl
  | cons w ws =>
    have hspace : ∀ v ∈ w :: ws, ' ' ∉ v := fun v hv hmem => ((h v hv).solid _ hmem).1 rfl
    rw [words, List.splitOn_intercalate _ hspace (List.cons_ne_nil w ws), List.filter_eq_self]
    exact fun v hv => by simpa using (h v hv).some_char

/-- **A row is its cells with spaces between them**, some of them at least; how many depends on the
widths. -/
theorem exists_row_cons {ws : List Nat} (h : 2 ≤ ws.length) (cell : String) (cells : List String) :
    ∃ k, (row ws (cell :: cells)).toList =
      cell.toList ++ (spaces (k + 1) ++ (row ws.tail cells).toList) := by
  match ws, h with
  | width :: next :: ws, _ =>
    refine ⟨width - columns cell, ?_⟩
    simp [row, fill, spaces, List.replicate_succ']

/-- The last column is its cell. -/
theorem row_singleton {ws : List Nat} (h : ws.length = 1) (cell : String) :
    row ws [cell] = cell := by
  obtain ⟨width, rfl⟩ := List.length_eq_one_iff.mp h
  simp [row]

/-- A row of two columns or more is not empty. -/
theorem row_ne_nil {ws : List Nat} (h : 2 ≤ ws.length) (cell : String) (cells : List String) :
    (row ws (cell :: cells)).toList ≠ [] := by
  obtain ⟨k, hrow⟩ := exists_row_cons h cell cells
  simp [hrow, spaces]

/-- A row of cells without a newline has none. -/
theorem newline_notMem_row {cells : List String} (h : ∀ cell ∈ cells, '\n' ∉ cell.toList)
    (ws : List Nat) : '\n' ∉ (row ws cells).toList := by
  fun_induction row ws cells with
  | case1 width next ws cell cells ih =>
    obtain ⟨hcell, hcells⟩ := List.forall_mem_cons.mp h
    simpa [fill, hcell] using ih hcells
  | case2 ws cells =>
    rw [String.toList_join, List.mem_flatMap]
    rintro ⟨cell, hcell, hmem⟩
    exact h cell hcell hmem

end Grid

end Chip8
