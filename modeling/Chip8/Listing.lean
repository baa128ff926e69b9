/-
# The printed listing

Cells are added to a grid one after another, and printed in rows of so many
columns. Every cell but that of the last column is filled up with spaces to the
widest cell of its column, and one more space separates the columns. The listing
of a program is two grids, each followed by an empty line: four columns for its
lines, with address, statement, an arrow and bytes, and two for its symbols.

Key definitions: `Grid.rows`, `Grid.widths`, `Grid.row`, `Grid.fit`, `Assembly.listing`.
Key theorems: `rows_flatMap`, `length_widths`.
-/
import Chip8.Assembly.Basic
import Chip8.Text.Width

namespace Chip8
namespace Grid

/-- The cells in rows of `count`, as many rows as they take. -/
def rows (count : Nat) (cells : List String) : List (List String) :=
  (List.range ((cells.length + count - 1) / count)).map fun y =>
    (cells.drop (y * count)).take count

/-- The greater of two rows of numbers at each place. -/
def maxes : List Nat → List Nat → List Nat
  | [], ns => ns
  | ms, [] => ms
  | m :: ms, n :: ns => max m n :: maxes ms ns

/-- The width of each of `count` columns: that of its widest cell. -/
def widths (count : Nat) (rows : List (List String)) : List Nat :=
  rows.foldr (fun cells ns => maxes (cells.map columns) ns) (List.replicate count 0)

/-- A text filled up with spaces to a width. -/
def fill (width : Nat) (text : String) : String :=
  text ++ String.ofList (List.replicate (width - columns text) ' ')

/-- One row, its columns as wide as given. The cell of the last column is not filled up. -/
def row : List Nat → List String → String
  | width :: next :: ws, cell :: cells => fill width cell ++ " " ++ row (next :: ws) cells
  | _, cells => String.join cells

/-- Rows of `count` columns, each with the newline that ends it. -/
def render (count : Nat) (rows : List (List String)) : String :=
  String.join (rows.map fun cells => row (widths count rows) cells ++ "\n")

/-- Cells printed in `count` columns, row by row. -/
def fit (count : Nat) (cells : List String) : String := render count (rows count cells)

variable {count : Nat}

/-- A full row in front of the other cells is a row of its own. -/
theorem rows_append {cells : List String} (hcount : 0 < count) (h : cells.length = count)
    (more : List String) : rows count (cells ++ more) = cells :: rows count more := by
  have hrows : ((cells ++ more).length + count - 1) / count =
      (more.length + count - 1) / count + 1 := by
    rw [← Nat.add_div_right _ hcount, List.length_append, h]
    congr 1
    omega
  rw [rows, hrows, List.range_succ_eq_map, List.map_cons, List.map_map]
  congr 1
  · rw [Nat.zero_mul, List.drop_zero, ← h, List.take_left]
  · refine List.map_congr_left fun y _ => ?_
    change ((cells ++ more).drop ((y + 1) * count)).take count = _
    rw [Nat.add_one_mul, Nat.add_comm, ← List.drop_drop, ← h, List.drop_left]

/-- If every thing has as many cells as there are columns, it has a row of its own. -/
theorem rows_flatMap {α : Type} {f : α → List String} (hcount : 0 < count)
    (h : ∀ a, (f a).length = count) (as : List α) : rows count (as.flatMap f) = as.map f := by
  induction as with
  | nil =>
    have hnone : (0 + count - 1) / count = 0 := Nat.div_eq_of_lt (by omega)
    rw [List.flatMap_nil, List.map_nil, rows, List.length_nil, hnone]
    rfl
  | cons a as ih => rw [List.flatMap_cons, rows_append hcount (h a), ih, List.map_cons]

theorem length_maxes (ms ns : List Nat) : (maxes ms ns).length = max ms.length ns.length := by
  fun_induction maxes ms ns with
  | case1 ns => simp
  | case2 ms => simp
  | case3 m ms n ns ih => simp [ih]

/-- There are as many columns as asked for, if no row has more cells. -/
theorem length_widths {rows : List (List String)} (h : ∀ cells ∈ rows, cells.length ≤ count) :
    (widths count rows).length = count := by
  induction rows with
  | nil => exact List.length_replicate
  | cons cells rows ih =>
    obtain ⟨hcells, hrows⟩ := List.forall_mem_cons.mp h
    have hrest : (rows.foldr (fun cells ns => maxes (cells.map columns) ns)
        (List.replicate count 0)).length = count := ih hrows
    rw [widths, List.foldr_cons, length_maxes, List.length_map, hrest, Nat.max_eq_right hcells]

end Grid

/-- The cells of a line: address, statement, an arrow, and the bytes. -/
def Line.cells (l : Line) : List String :=
  ["0x" ++ hex 4 l.address.toNat ++ ":", l.statement.render, "=>",
   " ".intercalate (l.bytes.map fun b => hex 2 b.toNat)]

/-- The cells of a symbol: its name and address. -/
def Binding.cells (b : Binding) : List String := [b.name, "0x" ++ hex 4 b.address.toNat]

/-- The listing of a program: its lines, and then its symbols. -/
def Assembly.listing (a : Assembly) : String :=
  Grid.fit 4 (a.lines.flatMap Line.cells) ++ "\n" ++
    Grid.fit 2 (a.symbols.entries.flatMap Binding.cells) ++ "\n"

end Chip8
