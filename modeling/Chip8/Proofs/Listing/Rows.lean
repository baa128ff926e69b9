/-
# The rows of a listing

Every row of a listing is a line of text and says what it was printed from. No cell has a
newline, so no row is broken; no statement has an equals sign, so the arrow is the one
between statement and bytes; and no name has a space. What a text is assembled to is
therefore read back from its listing (`rows_of_assemble`, `readListing?_unlines`).

Key definitions: `Line.pairs`, `IsRow`, `Grid.lines`.
Key theorems: `Entry.read?_row`, `Binding.read?_row`, `Assembly.toList_listing`,
`readListing?_unlines`, `rows_of_assemble`.
-/
import Chip8.Proofs.Listing.Reading

namespace Chip8

/-! ### Rows -/

/-- If each of some things is read back, so are all of them. -/
theorem mapM_map_eq_some {α β γ : Type} {f : α → β} {g : β → Option γ} {h : α → γ} {xs : List α}
    (hxs : ∀ x ∈ xs, g (f x) = some (h x)) : (xs.map f).mapM g = some (xs.map h) := by
  induction xs with
  | nil => rfl
  | cons x xs ih =>
    obtain ⟨hx, hxs⟩ := List.forall_mem_cons.mp hxs
    rw [List.map_cons, List.mapM_cons, hx, ih hxs]
    rfl

/-- The bytes of a line as they are printed, a pair of digits each. -/
def Line.pairs (l : Line) : List (List Char) := l.bytes.map fun b => (hex 2 b.toNat).toList

theorem Line.isPiece_of_mem_pairs (l : Line) : ∀ w ∈ l.pairs, IsPiece w :=
  List.forall_mem_map.mpr fun b _ => isPiece_hex 2 b.toNat

theorem Line.mapM_readByte?_pairs (l : Line) : l.pairs.mapM readByte? = some l.bytes := by
  have hread := mapM_map_eq_some (h := id) fun b (_ : b ∈ l.bytes) => readByte?_hex b
  rwa [List.map_id] at hread

/-- The last cell of a line is its pairs of digits, with spaces between them. -/
theorem Line.toList_intercalate_hex (l : Line) :
    (" ".intercalate (l.bytes.map fun b => hex 2 b.toNat)).toList = [' '].intercalate l.pairs := by
  rw [String.toList_intercalate, List.map_map]
  rfl

/-- A row of a line, however wide its columns are. -/
theorem Line.exists_row {ws : List Nat} (hws : ws.length = 4) (l : Line) : ∃ i j k,
    (Grid.row ws l.cells).toList = ("0x" ++ hex 4 l.address.toNat).toList ++
      ([':'] ++ ((Grid.spaces i ++ (l.statement.render.toList ++ Grid.spaces j)) ++
        (['=', '>'] ++ (Grid.spaces k ++ [' '].intercalate l.pairs)))) := by
  match ws, hws with
  | [w₁, w₂, w₃, w₄], _ =>
    have hcells : l.cells = ["0x" ++ hex 4 l.address.toNat ++ ":", l.statement.render, "=>",
      " ".intercalate (l.bytes.map fun b => hex 2 b.toNat)] := rfl
    obtain ⟨i, hi⟩ := Grid.exists_row_cons (show 2 ≤ [w₁, w₂, w₃, w₄].length by simp) _ _
    obtain ⟨j, hj⟩ := Grid.exists_row_cons (show 2 ≤ [w₂, w₃, w₄].length by simp) _ _
    obtain ⟨k, hk⟩ := Grid.exists_row_cons (show 2 ≤ [w₃, w₄].length by simp) _ _
    refine ⟨i + 1, j + 1, k + 1, ?_⟩
    rw [hcells, hi, List.tail_cons, hj, List.tail_cons, hk, List.tail_cons,
      Grid.row_singleton rfl, String.toList_append, toList_intercalate_hex]
    simp only [List.append_assoc]
    rfl

/-- A row of a symbol. -/
theorem Binding.exists_row {ws : List Nat} (hws : ws.length = 2) (b : Binding) : ∃ k,
    (Grid.row ws b.cells).toList =
      b.name.toList ++ ([' '] ++ (Grid.spaces k ++ ("0x" ++ hex 4 b.address.toNat).toList)) := by
  match ws, hws with
  | [w₁, w₂], _ =>
    obtain ⟨k, hk⟩ := Grid.exists_row_cons (show 2 ≤ [w₁, w₂].length by simp) b.name
      ["0x" ++ hex 4 b.address.toNat]
    refine ⟨k, ?_⟩
    rw [cells, hk, List.tail_cons, Grid.row_singleton rfl]
    rfl

/-- **A row of a line reads back as its entry**, if its statement can be printed. -/
theorem Entry.read?_row {l : Line} (h : l.statement.Printable) {ws : List Nat}
    (hws : ws.length = 4) : Entry.read? (Grid.row ws l.cells).toList = some l.entry := by
  obtain ⟨i, j, k, hrow⟩ := l.exists_row hws
  have hcell := Statement.isCell_render h
  have hequals : '=' ∉ Grid.spaces i ++ (l.statement.render.toList ++ Grid.spaces j) := by
    have hspaces : ∀ n, '=' ∉ Grid.spaces n := fun n hmem =>
      absurd (Grid.eq_of_mem_spaces hmem) (by decide)
    simp [hspaces, hcell.equals]
  have hplace := Grid.cut?_append (colon_notMem_place l.address.toNat) []
    ((Grid.spaces i ++ (l.statement.render.toList ++ Grid.spaces j)) ++
      (['=', '>'] ++ (Grid.spaces k ++ [' '].intercalate l.pairs)))
  have harrow := Grid.cut?_append hequals ['>'] (Grid.spaces k ++ [' '].intercalate l.pairs)
  rw [hrow, Entry.read?, hplace]
  simp only [Option.bind_eq_bind, Option.bind_some, harrow, readPlace?_hex, Grid.trim_spaces hcell,
    Grid.words_spaces, Grid.words_intercalate l.isPiece_of_mem_pairs, l.mapM_readByte?_pairs,
    String.ofList_toList]
  rfl

/-- **A row of a symbol reads back as the symbol**, if its name is one. -/
theorem Binding.read?_row {b : Binding} (h : IsName b.name) {ws : List Nat}
    (hws : ws.length = 2) : Binding.read? (Grid.row ws b.cells).toList = some b := by
  obtain ⟨k, hrow⟩ := b.exists_row hws
  have hspace : ' ' ∉ b.name.toList := fun hmem => (h.1.isPiece.solid _ hmem).1 rfl
  have htrim := Grid.trim_spaces_left (isPiece_place b.address.toNat).isCell k
  rw [hrow, Binding.read?, Grid.cut?_append hspace]
  simp only [Option.bind_eq_bind, Option.bind_some, htrim, readPlace?_hex, String.ofList_toList]
  rfl

/-- A line of a text, and not an empty one. -/
structure IsRow (cs : List Char) : Prop where
  some_char : cs ≠ []
  newline : '\n' ∉ cs

theorem notMem_intercalate {c separator : Char} (hc : c ≠ separator) :
    ∀ {ws : List (List Char)}, (∀ w ∈ ws, c ∉ w) → c ∉ [separator].intercalate ws
  | [], _ => by simp
  | [w], h => by simpa using h w List.mem_cons_self
  | w :: w' :: ws, h => by
    obtain ⟨hw, hws⟩ := List.forall_mem_cons.mp h
    simp [List.intercalate_cons_cons, hw, hc, notMem_intercalate hc hws]

/-- A line is printed in a row, for no cell of it has a newline. -/
theorem Line.isRow {l : Line} (h : l.statement.Printable) {ws : List Nat} (hws : ws.length = 4) :
    IsRow (Grid.row ws l.cells).toList := by
  have hcells : ∀ cell ∈ l.cells, '\n' ∉ cell.toList := by
    simp only [cells, List.forall_mem_cons, List.not_mem_nil, false_imp_iff, implies_true, and_true]
    refine ⟨?_, (Statement.isCell_render h).newline, by decide, ?_⟩
    · simpa using (isPiece_place l.address.toNat).isCell.newline
    · rw [toList_intercalate_hex]
      exact notMem_intercalate (by decide) fun w hw => (l.isPiece_of_mem_pairs w hw).isCell.newline
  exact ⟨Grid.row_ne_nil (by omega) _ _, Grid.newline_notMem_row hcells ws⟩

/-- A symbol is printed in a row. -/
theorem Binding.isRow {b : Binding} (h : IsName b.name) {ws : List Nat} (hws : ws.length = 2) :
    IsRow (Grid.row ws b.cells).toList := by
  have hcells : ∀ cell ∈ b.cells, '\n' ∉ cell.toList := by
    simp only [cells, List.forall_mem_cons, List.not_mem_nil, false_imp_iff, implies_true, and_true]
    exact ⟨h.1.isPiece.isCell.newline, (isPiece_place b.address.toNat).isCell.newline⟩
  exact ⟨Grid.row_ne_nil (by omega) _ _, Grid.newline_notMem_row hcells ws⟩

/-! ### Texts of rows -/

/-- The rows of a grid of `count` columns as they are printed. -/
def Grid.lines (count : Nat) (rows : List (List String)) : List (List Char) :=
  rows.map fun cells => (row (widths count rows) cells).toList

theorem Grid.toList_render (count : Nat) (rows : List (List String)) :
    (render count rows).toList = unlines (lines count rows) := by
  rw [render, String.toList_join, unlines, lines, List.flatMap_map, List.flatMap_map]
  exact List.flatMap_congr fun cells _ => by simp

/-- If every thing has as many cells as there are columns, there are the widths of all columns. -/
theorem Grid.length_widths_map {α : Type} {count : Nat} {f : α → List String}
    (h : ∀ a, (f a).length = count) (as : List α) : (widths count (as.map f)).length = count :=
  length_widths (List.forall_mem_map.mpr fun a _ => (h a).le)

theorem Line.length_cells (l : Line) : l.cells.length = 4 := rfl

theorem Binding.length_cells (b : Binding) : b.cells.length = 2 := rfl

/-- A listing is the rows of its two grids, one for each line and each symbol, an empty line behind
each grid. -/
theorem Assembly.toList_listing (a : Assembly) :
    a.listing.toList = unlines (Grid.lines 4 (a.lines.map Line.cells) ++
      [] :: (Grid.lines 2 (a.symbols.entries.map Binding.cells) ++ [[]])) := by
  rw [listing, Grid.fit, Grid.fit, Grid.rows_flatMap (by decide) Line.length_cells,
    Grid.rows_flatMap (by decide) Binding.length_cells]
  simp [Grid.toList_render, unlines]

/-- Rows without a newline are the lines of the text, and nothing stands behind the last one. -/
theorem splitOn_unlines {rows : List (List Char)} (h : ∀ row ∈ rows, '\n' ∉ row) :
    (unlines rows).splitOn '\n' = rows ++ [[]] := by
  induction rows with
  | nil => rfl
  | cons row rows ih =>
    obtain ⟨hrow, hrows⟩ := List.forall_mem_cons.mp h
    have hunlines : unlines (row :: rows) = row ++ '\n' :: unlines rows := by simp [unlines]
    rw [hunlines, List.splitOn_append_cons_self_of_not_mem hrow, ih hrows, List.cons_append]

/-- Rows are the lines up to the first empty one. -/
theorem takeWhile_dropWhile_rows {rows : List (List Char)} (h : ∀ row ∈ rows, IsRow row)
    (below : List (List Char)) :
    (rows ++ [] :: below).takeWhile (fun row => !row.isEmpty) = rows ∧
      (rows ++ [] :: below).dropWhile (fun row => !row.isEmpty) = [] :: below := by
  have hrows : ∀ row ∈ rows, (!row.isEmpty) = true :=
    fun row hrow => by simpa using (h row hrow).some_char
  rw [List.takeWhile_append_of_pos hrows, List.dropWhile_append_of_pos hrows]
  simp

/-- **A text of rows is read row by row.** -/
theorem readListing?_unlines {rows symbolRows : List (List Char)} (h : ∀ row ∈ rows, IsRow row)
    (h' : ∀ row ∈ symbolRows, IsRow row) :
    readListing? (unlines (rows ++ [] :: (symbolRows ++ [[]]))) = do
      return (← rows.mapM Entry.read?, ← symbolRows.mapM Binding.read?) := by
  have hnewline : ∀ row ∈ rows ++ [] :: (symbolRows ++ [[]]), '\n' ∉ row := by
    intro row hrow
    simp only [List.mem_append, List.mem_cons, List.not_mem_nil, or_false] at hrow
    rcases hrow with hrow | rfl | hrow | rfl
    · exact (h row hrow).newline
    · exact List.not_mem_nil
    · exact (h' row hrow).newline
    · exact List.not_mem_nil
  have hlines : (unlines (rows ++ [] :: (symbolRows ++ [[]]))).splitOn '\n' =
      rows ++ [] :: (symbolRows ++ [] :: [[]]) := by
    rw [splitOn_unlines hnewline]
    simp
  obtain ⟨htake, hdrop⟩ := takeWhile_dropWhile_rows h (symbolRows ++ [] :: [[]])
  obtain ⟨htake', hdrop'⟩ := takeWhile_dropWhile_rows h' [[]]
  unfold readListing?
  dsimp only
  rw [hlines, htake, hdrop, List.drop_one, List.tail_cons, htake', hdrop', if_pos rfl]

/-- **What a text is assembled to can be read back from its listing**: each row is a line of text,
and says what it was printed from. -/
theorem rows_of_assemble {source text : String} {origin : UInt32} {a : Assembly}
    (h : (assemble source text origin).result = .ok a) :
    ∃ rows symbolRows, a.listing.toList = unlines (rows ++ [] :: (symbolRows ++ [[]])) ∧
      (∀ row ∈ rows, IsRow row) ∧ (∀ row ∈ symbolRows, IsRow row) ∧
      rows.mapM Entry.read? = some (a.lines.map Line.entry) ∧
      symbolRows.mapM Binding.read? = some a.symbols.entries := by
  have hlines := printable_of_assemble h
  have hsymbols := isName_of_mem_symbols h
  have hwidths := Grid.length_widths_map Line.length_cells a.lines
  have hwidths' := Grid.length_widths_map Binding.length_cells a.symbols.entries
  refine ⟨_, _, a.toList_listing, ?_, ?_, ?_, ?_⟩
  · rw [Grid.lines, List.map_map, List.forall_mem_map]
    exact fun l hl => Line.isRow (hlines l hl) hwidths
  · rw [Grid.lines, List.map_map, List.forall_mem_map]
    exact fun b hb => Binding.isRow (hsymbols b hb) hwidths'
  · rw [Grid.lines, List.map_map]
    exact mapM_map_eq_some fun l hl => Entry.read?_row (hlines l hl) hwidths
  · rw [Grid.lines, List.map_map]
    have hread := mapM_map_eq_some (h := id) fun b hb =>
      Binding.read?_row (hsymbols b hb) hwidths'
    rwa [List.map_id] at hread

end Chip8
