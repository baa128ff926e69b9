/-
# Suspicious places

What is noted while a program is placed can be seen from its lines. A label is
suspicious if one before it has the same name, and an `.org` if its number has more
than 12 bits or goes back (`Line.placeWarnings`). The invariant of the walk is that
the layout binds a name to the address of the last label before the cursor that bears
it (`lastLabel?`), so each step notes what its line and those before it say, and a
whole walk notes this line by line (`notices_placeAll`).

Key definitions: `lastLabel?`, `Line.placeWarnings`, `Assembly.placeWarnings`,
`Line.GoesOn`, `labelNames`.
Key theorems: `Layout.notices_place`, `Layout.notices_placeAll`, `Layout.placeAll_resolved`,
`placeWarnings_eq_nil_iff`.
-/
import Chip8.Proofs.Assembly.Program

namespace Chip8

/-- The address of the last of the lines that is a label with the name `x`. -/
def lastLabel? (x : String) (ls : List Line) : Option UInt32 :=
  (ls.reverse.find? fun l => l.statement.label? == some x).map Line.address

/-- The names of the labels among the lines. -/
def labelNames (ls : List Line) : List String := ls.filterMap fun l => l.statement.label?

/-- What is suspicious about where a line stands, behind the lines `before`. -/
def Line.placeWarnings (before : List Line) (l : Line) : List Notice :=
  match l.statement with
  | .label x p => ((lastLabel? x before).map (.redefined p x)).toList
  | .instruction _ _ _ => []
  | .directive _ _ p =>
    match l.statement.origin? with
    | some n =>
      (if 0xFFF < n then [.originCut p n] else []) ++
        (if n % 0x1000 < l.address then [.originBack p l.address (n % 0x1000)] else [])
    | none => []

/-- What is suspicious about where lines stand, behind the lines `before`. -/
def Assembly.placeWarnings : List Line → List Line → List Notice
  | _, [] => []
  | before, l :: ls => l.placeWarnings before ++ placeWarnings (before ++ [l]) ls

/-- If the line is an `.org`, it goes to an address of 12 bits that is not behind it. -/
def Line.GoesOn (l : Line) : Prop :=
  ∀ n, l.statement.origin? = some n → n < 0x1000 ∧ l.address ≤ n

theorem lastLabel?_concat (x : String) (ls : List Line) (l : Line) :
    lastLabel? x (ls ++ [l]) =
      if l.statement.label? = some x then some l.address else lastLabel? x ls := by
  by_cases hl : l.statement.label? = some x
  · simp [lastLabel?, hl]
  · simp [lastLabel?, hl]

theorem labelNames_cons (l : Line) (ls : List Line) :
    labelNames (l :: ls) = l.statement.label?.toList ++ labelNames ls := by
  cases hl : l.statement.label? with
  | none => simp [labelNames, hl]
  | some x => simp [labelNames, hl]

/-! ### Names are replaced in nothing that placing reads -/

namespace Layout

/-- A statement that can be placed is placed in the same way with its names replaced: the operand of
an `.org` is no name, and of the operands of a `.db` only their number counts. -/
theorem place_resolved {symbols : Symbols} (l : Layout) {s : Statement} (hp : s.Placeable) :
    l.place (s.resolved symbols) = l.place s := by
  cases s with
  | label name p => rfl
  | instruction m os p => rfl
  | directive name os p =>
    rcases hp with ⟨rfl, o, n, rfl, hk, hv⟩ | ⟨rfl, hne⟩
    · rw [Statement.resolved_of_number hv]
    · have hne' : os.map (Operand.resolved symbols) ≠ [] := fun h => hne (List.map_eq_nil_iff.mp h)
      change l.place (.directive "db" (os.map (Operand.resolved symbols)) p) = _
      rw [place_data l hne', place_data l hne, List.length_map]

theorem placeAll_resolved {symbols : Symbols} : ∀ {ss : List Statement} (l : Layout),
    (∀ s ∈ ss, s.Placeable) →
      l.placeAll (ss.map (Statement.resolved symbols)) = l.placeAll ss
  | [], _, _ => rfl
  | s :: ss, l, h => by
    obtain ⟨hs, hss⟩ := List.forall_mem_cons.mp h
    obtain ⟨hpast, hok⟩ := l.place_of_placeable hs
    have hok' : (l.place (s.resolved symbols)).2.result = .ok () := by rw [place_resolved l hs, hok]
    rw [List.map_cons, placeAll_ok hok, placeAll_ok hok', place_resolved l hs, hpast,
      placeAll_resolved (l.past s) hss]

/-! ### What is noted -/

/-- One step notes what is suspicious about its line. -/
theorem notices_place {l : Layout} {before : List Line} {m : Line}
    (hp : m.statement.Placeable) (haddress : m.address = l.cursor)
    (hget : ∀ x, l.get? x = lastLabel? x before) :
    (l.place m.statement).2.notices = m.placeWarnings before := by
  obtain ⟨address, s, bytes⟩ := m
  obtain rfl : address = l.cursor := haddress
  cases s with
  | label x p => rw [place_label, Line.placeWarnings, hget]
  | instruction m os p => rfl
  | directive name os p =>
    rcases hp with ⟨rfl, ⟨kind, value, q⟩, n, rfl, hk, hv⟩ | ⟨rfl, hne⟩
    · obtain rfl : value = .number n := hv
      have horigin : Directive.originOf p [⟨kind, .number n, q⟩] = .ok n :=
        Directive.originOf_eq_ok_iff.mpr ⟨_, rfl, hk, rfl⟩
      rw [place_origin l horigin]
      rfl
    · rw [place_data l hne]
      simp [Line.placeWarnings, Statement.origin?]

/-- **A walk notes what is suspicious about the places of its lines**, one after another. -/
theorem notices_placeAll {ls before : List Line} {l : Layout}
    (hp : ∀ m ∈ ls, m.statement.Placeable)
    (haddresses : ls.map Line.address = Program.addresses l.cursor (ls.map Line.statement))
    (hget : ∀ x, l.get? x = lastLabel? x before) :
    (l.placeAll (ls.map Line.statement)).2.notices = Assembly.placeWarnings before ls := by
  induction ls generalizing before l with
  | nil => rfl
  | cons m ls ih =>
    obtain ⟨hm, hls⟩ := List.forall_mem_cons.mp hp
    obtain ⟨hcursor, hrest⟩ := List.cons.inj haddresses
    -- If the line is a label, it is the last one of its name from here on.
    have hget' : ∀ x, (l.past m.statement).get? x = lastLabel? x (before ++ [m]) := by
      intro x
      rw [get?_past, lastLabel?_concat, hget, ← hcursor]
    obtain ⟨hpast, hok⟩ := l.place_of_placeable hm
    rw [List.map_cons, placeAll_ok hok, hpast, Assembly.placeWarnings]
    simp only [notices_place hm hcursor hget, ih hls hrest hget']

end Layout

/-! ### Where nothing is noted -/

/-- The place of a line is not suspicious iff it is no label that was there before, and no `.org`
that is cut or goes back. -/
theorem Line.placeWarnings_eq_nil_iff {before : List Line} {l : Line} :
    l.placeWarnings before = [] ↔
      (∀ x ∈ l.statement.label?, lastLabel? x before = none) ∧ l.GoesOn := by
  obtain ⟨address, s, bytes⟩ := l
  cases s with
  | label x p => simp [placeWarnings, GoesOn, Statement.label?, Statement.origin?]
  | instruction m os p => simp [placeWarnings, GoesOn, Statement.label?, Statement.origin?]
  | directive name os p =>
    simp only [placeWarnings, GoesOn, Statement.label?]
    cases Statement.origin? (.directive name os p) with
    | none => simp
    | some n =>
      have hfits : 0xFFF < n ↔ ¬n < 0x1000 := by
        rw [UInt32.lt_iff_toNat_lt, UInt32.lt_iff_toNat_lt]
        change 4095 < n.toNat ↔ ¬n.toNat < 4096
        omega
      by_cases hn : n < 0x1000
      · simp [hfits, hn, UInt32.mod_eq_of_lt hn]
      · simp [hfits, hn]

/-- The places of lines are not suspicious iff their labels have different names, which were not
there before, and no `.org` is cut or goes back. -/
theorem Assembly.placeWarnings_eq_nil_iff {ls before : List Line} :
    placeWarnings before ls = [] ↔
      (∀ x ∈ labelNames ls, lastLabel? x before = none) ∧ (labelNames ls).Nodup ∧
        ∀ l ∈ ls, l.GoesOn := by
  induction ls generalizing before with
  | nil => simp [placeWarnings, labelNames]
  | cons m ls ih =>
    rw [placeWarnings, List.append_eq_nil_iff, Line.placeWarnings_eq_nil_iff, ih]
    simp only [lastLabel?_concat, labelNames_cons, List.forall_mem_cons]
    cases m.statement.label? with
    | none => simp [and_left_comm]
    | some x =>
      -- A label is new to those behind it iff none of them has its name.
      have hnew : (∀ y ∈ labelNames ls,
          (if some x = some y then some m.address else lastLabel? y before) = none) ↔
            x ∉ labelNames ls ∧ ∀ y ∈ labelNames ls, lastLabel? y before = none := by
        constructor
        · intro h
          have hx : x ∉ labelNames ls := fun hmem => by simpa using h x hmem
          refine ⟨hx, fun y hy => ?_⟩
          have hne : x ≠ y := fun heq => hx (heq ▸ hy)
          simpa [hne] using h y hy
        · rintro ⟨hx, h⟩ y hy
          have hne : x ≠ y := fun heq => hx (heq ▸ hy)
          simpa [hne] using h y hy
      rw [hnew]
      simp only [Option.mem_some, forall_eq', Option.toList_some, List.singleton_append,
        List.forall_mem_cons, List.nodup_cons]
      constructor
      · rintro ⟨⟨hx, hm⟩, ⟨hnot, hold⟩, hd, hls⟩
        exact ⟨⟨hx, hold⟩, ⟨hnot, hd⟩, hm, hls⟩
      · rintro ⟨⟨hx, hold⟩, ⟨hnot, hd⟩, hm, hls⟩
        exact ⟨⟨hx, hm⟩, ⟨hnot, hold⟩, hd, hls⟩

end Chip8
