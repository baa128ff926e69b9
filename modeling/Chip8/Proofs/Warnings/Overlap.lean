/-
# Bytes that do not overlap

The bytes of a line go to the addresses from its own on. Nothing keeps a program from
putting two bytes in one place: an `.org` may go back, and addresses wrap around. Where
no `.org` goes back, which would be noted (`goesBack_placeWarnings_iff`), and where there
is room for all bytes behind the origin or behind the farthest place that an `.org` can go
to, neither happens. The invariant is this room: the larger one of the cursor and 0xFFF, and
the bytes that are still to come, stay below the number of addresses. A step takes from
the bytes to come what it adds to the cursor, and an `.org` goes on, but not beyond 0xFFF
(`Statement.le_next`). So every line ends where the next one begins or before
(`Assembly.apart_of_forward`), and the bytes of a program, in their order, go to higher and
higher addresses.

Key definitions: `Line.Covers`, `Line.stores`, `Assembly.stores`, `Line.GoesForward`,
`Line.Before`, `Notice.goesBack`.
Key theorems: `Statement.le_next`, `Assembly.apart_of_forward`, `pairwise_stores_of_before`,
`no_byte_is_placed_twice`.
-/
import Chip8.Proofs.Assembly.Addresses
import Chip8.Proofs.Warnings.Texts

namespace Chip8

/-- Whether the notice says that an `.org` goes back. -/
def Notice.goesBack : Notice → Bool
  | originBack .. => true
  | _ => false

namespace Line

/-- The address `n` is one of those that the bytes of the line take up. -/
def Covers (l : Line) (n : Nat) : Prop :=
  l.address.toNat ≤ n ∧ n < l.address.toNat + l.bytes.length

/-- The bytes of the line, each with the address where it goes. -/
def stores (l : Line) : List (UInt32 × UInt8) :=
  l.bytes.mapIdx fun i b => (l.address + UInt32.ofNat i, b)

/-- If the line is an `.org`, it does not go back. -/
def GoesForward (l : Line) : Prop :=
  ∀ n, l.statement.origin? = some n → l.address ≤ n % 0x1000

/-- The line ends before the other one begins. -/
def Before (l m : Line) : Prop := l.address.toNat + l.bytes.length ≤ m.address.toNat

/-- The line has room for its bytes, without going over the last address. -/
def HasRoom (l : Line) : Prop := l.address.toNat + l.bytes.length < UInt32.size

end Line

/-- The bytes of the program, each with the address where it goes. -/
def Assembly.stores (a : Assembly) : List (UInt32 × UInt8) := a.lines.flatMap Line.stores

/-! ### What is noted of an `.org` that goes back -/

theorem Line.goesBack_placeWarnings_iff {before : List Line} {l : Line} :
    (∀ n ∈ l.placeWarnings before, n.goesBack = false) ↔ l.GoesForward := by
  obtain ⟨address, s, bytes⟩ := l
  cases s with
  | label x p =>
    simp only [placeWarnings, GoesForward, Statement.origin?, reduceCtorEq, false_implies,
      implies_true, iff_true]
    cases lastLabel? x before with
    | none => simp
    | some previous => simp [Notice.goesBack]
  | instruction m os p => simp [placeWarnings, GoesForward, Statement.origin?]
  | directive name os p =>
    simp only [placeWarnings, GoesForward]
    cases Statement.origin? (.directive name os p) with
    | none => simp
    | some n =>
      by_cases hback : n % 0x1000 < address
      · refine iff_of_false (fun h => ?_) fun h => UInt32.not_le.mpr hback (h n rfl)
        have hnoted := (List.forall_mem_append.mp h).2
        rw [if_pos hback, List.forall_mem_singleton] at hnoted
        cases hnoted
      · have hle : address ≤ n % 0x1000 := UInt32.not_lt.mp hback
        by_cases hcut : 0xFFF < n
        · simp [hback, hcut, hle, Notice.goesBack]
        · simp [hback, hcut, hle]

/-- No `.org` is warned of for going back iff all of them go forward. -/
theorem Assembly.goesBack_placeWarnings_iff {ls before : List Line} :
    (∀ n ∈ placeWarnings before ls, n.goesBack = false) ↔ ∀ l ∈ ls, l.GoesForward := by
  induction ls generalizing before with
  | nil => simp [placeWarnings]
  | cons l ls ih =>
    rw [placeWarnings, List.forall_mem_append, List.forall_mem_cons,
      Line.goesBack_placeWarnings_iff, ih]

/-! ### Room for all bytes -/

/-- An `.org` has no bytes. -/
theorem Statement.size_of_origin? {s : Statement} {n : UInt32} (h : s.origin? = some n) :
    s.size = 0 := by
  unfold origin? at h
  split at h
  · rfl
  · cases h

/-- Where there is room, a statement that does not go back goes on by its bytes at least, and leaves
room for what is behind it. -/
theorem Statement.le_next {s : Statement} {address : UInt32}
    (hforward : ∀ n, s.origin? = some n → address ≤ n % 0x1000)
    (hroom : max address.toNat 0xFFF + s.size < UInt32.size) :
    address.toNat + s.size ≤ (s.next address).toNat ∧
      max (s.next address).toNat 0xFFF ≤ max address.toNat 0xFFF + s.size := by
  have hnext := toNat_next address s
  cases ho : s.origin? with
  | some n =>
    have hsize : s.size = 0 := size_of_origin? ho
    have hle : address.toNat ≤ n.toNat % 4096 := UInt32.le_iff_toNat_le.mp (hforward n ho)
    have hcut : n.toNat % 4096 < 4096 := Nat.mod_lt _ (by decide)
    rw [ho] at hnext
    simp only at hnext
    omega
  | none =>
    have hfits : address.toNat + s.size < UInt32.size := by omega
    rw [ho] at hnext
    simp only [Nat.mod_eq_of_lt hfits] at hnext
    omega

namespace Assembly

/-- **Lines that go forward where there is room stand apart**, none of them before `address` and
none over the last address. -/
theorem apart_of_forward : ∀ {ls : List Line} {address : UInt32},
    ls.map Line.address = Program.addresses address (ls.map Line.statement) →
      (∀ l ∈ ls, l.bytes.length = l.statement.size) → (∀ l ∈ ls, l.GoesForward) →
        max address.toNat 0xFFF + (ls.flatMap Line.bytes).length < UInt32.size →
          (∀ l ∈ ls, address.toNat ≤ l.address.toNat ∧ l.HasRoom) ∧ ls.Pairwise Line.Before
  | [], _, _, _, _, _ => ⟨by simp, .nil⟩
  | l :: ls, address, haddresses, hsizes, hforward, hroom => by
    obtain ⟨rfl, haddresses⟩ := List.cons.inj haddresses
    obtain ⟨hsize, hsizes⟩ := List.forall_mem_cons.mp hsizes
    obtain ⟨hl, hls⟩ := List.forall_mem_cons.mp hforward
    rw [List.flatMap_cons, List.length_append] at hroom
    obtain ⟨hon, hleft⟩ := Statement.le_next hl (by omega)
    have hroom' : max (l.statement.next l.address).toNat 0xFFF + (ls.flatMap Line.bytes).length <
        UInt32.size := by omega
    obtain ⟨hbounds, hapart⟩ := apart_of_forward haddresses hsizes hls hroom'
    constructor
    · refine List.forall_mem_cons.mpr ⟨⟨Nat.le_refl _, ?_⟩, fun m hm => ?_⟩
      · show l.address.toNat + l.bytes.length < UInt32.size
        omega
      · obtain ⟨hle, hfits⟩ := hbounds m hm
        exact ⟨by omega, hfits⟩
    · refine List.pairwise_cons.mpr ⟨fun m hm => ?_, hapart⟩
      have hle := (hbounds m hm).1
      show l.address.toNat + l.bytes.length ≤ m.address.toNat
      omega

end Assembly

/-! ### Where the bytes go -/

namespace Line

variable {l m : Line}

theorem map_snd_stores (l : Line) : l.stores.map Prod.snd = l.bytes :=
  List.ext_getElem (by simp [stores]) fun i hi hi' => by simp [stores]

/-- Where a line has room, its addresses do not wrap around. -/
theorem HasRoom.toNat_add (h : l.HasRoom) {i : Nat} (hi : i < l.bytes.length) :
    (l.address + UInt32.ofNat i).toNat = l.address.toNat + i := by
  have hfits : l.address.toNat + i < UInt32.size := Nat.lt_trans (Nat.add_lt_add_left hi _) h
  rw [UInt32.toNat_add, UInt32.toNat_ofNat', Nat.add_mod_mod]
  exact Nat.mod_eq_of_lt hfits

theorem HasRoom.covers_of_mem_stores (h : l.HasRoom) : ∀ c ∈ l.stores, l.Covers c.1.toNat := by
  intro c hc
  obtain ⟨i, hi, rfl⟩ := List.getElem_of_mem hc
  have hlt : i < l.bytes.length := by simpa [stores] using hi
  have haddress := h.toNat_add hlt
  constructor
  · simp only [stores, List.getElem_mapIdx]
    omega
  · simp only [stores, List.getElem_mapIdx]
    omega

theorem HasRoom.pairwise_stores (h : l.HasRoom) : l.stores.Pairwise fun c d => c.1 < d.1 := by
  rw [List.pairwise_iff_getElem]
  intro i j hi hj hij
  have hlength : l.stores.length = l.bytes.length := by simp [stores]
  have haddress := h.toNat_add (i := i) (by omega)
  have haddress' := h.toNat_add (i := j) (by omega)
  simp only [stores, List.getElem_mapIdx, UInt32.lt_iff_toNat_lt]
  omega

theorem Before.not_covers (h : l.Before m) (n : Nat) : ¬(l.Covers n ∧ m.Covers n) := by
  rintro ⟨⟨-, hl⟩, hm, -⟩
  have hle : l.address.toNat + l.bytes.length ≤ m.address.toNat := h
  omega

/-- The bytes of lines that stand apart go to higher and higher addresses. -/
theorem pairwise_stores_of_before {ls : List Line} (hroom : ∀ l ∈ ls, l.HasRoom)
    (h : ls.Pairwise Before) : (ls.flatMap stores).Pairwise fun c d => c.1 < d.1 := by
  refine List.pairwise_flatMap.mpr ⟨fun l hl => (hroom l hl).pairwise_stores, ?_⟩
  refine h.imp_of_mem fun {l m} hl hm hlm c hc d hd => ?_
  have hlast := ((hroom l hl).covers_of_mem_stores c hc).2
  have hfirst := ((hroom m hm).covers_of_mem_stores d hd).1
  have hle : l.address.toNat + l.bytes.length ≤ m.address.toNat := hlm
  rw [UInt32.lt_iff_toNat_lt]
  omega

end Line

theorem Assembly.map_snd_stores (a : Assembly) : a.stores.map Prod.snd = a.image := by
  rw [stores, image, List.map_flatMap]
  exact congrArg (List.flatMap · a.lines) (funext Line.map_snd_stores)

/-! ### Texts -/

variable {source text : String} {origin : UInt32} {a : Assembly}

/-- What is noted while a program is assembled is noted of the text that is read as the program. -/
theorem exists_notices_assemble (h : (assemble source text origin).result = .ok a) :
    ∃ program, (assembleProgram source origin program).result = .ok a ∧
      ∀ n ∈ (assembleProgram source origin program).notices,
        n ∈ (assemble source text origin).notices := by
  obtain ⟨tokens, ht, h'⟩ := Outcome.bind_eq_ok_iff.mp h
  obtain ⟨program, hp, h'⟩ := Outcome.bind_eq_ok_iff.mp h'
  refine ⟨program, h', fun n hn => ?_⟩
  unfold assemble
  rw [Outcome.bind_ok ht, Outcome.bind_ok hp]
  exact List.mem_append_right _ (List.mem_append_right _ hn)

/-- **No byte is placed twice, unless it was noted.** Let a text be assembled and no `.org` be noted
for going back, and let there be room for all bytes behind the origin and behind the farthest place
that an `.org` can go to. Then the addresses of the lines never go back, no address is among those
of two lines, and the bytes of the image, in their order, go to higher and higher addresses. -/
theorem no_byte_is_placed_twice (h : (assemble source text origin).result = .ok a)
    (hforward : ∀ n ∈ (assemble source text origin).notices, n.goesBack = false)
    (hroom : max origin.toNat 0xFFF + a.image.length < UInt32.size) :
    (a.lines.Pairwise fun l m => l.address ≤ m.address) ∧
      (a.lines.Pairwise fun l m => ∀ n, ¬(l.Covers n ∧ m.Covers n)) ∧
      (a.stores.Pairwise fun c d => c.1 < d.1) ∧ a.stores.map Prod.snd = a.image := by
  obtain ⟨program, ha, hnotices⟩ := exists_notices_assemble h
  have hplaces : ∀ l ∈ a.lines, l.GoesForward := by
    have hnoted : ∀ n ∈ Assembly.placeWarnings [] a.lines, n.goesBack = false := by
      intro n hn
      have hwarning : n ∈ a.warnings := List.mem_append_left _ hn
      rw [← warnings_assembleProgram ha] at hwarning
      exact hforward n (hnotices n (List.mem_filter.mp hwarning).1)
    exact Assembly.goesBack_placeWarnings_iff.mp hnoted
  have hsizes : ∀ l ∈ a.lines, l.bytes.length = l.statement.size := by
    obtain ⟨-, hstatements, hbytes, -⟩ := columns_of_assembleProgram ha
    exact length_bytes_of_emit (hstatements.symm ▸ hbytes)
  obtain ⟨hbounds, hapart⟩ :=
    Assembly.apart_of_forward (addresses_of_assembleProgram ha) hsizes hplaces hroom
  refine ⟨hapart.imp fun {l m} hlm => ?_, hapart.imp fun hlm => hlm.not_covers,
    Line.pairwise_stores_of_before (fun l hl => (hbounds l hl).2) hapart, a.map_snd_stores⟩
  exact UInt32.le_iff_toNat_le.mpr (Nat.le_trans (Nat.le_add_right _ _) hlm)

/-- A label is there twice and an `.org` is cut, both of which is noted; but no `.org` goes back,
not even the one that stays where it is. -/
theorem no_byte_is_placed_twice_behind_warnings :
    ∃ a, (assemble "" "x: ret .org #300 x: .db 1, 2 .org #1302 jp [x] .db x" 0x2FE).result = .ok a ∧
      (Notice.warnings (assemble "" "x: ret .org #300 x: .db 1, 2 .org #1302 jp [x] .db x"
        0x2FE).notices).length = 3 ∧
      (∀ n ∈ (assemble "" "x: ret .org #300 x: .db 1, 2 .org #1302 jp [x] .db x" 0x2FE).notices,
        n.goesBack = false) ∧
      max (0x2FE : UInt32).toNat 0xFFF + a.image.length < UInt32.size ∧
      (a.lines.Pairwise fun l m => l.address ≤ m.address) ∧
      (a.lines.Pairwise fun l m => ∀ n, ¬(l.Covers n ∧ m.Covers n)) ∧
      (a.stores.Pairwise fun c d => c.1 < d.1) ∧ a.stores.map Prod.snd = a.image := by
  have hlength : (assemble "" "x: ret .org #300 x: .db 1, 2 .org #1302 jp [x] .db x"
      0x2FE).result.map (fun a => a.image.length) = .ok 7 := by decide +kernel
  obtain ⟨a, ha, hbytes⟩ := Except.map_eq_ok_iff.mp hlength
  have hforward : ∀ n ∈ (assemble "" "x: ret .org #300 x: .db 1, 2 .org #1302 jp [x] .db x"
      0x2FE).notices, n.goesBack = false := by decide +kernel
  have hroom : max (0x2FE : UInt32).toNat 0xFFF + a.image.length < UInt32.size := by
    rw [hbytes]
    decide
  exact ⟨a, ha, by decide +kernel, hforward, hroom, no_byte_is_placed_twice ha hforward hroom⟩

end Chip8
