/-
# A listing that is put out

A run with `-d` and without `-v` that succeeds puts out the listing and nothing else: of
what it notes only errors are shown, and there was none (`Options.output_of_quiet`). So what
is put out can be read back as the addresses, statements, bytes and symbols of the
program, for every text and every name in it (`listing_is_read_back`).

Key theorems: `Options.items_of_assembles`, `Options.output_of_quiet`, `listing_is_read_back`.
-/
import Chip8.Proofs.Command.Run
import Chip8.Proofs.Listing.Rows

namespace Chip8

/-! ### What is shown without `-v` -/

namespace Item

theorem renderAll_append (stamp : String) (limit : Level) (items more : List Item) :
    renderAll stamp limit (items ++ more) =
      renderAll stamp limit items ++ renderAll stamp limit more := by
  simp [renderAll, String.join_append]

/-- What is not shown leaves nothing. -/
theorem renderAll_of_hidden {limit : Level} {items : List Item}
    (h : ∀ item ∈ items, item.isShown limit = false) (stamp : String) :
    renderAll stamp limit items = "" := by
  have hnone : items.filter (isShown limit) = [] :=
    List.filter_eq_nil_iff.mpr fun item hitem => by simp [h item hitem]
  rw [renderAll, hnone]
  rfl

/-- No notice is an error. -/
theorem isShown_error_ofNotice (n : Notice) : (ofNotice n).isShown .error = false := by
  cases n <;> rfl

end Item

namespace Options

variable {o : Options} {t : Tree} {a : Assembly}

/-- The listing, and how the work ended if nothing is written. -/
theorem deliver_of_listing (hlisting : o.listing = true) (a : Assembly) : ∃ message,
    o.deliver a = if o.check then ([.text a.listing] ++ [.note .info message], .stop true)
      else ([.text a.listing], .store o.outputPath a.image) := by
  unfold deliver
  rw [hlisting]
  exact ⟨_, rfl⟩

/-- What a run with `-d` puts out that succeeds: the record of the arguments, the notices, the
listing, and how it ended. -/
theorem items_of_assembles (ha : o.Assembles t a) (hlisting : o.listing = true)
    (hsuccess : (o.runOn t).2.1 = true) :
    ∃ (ns : List Notice) (message : String), (o.runOn t).1 =
      (o.account :: ns.map .ofNotice) ++ ([.text a.listing] ++ [.note .info message]) := by
  obtain ⟨text, hinput, hresult⟩ := ha.exists_text
  obtain ⟨message, hdeliver⟩ := deliver_of_listing hlisting a
  have hwork : o.work (t.read o.input) =
      ((o.account :: (assemble o.input text o.origin).notices.map .ofNotice) ++ (o.deliver a).1,
        (o.deliver a).2) := by
    unfold work
    rw [hinput]
    simp only [hresult]
  rw [hdeliver] at hwork
  refine ⟨(assemble o.input text o.origin).notices, ?_⟩
  unfold runOn at hsuccess ⊢
  rw [hwork] at hsuccess ⊢
  cases hcheck : o.check with
  | true => exact ⟨message, rfl⟩
  | false =>
    rw [hcheck] at hsuccess
    cases hwrite : t.write o.outputPath a.image with
    | error fault => simp [hwrite, conclude] at hsuccess
    | ok after =>
      simp only [Bool.false_eq_true, if_false, hwrite, conclude, List.append_assoc]
      exact ⟨_, rfl⟩

/-- **A quiet run puts out the listing alone.** -/
theorem output_of_quiet (ha : o.Assembles t a) (hlisting : o.listing = true)
    (hquiet : o.verbosity = 0) (hsuccess : (o.runOn t).2.1 = true) (stamp : String) :
    Item.renderAll stamp o.limit (o.runOn t).1 = a.listing := by
  have hlimit : o.limit = .error := by
    rw [limit, hquiet]
    rfl
  obtain ⟨ns, message, hitems⟩ := items_of_assembles ha hlisting hsuccess
  have hbefore : ∀ item ∈ o.account :: ns.map .ofNotice, item.isShown .error = false := by
    refine List.forall_mem_cons.mpr ⟨rfl, List.forall_mem_map.mpr fun n _ => ?_⟩
    exact Item.isShown_error_ofNotice n
  have hbehind : ∀ item ∈ [Item.note .info message], item.isShown .error = false :=
    List.forall_mem_singleton.mpr rfl
  have htext : Item.renderAll stamp .error [.text a.listing] = a.listing := by
    rw [Item.renderAll, List.filter_cons_of_pos rfl, List.filter_nil, List.map_singleton,
      String.join_cons, String.join_nil, String.append_empty]
    rfl
  rw [hlimit, hitems, Item.renderAll_append, Item.renderAll_append,
    Item.renderAll_of_hidden hbefore, Item.renderAll_of_hidden hbehind, htext]
  simp

end Options

variable {args : List String} {o : Options}

/-- **A listing can be read back.** Let a run with `-d` and without `-v` succeed. It has assembled
its input, and what it puts out are rows of text: one for each line of the program, an empty line,
one for each symbol, and an empty line. The rows read back as the address, statement and bytes of
the lines and as the symbols, in order, and so does the whole text. The bytes of all rows are the
image, which is what is written if the run does not only check. -/
theorem listing_is_read_back (h : Invocation.ofArguments args = .run o)
    (hlisting : o.listing = true) (hquiet : o.verbosity = 0) (stamp : String) (t : Tree)
    (hsuccess : (answer stamp args t).success = true) :
    ∃ a, o.Assembles t a ∧
      (∃ rows symbolRows,
        (answer stamp args t).output.toList = unlines (rows ++ [] :: (symbolRows ++ [[]])) ∧
          (∀ row ∈ rows, IsRow row) ∧ (∀ row ∈ symbolRows, IsRow row) ∧
          rows.mapM Entry.read? = some (a.lines.map Line.entry) ∧
          symbolRows.mapM Binding.read? = some a.symbols.entries) ∧
      readListing? (answer stamp args t).output.toList =
        some (a.lines.map Line.entry, a.symbols.entries) ∧
      (a.lines.map Line.entry).flatMap Entry.bytes = a.image ∧
      (o.check = false → (answer stamp args t).tree.read o.outputPath = .ok a.image) := by
  rw [answer_of_run h] at hsuccess ⊢
  dsimp only at hsuccess ⊢
  have himage : ∀ a : Assembly, (a.lines.map Line.entry).flatMap Entry.bytes = a.image :=
    fun a => List.flatMap_map ..
  obtain ⟨a, ha, hwritten⟩ : ∃ a, o.Assembles t a ∧
      (o.check = false → (o.runOn t).2.2.read o.outputPath = .ok a.image) := by
    rcases o.runOn_cases t with ⟨a, after, ha, -, hwrite, hrun⟩ | ⟨⟨a, ha⟩, hcheck, -⟩ | ⟨-, hrun⟩
    · exact ⟨a, ha, fun _ => by rw [hrun]; exact (Tree.read_of_write hwrite).1⟩
    · exact ⟨a, ha, fun hno => by rw [hcheck] at hno; cases hno⟩
    · rw [hrun] at hsuccess
      cases hsuccess
  rw [Options.output_of_quiet ha hlisting hquiet hsuccess]
  obtain ⟨text, -, hresult⟩ := ha.exists_text
  obtain ⟨rows, symbolRows, hlines, hrows, hsymbolRows, hread, hread'⟩ := rows_of_assemble hresult
  refine ⟨a, ha, ⟨rows, symbolRows, hlines, hrows, hsymbolRows, hread, hread'⟩, ?_, himage a,
    hwritten⟩
  rw [hlines, readListing?_unlines hrows hsymbolRows, hread, hread']
  rfl

/-- Wide signs and one of no width in names, five digits and four in addresses, and lines without
bytes. -/
theorem listing_is_read_back_wide :
    ∃ t : Tree, t = .ofNames
        [("a.asm", "日本: ld I, [ कु ] ; wide\n.org 5 कु: .db 日本, 255".toUTF8.toList)] [] ∧
      (answer "" ["-d", "-b0x1FFFF", "a.asm"] t).success = true ∧
      (answer "" ["-d", "-b0x1FFFF", "a.asm"] t).output =
        "0x1FFFF: 日本:           => \n0x1FFFF: ld I, [#005]    => A0 05\n" ++
          "0x20001: .org 5          => \n0x0005:  कु:              => \n" ++
          "0x0005:  .db 131071, 255 => FF FF\n\nकु    0x0005\n日本 0x1FFFF\n\n" ∧
      ∃ o a, Invocation.ofArguments ["-d", "-b0x1FFFF", "a.asm"] = .run o ∧ o.Assembles t a ∧
        readListing? (answer "" ["-d", "-b0x1FFFF", "a.asm"] t).output.toList =
          some (a.lines.map Line.entry, a.symbols.entries) ∧
        (answer "" ["-d", "-b0x1FFFF", "a.asm"] t).tree.read "a.bin" = .ok a.image := by
  have hrun : Invocation.ofArguments ["-d", "-b0x1FFFF", "a.asm"] =
      .run ⟨"a.asm", none, some "0x1FFFF", 0x1FFFF, false, true, 0⟩ := by decide +kernel
  have hpath : Options.outputPath ⟨"a.asm", none, some "0x1FFFF", 0x1FFFF, false, true, 0⟩ =
      "a.bin" := by decide +kernel
  have hsuccess : (answer "" ["-d", "-b0x1FFFF", "a.asm"] (.ofNames [("a.asm",
      "日本: ld I, [ कु ] ; wide\n.org 5 कु: .db 日本, 255".toUTF8.toList)] [])).success = true := by
    decide +kernel
  obtain ⟨a, ha, -, hread, -, hwritten⟩ := listing_is_read_back hrun rfl rfl "" _ hsuccess
  have himage := hwritten rfl
  rw [hpath] at himage
  exact ⟨_, rfl, hsuccess, by decide +kernel, _, a, hrun, ha, hread, himage⟩

end Chip8
