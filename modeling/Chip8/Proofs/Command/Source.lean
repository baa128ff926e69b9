/-
# The source after a run

Without `-o` the image goes beside its source, to the path with the extension `bin`. The
source itself is the only other file that this can be, and it is iff its name has that
extension already. So a run leaves the source as it is, unless its name ends in `.bin`, the
run succeeds and does not only check; then the source is replaced by the image
(`source_stays_unless_replaced`, `source_can_be_replaced`).

Key theorems: `Invocation.inputs_eq_of_run`, `Tree.read_of_write_withExtension`,
`source_stays_unless_replaced`, `source_can_be_replaced`.
-/
import Chip8.Proofs.Command.Paths
import Chip8.Proofs.Command.Run

namespace Chip8

/-! ### Naming one source, and no output -/

namespace Invocation

variable {o : Options} {ms : List Mark} {seen : Bool} {args : List String}

/-- Marks of which none is decisive name one input at the most. -/
theorem inputs_of_immediate_eq_none (h : immediate seen ms = none) :
    (inputs ms).length ≤ if seen then 0 else 1 := by
  fun_induction immediate seen ms with
  | case1 => simp [inputs]
  | case2 | case3 | case4 | case5 => cases h
  | case6 seen path ms hseen ih => simpa [inputs, hseen] using ih h
  | case7 seen m ms _ _ _ hinput ih =>
    have hskip : inputs (m :: ms) = inputs ms := by
      cases m <;> simp_all [inputs]
    rw [hskip]
    exact ih h

/-- The options hold the first input, and the first value of the output. -/
theorem input_and_output_of_settle (h : settle ms = .run o) :
    (inputs ms).head? = some o.input ∧ (values .output ms).head? = o.output := by
  unfold settle at h
  split at h
  · cases h
  · next input more hinputs =>
    split at h
    · cases h
    · cases h
      exact ⟨by rw [hinputs, List.head?_cons], rfl⟩

/-- A run has one input. -/
theorem inputs_eq_of_run (h : ofArguments args = .run o) :
    inputs (Mark.ofArguments none args) = [o.input] := by
  obtain ⟨himmediate, hsettle⟩ := eq_none_and_settle_of_run h
  have hfirst := (input_and_output_of_settle hsettle).1
  have hlength : _ ≤ 1 := inputs_of_immediate_eq_none himmediate
  obtain ⟨more, hinputs⟩ := List.head?_eq_some_iff.mp hfirst
  rw [hinputs, List.length_cons] at hlength
  rw [hinputs, List.length_eq_zero_iff.mp (Nat.le_zero.mp (Nat.le_of_succ_le_succ hlength))]

/-- Without `-o` a run has no output of its own. -/
theorem output_eq_none_of_run (h : ofArguments args = .run o)
    (hno : uses .output (Mark.ofArguments none args) = 0) : o.output = none := by
  obtain ⟨-, hsettle⟩ := eq_none_and_settle_of_run h
  have hvalues : values .output (Mark.ofArguments none args) = [] := by
    refine List.filterMap_eq_nil_iff.mpr fun m hm => ?_
    have hm' := List.countP_eq_zero.mp hno m hm
    cases m with
    | valued option value => simp_all
    | input | check | listing | verbose | version | help | stray => rfl
  rw [← (input_and_output_of_settle hsettle).2, hvalues, List.head?_nil]

end Invocation

/-! ### The source and the image beside it -/

variable {t u : Tree} {path : String} {content image : List UInt8}

/-- **Beside or on top.** With the extension `bin`, what is written goes on top of what was read if
that has the extension already, and otherwise leaves it as it is. -/
theorem Tree.read_of_write_withExtension (hread : t.read path = .ok content)
    (hwrite : t.write (Path.withExtension path "bin") image = .ok u) :
    (Path.HasExtension path "bin" → u.read path = .ok image) ∧
      (¬Path.HasExtension path "bin" → u.read path = .ok content) := by
  have hslash : '/' ∉ "bin".toList := by decide
  have hdot : '.' ∉ "bin".toList := by decide
  have hbare : Path.namesFile (Path.bare (Path.fileName path)) = true := by
    by_contra hbare
    have hname : Path.namesFile (Path.fileName (Path.withExtension path "bin")) = false :=
      Path.namesFile_withExtension_of_not (Bool.eq_false_iff.mpr hbare)
    rw [namesFile_of_write hwrite] at hname
    cases hname
  have hself := Path.withExtension_eq_self_iff hslash hdot hbare
  have hfolder := (Path.folder_fileName_withExtension hslash hbare).1
  constructor
  · intro hextension
    rw [hself.mpr hextension] at hwrite
    exact (read_of_write hwrite).1
  · intro hextension
    refine read_of_write_beside hwrite hread hfolder fun hname => hextension (hself.mp ?_)
    apply String.toList_injective
    rw [← Path.folder_append_fileName, hfolder, hname, Path.folder_append_fileName]

/-! ### A run without an output -/

/-- **A source stays as it is, unless it is replaced by its image.** Take any command line without
`-o`, and an input that it names. What can be read at that path is the same after the run as before,
whether the command line is refused or asks for something else, the text is wrong or the
image cannot be written; unless the name has the extension `bin` already, and the run succeeds and
does not only check. Then it is the image. -/
theorem source_stays_unless_replaced {args : List String}
    (hoption : Invocation.uses .output (Mark.ofArguments none args) = 0)
    (hpath : path ∈ Invocation.inputs (Mark.ofArguments none args)) (stamp : String) (t : Tree) :
    (¬(Path.HasExtension path "bin" ∧ (answer stamp args t).success = true ∧
        ∃ o, Invocation.ofArguments args = .run o ∧ o.check = false) →
      (answer stamp args t).tree.read path = t.read path) ∧
    (∀ o, Invocation.ofArguments args = .run o → o.check = false →
      Path.HasExtension path "bin" → (answer stamp args t).success = true →
        ∃ a, o.Assembles t a ∧ (answer stamp args t).tree.read path = .ok a.image) := by
  cases hinvocation : Invocation.ofArguments args with
  | version | help | refused reason =>
    have htree : (answer stamp args t).tree = t := by
      unfold answer
      rw [hinvocation]
    exact ⟨fun _ => congrArg (Tree.read · path) htree, fun o h => by cases h⟩
  | run o =>
    obtain rfl : path = o.input := by
      rwa [Invocation.inputs_eq_of_run hinvocation, List.mem_singleton] at hpath
    have hout : o.outputPath = Path.withExtension o.input "bin" := by
      rw [Options.outputPath, Invocation.output_eq_none_of_run hinvocation hoption,
        Option.getD_none]
    rw [answer_of_run hinvocation]
    dsimp only
    rcases o.runOn_cases t with ⟨a, after, ha, hcheck, hwrite, hrun⟩ | ⟨-, hcheck, hrun⟩ |
      ⟨-, hrun⟩
    · obtain ⟨content, -, hread, -⟩ := id ha
      rw [hout] at hwrite
      obtain ⟨htop, hbeside⟩ := Tree.read_of_write_withExtension hread hwrite
      rw [hrun]
      constructor
      · intro hno
        rw [hread]
        exact hbeside fun hextension => hno ⟨hextension, rfl, o, rfl, hcheck⟩
      · rintro _ ⟨⟩ - hextension -
        exact ⟨a, ha, htop hextension⟩
    · rw [hrun]
      refine ⟨fun _ => rfl, ?_⟩
      rintro _ ⟨⟩ hno
      rw [hcheck] at hno
      cases hno
    · rw [hrun]
      refine ⟨fun _ => rfl, ?_⟩
      rintro _ ⟨⟩ - - hfail
      cases hfail

/-- A source of two extensions stays beside its image; the same run from the image on replaces
it. -/
theorem source_stays_unless_replaced_twice :
    ∃ t : Tree, t = .ofNames [("sub/.a.bin.asm", "jp &0".toUTF8.toList),
        ("sub/.a.bin", "ret".toUTF8.toList)] [] ∧
      (answer "" ["-vd", "sub/.a.bin.asm"] t).success = true ∧
      (answer "" ["-vd", "sub/.a.bin.asm"] t).tree.read "sub/.a.bin.asm" =
        .ok "jp &0".toUTF8.toList ∧
      ∃ o a, Invocation.ofArguments ["sub/.a.bin"] = .run o ∧ o.Assembles t a ∧
        Path.HasExtension "sub/.a.bin" "bin" ∧
        (answer "" ["sub/.a.bin"] t).tree.read "sub/.a.bin" = .ok a.image := by
  have hrun : Invocation.ofArguments ["sub/.a.bin"] =
      .run ⟨"sub/.a.bin", none, none, 0, false, false, 0⟩ := by decide +kernel
  have hfront : Path.HasExtension "sub/.a.bin" "bin" := ⟨['.', 'a'], by decide, by decide +kernel⟩
  have hasm : ¬Path.HasExtension "sub/.a.bin.asm" "bin" := by
    rintro ⟨front, -, hname⟩
    have hlast := congrArg List.getLast? hname
    rw [List.getLast?_append_cons] at hlast
    revert hlast
    decide +kernel
  have hoption : Invocation.uses .output (Mark.ofArguments none ["-vd", "sub/.a.bin.asm"]) = 0 ∧
      Invocation.uses .output (Mark.ofArguments none ["sub/.a.bin"]) = 0 := by decide +kernel
  have hpath : "sub/.a.bin.asm" ∈
        Invocation.inputs (Mark.ofArguments none ["-vd", "sub/.a.bin.asm"]) ∧
      "sub/.a.bin" ∈ Invocation.inputs (Mark.ofArguments none ["sub/.a.bin"]) := by decide +kernel
  have hstays := (source_stays_unless_replaced hoption.1 hpath.1 "" (.ofNames
    [("sub/.a.bin.asm", "jp &0".toUTF8.toList), ("sub/.a.bin", "ret".toUTF8.toList)] [])).1
      fun h => hasm h.1
  obtain ⟨a, ha, himage⟩ := (source_stays_unless_replaced hoption.2 hpath.2 "" (.ofNames
    [("sub/.a.bin.asm", "jp &0".toUTF8.toList), ("sub/.a.bin", "ret".toUTF8.toList)] [])).2 _ hrun
      rfl hfront (by decide +kernel)
  have hbefore : Tree.read (.ofNames [("sub/.a.bin.asm", "jp &0".toUTF8.toList),
      ("sub/.a.bin", "ret".toUTF8.toList)] []) "sub/.a.bin.asm" =
        .ok "jp &0".toUTF8.toList := by decide +kernel
  exact ⟨_, rfl, by decide +kernel, hstays.trans hbefore, _, a, hrun, ha, hfront, himage⟩

/-- The source is replaced if its name ends in `.bin` already. -/
theorem source_can_be_replaced :
    Invocation.uses .output (Mark.ofArguments none ["a.bin"]) = 0 ∧
      Invocation.inputs (Mark.ofArguments none ["a.bin"]) = ["a.bin"] ∧
      ∃ t : Tree, t = .ofNames [("a.bin", "cls".toUTF8.toList)] [] ∧
        t.read "a.bin" = .ok "cls".toUTF8.toList ∧
        (answer "" ["a.bin"] t).tree.read "a.bin" = .ok [0x00, 0xE0] ∧
        (answer "" ["a.bin"] t).tree.read "a.bin" ≠ t.read "a.bin" :=
  ⟨by decide +kernel, by decide +kernel, _, rfl, by decide +kernel, by decide +kernel,
    by decide +kernel⟩

end Chip8
