/-
# What a run of the command leaves behind

A run that is asked for assembles its input at the address that is given, and writes the
image or nothing at all. It succeeds iff the input is a text that is assembled, and the
image can be written or need not be (`answer_writes_image_or_nothing`). Then the image
is what can be read at the output path, and no other file is changed; in all other
cases, whatever went wrong and wherever, the tree of files is what it was before.

The first part of the work decides: it ends in failure, or in success without an
image to store, or in an image to store (`Options.ending_work_of_assembles`,
`Options.ending_work_of_not_assembles`). Only then is anything written.

Key definitions: `Options.Assembles`, `Options.HasOrigin`.
Key theorems: `Invocation.hasOrigin_of_run`, `Options.runOn_cases`,
`answer_writes_image_or_nothing`.
-/
import Chip8.Command.Run
import Chip8.Proofs.Assembly.Program
import Chip8.Proofs.Command.Files

namespace Chip8

namespace Options

/-- The input is a file of UTF-8 text, and the text is assembled from the given address on. -/
def Assembles (o : Options) (t : Tree) (a : Assembly) : Prop :=
  ∃ content text, t.read o.input = .ok content ∧
    String.fromUTF8? content.toByteArray = some text ∧
    (assemble o.input text o.origin).result = .ok a

/-- The origin is the address that is given as the base, or 0. -/
def HasOrigin (o : Options) : Prop :=
  (o.base = none ∧ o.origin = 0) ∨ ∃ text, o.base = some text ∧ readAddress text = .ok o.origin

end Options

/-! ### The address that is given -/

namespace Invocation

variable {o : Options} {ms : List Mark}

theorem immediate_ne_run (seen : Bool) (ms : List Mark) : immediate seen ms ≠ some (.run o) := by
  fun_induction immediate seen ms <;> simp_all

/-- A base that is given and not refused is the origin. -/
theorem hasOrigin_of_settle (h : settle ms = .run o) : o.HasOrigin := by
  unfold settle at h
  split at h
  · cases h
  · split at h
    · cases h
    · next hreason =>
      cases h
      have hbase : badBase ms = none := by
        rw [Option.or_eq_none_iff, Option.or_eq_none_iff] at hreason
        exact hreason.2.1
      rw [badBase, List.findSome?_eq_none_iff] at hbase
      cases hvalues : values .base ms with
      | nil => exact .inl ⟨rfl, rfl⟩
      | cons text texts =>
        have htext := hbase text (hvalues ▸ List.mem_cons_self)
        cases haddress : readAddress text with
        | error fault => simp [haddress] at htext
        | ok address => exact .inr ⟨text, rfl, by simp [haddress, Except.toOption]⟩

/-- A run is what the marks come to when none of them is decisive. -/
theorem eq_none_and_settle_of_run {args : List String} (h : ofArguments args = .run o) :
    immediate false (Mark.ofArguments none args) = none ∧
      settle (Mark.ofArguments none args) = .run o := by
  rw [ofArguments] at h
  cases himmediate : immediate false (Mark.ofArguments none args) with
  | none => exact ⟨rfl, by simpa only [himmediate, Option.getD_none] using h⟩
  | some invocation =>
    simp only [himmediate, Option.getD_some] at h
    exact absurd (h ▸ himmediate) (immediate_ne_run false _)

theorem hasOrigin_of_run {args : List String} (h : ofArguments args = .run o) : o.HasOrigin :=
  hasOrigin_of_settle (eq_none_and_settle_of_run h).2

end Invocation

/-! ### The work -/

namespace Options

variable {o : Options} {t : Tree} {a : Assembly}

theorem decode_eq_ok_iff {content : List UInt8} {text : String} :
    decode content = .ok text ↔ String.fromUTF8? content.toByteArray = some text := by
  unfold decode
  split <;> simp_all

/-- An input that is assembled is a text, which is. -/
theorem Assembles.exists_text (h : o.Assembles t a) : ∃ text,
    (t.read o.input).bind decode = .ok text ∧
      (assemble o.input text o.origin).result = .ok a := by
  obtain ⟨content, text, hread, htext, ha⟩ := h
  rw [hread]
  exact ⟨text, decode_eq_ok_iff.mpr htext, ha⟩

/-- An input that is assembled ends the first part of the work in success, or in an image. -/
theorem ending_work_of_assembles (h : o.Assembles t a) :
    (o.work (t.read o.input)).2 =
      if o.check then .stop true else .store o.outputPath a.image := by
  obtain ⟨text, hinput, ha⟩ := h.exists_text
  unfold work
  rw [hinput]
  simp only [ha, deliver]
  split <;> rfl

/-- Any other input ends it in failure. -/
theorem ending_work_of_not_assembles (h : ¬∃ a, o.Assembles t a) :
    (o.work (t.read o.input)).2 = .stop false := by
  unfold work
  cases hinput : (t.read o.input).bind decode with
  | error fault => rfl
  | ok text =>
    obtain ⟨content, hread, htext⟩ := Except.bind_eq_ok_iff.mp hinput
    cases ha : (assemble o.input text o.origin).result with
    | error fault => simp only [ha]
    | ok a => exact absurd ⟨a, content, text, hread, decode_eq_ok_iff.mp htext, ha⟩ h

theorem runOn_of_stop {success : Bool} (h : (o.work (t.read o.input)).2 = .stop success) :
    (o.runOn t).2 = (success, t) := by
  unfold runOn
  rcases hwork : o.work (t.read o.input) with ⟨items, ending⟩
  rw [hwork] at h
  obtain rfl : ending = _ := h
  rfl

theorem runOn_of_store {path : String} {image : List UInt8}
    (h : (o.work (t.read o.input)).2 = .store path image) :
    (o.runOn t).2 =
      match t.write path image with
      | .error _ => (false, t)
      | .ok after => (true, after) := by
  unfold runOn
  rcases hwork : o.work (t.read o.input) with ⟨items, ending⟩
  rw [hwork] at h
  obtain rfl : ending = _ := h
  simp only
  split <;> simp_all [conclude]

/-- **How the work ends.** It writes the image, or leaves the tree of files as it is. -/
theorem runOn_cases (o : Options) (t : Tree) :
    (∃ a after, o.Assembles t a ∧ o.check = false ∧
      t.write o.outputPath a.image = .ok after ∧ (o.runOn t).2 = (true, after)) ∨
    ((∃ a, o.Assembles t a) ∧ o.check = true ∧ (o.runOn t).2 = (true, t)) ∨
    (¬((∃ a, o.Assembles t a) ∧ (o.check = true ∨ t.Writable o.outputPath)) ∧
      (o.runOn t).2 = (false, t)) := by
  by_cases ha : ∃ a, o.Assembles t a
  · obtain ⟨a, ha⟩ := ha
    have hending := ending_work_of_assembles ha
    cases hcheck : o.check with
    | true =>
      rw [hcheck, if_pos rfl] at hending
      exact .inr (.inl ⟨⟨a, ha⟩, rfl, runOn_of_stop hending⟩)
    | false =>
      rw [hcheck, if_neg (by decide)] at hending
      have hrun := runOn_of_store hending
      cases hwrite : t.write o.outputPath a.image with
      | ok after => exact .inl ⟨a, after, ha, rfl, hwrite, by rw [hrun, hwrite]⟩
      | error fault =>
        have hno : ¬t.Writable o.outputPath := by
          rw [Tree.writable_iff a.image, hwrite]
          simp
        exact .inr (.inr ⟨fun ⟨_, h⟩ => h.elim (by simp) hno, by rw [hrun, hwrite]⟩)
  · exact .inr (.inr ⟨fun h => ha h.1, runOn_of_stop (ending_work_of_not_assembles ha)⟩)

end Options

variable {args : List String} {o : Options}

/-- A run shows its items and leaves its tree behind. -/
theorem answer_of_run (h : Invocation.ofArguments args = .run o) (stamp : String) (t : Tree) :
    answer stamp args t =
      ⟨(o.runOn t).2.1, Item.renderAll stamp o.limit (o.runOn t).1, "", (o.runOn t).2.2⟩ := by
  unfold answer
  rw [h]

/-- **The command writes the image or nothing.** Of a run that is asked for, the origin is the
base, or 0. It succeeds iff the input is a text that is assembled, and it only checks or can
write the output. If it succeeds and does not only check, the image is what is read at the output
path afterwards, and no other place has another file; in all other cases nothing is changed. -/
theorem answer_writes_image_or_nothing (h : Invocation.ofArguments args = .run o) (stamp : String)
    (t : Tree) :
    o.HasOrigin ∧
    ((answer stamp args t).success = true ↔
      (∃ a, o.Assembles t a) ∧ (o.check = true ∨ t.Writable o.outputPath)) ∧
    ((answer stamp args t).success = true → o.check = false →
      ∃ a, o.Assembles t a ∧ (answer stamp args t).tree.read o.outputPath = .ok a.image ∧
        (answer stamp args t).tree.directories = t.directories ∧
        ∃ p, t.target o.outputPath = .ok p ∧ (answer stamp args t).tree.file? p = some a.image ∧
          ∀ q, q ≠ p → (answer stamp args t).tree.file? q = t.file? q) ∧
    ((answer stamp args t).success = false ∨ o.check = true →
      (answer stamp args t).tree = t) := by
  have hsuccess : (answer stamp args t).success = (o.runOn t).2.1 := by
    unfold answer
    rw [h]
  have htree : (answer stamp args t).tree = (o.runOn t).2.2 := by
    unfold answer
    rw [h]
  have horigin := Invocation.hasOrigin_of_run h
  rw [hsuccess, htree]
  rcases o.runOn_cases t with ⟨a, after, ha, hcheck, hwrite, hrun⟩ | ⟨ha, hcheck, hrun⟩ |
    ⟨hno, hrun⟩
  · obtain ⟨hread, hdirectories, p, hp, hfile, hrest⟩ := Tree.read_of_write hwrite
    have hwritable := (Tree.writable_iff a.image).mpr ⟨after, hwrite⟩
    rw [hrun]
    exact ⟨horigin, iff_of_true rfl ⟨⟨a, ha⟩, .inr hwritable⟩,
      fun _ _ => ⟨a, ha, hread, hdirectories, p, hp, hfile, hrest⟩, by simp [hcheck]⟩
  · rw [hrun]
    exact ⟨horigin, iff_of_true rfl ⟨ha, .inl hcheck⟩, by simp [hcheck], fun _ => rfl⟩
  · rw [hrun]
    exact ⟨horigin, iff_of_false (by simp) hno, by simp, fun _ => rfl⟩

/-- A run from address 512 on that puts the image in place of a file; the other one stays. -/
theorem answer_writes_image_or_nothing_replaced :
    ∃ o, Invocation.ofArguments ["-vb#200", "sub/a.asm"] = .run o ∧ o.origin = 512 ∧
      ∃ t : Tree, t = .ofNames [("sub/a.asm", "jp &1".toUTF8.toList), ("sub/a.bin", [0])] [] ∧
        (answer "" ["-vb#200", "sub/a.asm"] t).success = true ∧
        ∃ a, o.Assembles t a ∧
          (answer "" ["-vb#200", "sub/a.asm"] t).tree.read "sub/a.bin" = .ok a.image := by
  have hrun : Invocation.ofArguments ["-vb#200", "sub/a.asm"] =
      .run ⟨"sub/a.asm", none, some "#200", 512, false, false, 1⟩ := by decide +kernel
  have h := answer_writes_image_or_nothing hrun ""
    (.ofNames [("sub/a.asm", "jp &1".toUTF8.toList), ("sub/a.bin", [0])] [])
  have hsuccess : (answer "" ["-vb#200", "sub/a.asm"]
      (.ofNames [("sub/a.asm", "jp &1".toUTF8.toList), ("sub/a.bin", [0])] [])).success = true := by
    decide +kernel
  have hpath : Options.outputPath ⟨"sub/a.asm", none, some "#200", 512, false, false, 1⟩ =
      "sub/a.bin" := by decide +kernel
  obtain ⟨a, ha, hread, -⟩ := h.2.2.1 hsuccess rfl
  rw [hpath] at hread
  exact ⟨_, hrun, rfl, _, rfl, hsuccess, a, ha, hread⟩

end Chip8
