/-
# Verbosity only filters

How often `-v` is given, and where, makes no difference to what the command does. The
marks of a command line decide what it comes to, and of the marks `-v` nothing is used
but their number (`Invocation.ofArguments_of_alike`). That number is used in two places:
it is told in the record of the arguments, and it sets the level up to which records are
shown. The two agree, for the record of the arguments is only shown at the highest level,
where it says the same for every number. So a reader who listens less sees what a reader
who hears all sees, less the records of the levels that are left out
(`verbosity_only_filters`).

Key definitions: `AlikeButVerbosity`, `verbosityOf`, `keptLevels`, `Item.keeps`, `shownItems`.
Key theorems: `Invocation.ofArguments_of_alike`, `Options.runOn_withVerbosity`,
`alikeButVerbosity_replicate`, `verbosity_only_filters`.
-/
import Mathlib.Data.List.Basic
import Chip8.Proofs.Command.Run

namespace Chip8

/-- The marks other than `-v`. -/
def Mark.others (ms : List Mark) : List Mark := ms.filter fun m => m ≠ .verbose

/-- Two command lines say the same, but for how often and where they say `-v`. -/
def AlikeButVerbosity (args args' : List String) : Prop :=
  Mark.others (Mark.ofArguments none args) = Mark.others (Mark.ofArguments none args')

/-- How often a command line says `-v`. -/
def verbosityOf (args : List String) : Nat := (Mark.ofArguments none args).count .verbose

/-- The levels of the records that are shown if `-v` is given so many times. -/
def keptLevels : Nat → List Level
  | 0 => [.error]
  | 1 => [.error, .warn]
  | 2 => [.error, .warn, .info]
  | _ => [.error, .warn, .info, .debug]

/-- Whether an item is put out if `-v` is given so many times: a text always is. -/
def Item.keeps (count : Nat) : Item → Bool
  | .record r => r.level ∈ keptLevels count
  | .text _ => true

/-- What the command puts out, item by item, to a reader who hears all that it shows. -/
def shownItems (args : List String) (t : Tree) : List Item :=
  match Invocation.ofArguments args with
  | .version => [.text versionLine]
  | .help => [.text helpText]
  | .refused _ => []
  | .run o => (o.runOn t).1.filter (Item.isShown .debug)

/-! ### What a command line comes to -/

namespace Mark

variable {ms : List Mark}

theorem filterMap_others {α : Type} {f : Mark → Option α} (h : f .verbose = none)
    (ms : List Mark) : (others ms).filterMap f = ms.filterMap f := by
  rw [others, List.filterMap_filter]
  refine List.filterMap_congr fun m _ => ?_
  by_cases hm : m = .verbose
  · simp [hm, h]
  · simp [hm]

theorem countP_others {p : Mark → Bool} (h : p .verbose = false) (ms : List Mark) :
    (others ms).countP p = ms.countP p := by
  rw [others, List.countP_filter]
  refine List.countP_congr fun m _ => ?_
  by_cases hm : m = .verbose
  · simp [hm, h]
  · simp [hm]

theorem count_others {m : Mark} (h : m ≠ .verbose) (ms : List Mark) :
    (others ms).count m = ms.count m :=
  countP_others (by simpa using h.symm) ms

theorem contains_others {m : Mark} (h : m ≠ .verbose) (ms : List Mark) :
    (others ms).contains m = ms.contains m := by
  rw [Bool.eq_iff_iff]
  simp [others, h]

end Mark

/-- The options with `-v` given so many times. -/
def Options.withVerbosity (o : Options) (count : Nat) : Options := { o with verbosity := count }

namespace Invocation

open Mark

/-- What a command line comes to with `-v` given so many times. -/
def withVerbosity (count : Nat) : Invocation → Invocation
  | run o => .run (o.withVerbosity count)
  | version => version
  | help => help
  | refused reason => refused reason

theorem immediate_others (seen : Bool) (ms : List Mark) :
    immediate seen (others ms) = immediate seen ms := by
  induction ms generalizing seen with
  | nil => rfl
  | cons m ms ih =>
    by_cases hm : m = .verbose
    · subst hm
      exact ih seen
    · have hothers : others (m :: ms) = m :: others ms := by simp [others, hm]
      rw [hothers]
      cases m <;> simp [immediate, ih]

theorem values_others (option : Valued) (ms : List Mark) :
    values option (others ms) = values option ms := filterMap_others rfl ms

theorem uses_others (option : Valued) (ms : List Mark) :
    uses option (others ms) = uses option ms := countP_others rfl ms

theorem unmet_others (ms : List Mark) : unmet (others ms) = unmet ms := by
  unfold unmet
  have hreverse : (others ms).reverse = others ms.reverse := List.filter_reverse.symm
  rw [hreverse, ← List.head?_filterMap, ← List.head?_filterMap, filterMap_others rfl]
  simp only [values_others]

theorem badBase_others (ms : List Mark) : badBase (others ms) = badBase ms := by
  unfold badBase
  rw [values_others]

theorem repeated_others (ms : List Mark) : repeated (others ms) = repeated ms := by
  unfold repeated
  rw [uses_others, uses_others, count_others (by decide), count_others (by decide)]

/-- Of the marks `-v` only their number is used. -/
theorem settle_others (ms : List Mark) :
    settle ms = (settle (others ms)).withVerbosity (ms.count .verbose) := by
  have hinputs : inputs (others ms) = inputs ms := filterMap_others rfl ms
  unfold settle
  rw [hinputs, unmet_others, badBase_others, repeated_others, values_others, values_others,
    contains_others (by decide), contains_others (by decide)]
  cases inputs ms with
  | nil => rfl
  | cons input more =>
    dsimp only
    cases ((unmet ms).map Refusal.noValue).or ((badBase ms).or (repeated ms)) <;> rfl

/-- **Command lines that say the same but for `-v` come to the same** but for its number. -/
theorem ofArguments_of_alike {args args' : List String} (h : AlikeButVerbosity args args') :
    ofArguments args' = (ofArguments args).withVerbosity (verbosityOf args') := by
  have himmediate : immediate false (Mark.ofArguments none args') =
      immediate false (Mark.ofArguments none args) := by
    rw [← immediate_others, ← h, immediate_others]
  have hsettle : settle (Mark.ofArguments none args') =
      (settle (Mark.ofArguments none args)).withVerbosity (verbosityOf args') := by
    rw [settle_others, settle_others (Mark.ofArguments none args), ← h]
    cases settle (others (Mark.ofArguments none args)) <;> rfl
  unfold ofArguments
  dsimp only
  rw [himmediate, hsettle]
  cases hinvocation : immediate false (Mark.ofArguments none args) with
  | none => rfl
  | some invocation =>
    cases invocation with
    | run o => exact absurd hinvocation (immediate_ne_run false _)
    | version | help | refused reason => rfl

end Invocation

/-- Flags in front of a command line are more of the same. -/
theorem alikeButVerbosity_replicate (count : Nat) (args : List String) :
    AlikeButVerbosity args (List.replicate count "-v" ++ args) ∧
      verbosityOf (List.replicate count "-v" ++ args) = count + verbosityOf args := by
  have hmarks : Mark.ofArguments none (List.replicate count "-v" ++ args) =
      List.replicate count .verbose ++ Mark.ofArguments none args := by
    induction count with
    | zero => rfl
    | succ count ih =>
      rw [List.replicate_succ, List.replicate_succ, List.cons_append, List.cons_append, ← ih]
      rfl
  unfold AlikeButVerbosity verbosityOf Mark.others
  rw [hmarks]
  simp

/-! ### What is put out -/

namespace Options

/-- Only the record of the arguments, the first item, tells how often `-v` was given. -/
theorem work_withVerbosity (o : Options) (count : Nat) (input : Except FileFault (List UInt8)) :
    (o.withVerbosity count).work input =
      ((o.withVerbosity count).account :: (o.work input).1.tail, (o.work input).2) := by
  have hassemble : ∀ text, assemble (o.withVerbosity count).input text
      (o.withVerbosity count).origin = assemble o.input text o.origin := fun text => rfl
  unfold work
  cases input.bind decode with
  | error fault => rfl
  | ok text =>
    dsimp only
    rw [hassemble]
    cases (assemble o.input text o.origin).result with
    | error fault => rfl
    | ok a => rfl

/-- The work is the same, whatever is read and whether the image can be written. -/
theorem runOn_withVerbosity (o : Options) (count : Nat) (t : Tree) :
    (o.withVerbosity count).runOn t =
      ((o.withVerbosity count).account :: (o.runOn t).1.tail, (o.runOn t).2) := by
  obtain ⟨items, ending, hwork⟩ : ∃ items ending, ∀ count,
      (o.withVerbosity count).work (t.read o.input) =
        ((o.withVerbosity count).account :: items, ending) :=
    ⟨_, _, fun count => work_withVerbosity o count _⟩
  have hinput : (o.withVerbosity count).input = o.input := rfl
  have hself : o.work (t.read o.input) = (o.account :: items, ending) := hwork o.verbosity
  unfold runOn
  rw [hinput, hwork, hself]
  cases ending with
  | stop success => rfl
  | store path image =>
    dsimp only
    cases t.write path image <;> rfl

/-- Records are shown up to debugging ones if `-v` is given three times or more. -/
theorem limit_withVerbosity {count : Nat} (h : 3 ≤ count) (o : Options) :
    (o.withVerbosity count).limit = .debug := by
  obtain ⟨more, rfl⟩ := Nat.exists_eq_add_of_le' h
  rfl

/-- The record of the arguments says the same for every number of `-v` that shows it. -/
theorem account_withVerbosity {count count' : Nat} (h : 3 ≤ count) (h' : 3 ≤ count')
    (o : Options) : (o.withVerbosity count).account = (o.withVerbosity count').account := by
  unfold account
  rw [limit_withVerbosity h, limit_withVerbosity h']
  rfl

end Options

namespace Item

/-- The kept levels are those up to the limit. -/
theorem isShown_limit_eq_keeps (o : Options) (count : Nat) :
    isShown (o.withVerbosity count).limit = keeps count := by
  funext item
  cases item with
  | text s => rfl
  | record r =>
    have hlevel : ∀ level : Level,
        level.within (o.withVerbosity count).limit = decide (level ∈ keptLevels count) := by
      intro level
      match count with
      | 0 | 1 | 2 | _ + 3 => cases level <;> rfl
    exact hlevel r.level

/-- From three on all is kept that a reader hears who hears most. -/
theorem keeps_eq_isShown {count : Nat} (h : 3 ≤ count) : keeps count = isShown .debug := by
  obtain ⟨more, rfl⟩ := Nat.exists_eq_add_of_le' h
  funext item
  cases item with
  | text s => rfl
  | record r =>
    have hlevel : ∀ level : Level,
        decide (level ∈ keptLevels (more + 3)) = level.within .debug := by
      intro level
      cases level <;> rfl
    exact hlevel r.level

/-- What is kept for any number is kept for three. -/
theorem isShown_of_keeps {count : Nat} {item : Item} (h : item.keeps count = true) :
    item.isShown .debug = true := by
  have hkept : ∀ level ∈ keptLevels count, level ∈ keptLevels 3 := by
    match count with
    | 0 | 1 | 2 => decide
    | more + 3 => exact fun level hlevel => hlevel
  rw [← keeps_eq_isShown (Nat.le_refl 3)]
  cases item with
  | text s => rfl
  | record r => exact decide_eq_true (hkept r.level (of_decide_eq_true h))

/-- What is kept for any number is found among what is shown to a reader who hears most. -/
theorem filter_keeps_filter_isShown (count : Nat) (items : List Item) :
    (items.filter (isShown .debug)).filter (keeps count) = items.filter (keeps count) := by
  rw [List.filter_filter]
  refine List.filter_congr fun item _ => ?_
  by_cases hitem : keeps count item = true
  · rw [hitem, isShown_of_keeps hitem, Bool.and_self]
  · simp [hitem]

/-- The record of the arguments makes no difference between two numbers of `-v`, the second of
which shows everything: it is the same, or it is left out. -/
theorem filter_account_cons {count loud : Nat} (h : 3 ≤ loud) (o : Options) (items : List Item) :
    ((o.withVerbosity count).account :: items).filter (keeps count) =
      ((o.withVerbosity loud).account :: items).filter (keeps count) := by
  by_cases hcount : 3 ≤ count
  · rw [Options.account_withVerbosity hcount h]
  · have hleft : ∀ count', keeps count (o.withVerbosity count').account = false := by
      intro count'
      have hsmall : count = 0 ∨ count = 1 ∨ count = 2 := by omega
      rcases hsmall with rfl | rfl | rfl <;> rfl
    rw [List.filter_cons_of_neg (by simp [hleft]), List.filter_cons_of_neg (by simp [hleft])]

end Item

variable {args loud : List String} {count : Nat}

/-- From three on nothing is left out. -/
theorem filter_keeps_shownItems (h : 3 ≤ count) (args : List String) (t : Tree) :
    (shownItems args t).filter (Item.keeps count) = shownItems args t := by
  unfold shownItems
  cases Invocation.ofArguments args with
  | version | help | refused reason => rfl
  | run o =>
    exact (Item.filter_keeps_filter_isShown count _).trans (by rw [Item.keeps_eq_isShown h])

/-- What a command line puts out is what a louder one does, less what its own number does not
keep. -/
theorem output_eq_of_alike (h : AlikeButVerbosity args loud) (hloud : 3 ≤ verbosityOf loud)
    (stamp : String) (t : Tree) :
    (answer stamp args t).output = String.join
      (((shownItems loud t).filter (Item.keeps (verbosityOf args))).map (Item.render stamp)) := by
  have hargs := Invocation.ofArguments_of_alike (Eq.refl (Mark.others (Mark.ofArguments none args)))
  have hloud' := Invocation.ofArguments_of_alike h
  unfold answer shownItems
  rw [hargs, hloud']
  cases Invocation.ofArguments args with
  | version | help | refused reason => rfl
  | run o =>
    dsimp only [Invocation.withVerbosity]
    rw [Options.runOn_withVerbosity, Options.runOn_withVerbosity, Item.filter_keeps_filter_isShown,
      ← Item.filter_account_cons hloud]
    dsimp only [Item.renderAll]
    rw [Item.isShown_limit_eq_keeps]

/-- **Verbosity only filters what is put out.** Two command lines that say the same, but for how
often and where they say `-v`, succeed or fail alike, complain alike and leave the same files. Say
that the second gives `-v` three times or more. It puts out its items one after another; the first
puts out the same items in the same order, less the records of the levels that its own number of
`-v` does not keep, and so the very same if it gives `-v` three times or more as well. -/
theorem verbosity_only_filters (h : AlikeButVerbosity args loud) (stamp : String) (t : Tree) :
    (answer stamp args t).success = (answer stamp loud t).success ∧
      (answer stamp args t).complaint = (answer stamp loud t).complaint ∧
      (answer stamp args t).tree = (answer stamp loud t).tree ∧
      (3 ≤ verbosityOf loud →
        (answer stamp loud t).output =
            String.join ((shownItems loud t).map (Item.render stamp)) ∧
          (answer stamp args t).output = String.join
            (((shownItems loud t).filter (Item.keeps (verbosityOf args))).map
              (Item.render stamp)) ∧
          (3 ≤ verbosityOf args → (answer stamp args t).output = (answer stamp loud t).output)) := by
  obtain ⟨hsuccess, hcomplaint, htree⟩ :
      (answer stamp args t).success = (answer stamp loud t).success ∧
        (answer stamp args t).complaint = (answer stamp loud t).complaint ∧
        (answer stamp args t).tree = (answer stamp loud t).tree := by
    unfold answer
    rw [Invocation.ofArguments_of_alike h]
    cases Invocation.ofArguments args with
    | version | help | refused reason => exact ⟨rfl, rfl, rfl⟩
    | run o =>
      dsimp only [Invocation.withVerbosity]
      rw [Options.runOn_withVerbosity]
      exact ⟨rfl, rfl, rfl⟩
  refine ⟨hsuccess, hcomplaint, htree, fun hloud => ?_⟩
  have hoften : (answer stamp loud t).output =
      String.join ((shownItems loud t).map (Item.render stamp)) := by
    rw [output_eq_of_alike rfl hloud, filter_keeps_shownItems hloud]
  have hargs := output_eq_of_alike h hloud stamp t
  refine ⟨hoften, hargs, fun hcount => ?_⟩
  rw [hargs, filter_keeps_shownItems hcount, hoften]

/-- With one `-v` in a bundle only the warning is put out. With three more in front there are six
records besides. -/
theorem verbosity_only_filters_bundled :
    ∃ t : Tree, t = .ofNames [("a.asm", "a: a: jp [a]".toUTF8.toList)] [] ∧
      AlikeButVerbosity ["-vc", "a.asm"] ["-v", "-v", "-v", "-vc", "a.asm"] ∧
      3 ≤ verbosityOf ["-v", "-v", "-v", "-vc", "a.asm"] ∧
      (shownItems ["-v", "-v", "-v", "-vc", "a.asm"] t).length = 7 ∧
      (answer "" ["-vc", "a.asm"] t).output =
        String.join (((shownItems ["-v", "-v", "-v", "-vc", "a.asm"] t).filter
          (Item.keeps 1)).map (Item.render "")) ∧
      (answer "" ["-vc", "a.asm"] t).output =
        "[chip8asm::assembler::pass][WARN] a.asm:1:4: label `a` redefined, was 0x000\n" := by
  obtain ⟨halike, hcount⟩ := alikeButVerbosity_replicate 3 ["-vc", "a.asm"]
  have hone : verbosityOf ["-vc", "a.asm"] = 1 := by decide +kernel
  rw [hone] at hcount
  have hloud : 3 ≤ verbosityOf ["-v", "-v", "-v", "-vc", "a.asm"] := by
    have hflags : ["-v", "-v", "-v", "-vc", "a.asm"] =
        List.replicate 3 "-v" ++ ["-vc", "a.asm"] := rfl
    rw [hflags, hcount]
    decide
  have h := verbosity_only_filters halike "" (.ofNames [("a.asm", "a: a: jp [a]".toUTF8.toList)] [])
  obtain ⟨-, houtput, -⟩ := h.2.2.2 hloud
  rw [hone] at houtput
  exact ⟨_, rfl, halike, hloud, by decide +kernel, houtput, by decide +kernel⟩

end Chip8
