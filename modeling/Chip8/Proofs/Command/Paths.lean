/-
# What paths lead to

A path is its folder, up to the last slash, and the name of its file; its parts are those
of the folder, and then the name. Another extension changes the name only, so both paths
are followed alike up to it, and they lead to two places iff the names are two
(`Tree.place_eq_iff`). They are one name iff the path has that extension already
(`Path.withExtension_eq_self_iff`).

Wherever a path leads to, all places above are directories (`Tree.Settled`), which every
part of a path preserves. So a name that is empty or consists of one or two dots is that of a
directory, and such a path is neither read nor written (`Path.namesFile_of_read`,
`Path.namesFile_of_write`).

Key definitions: `Path.ways`, `Path.HasExtension`, `Tree.Settled`.
Key theorems: `Path.parts_eq`, `Path.withExtension_eq_self_iff`, `Tree.settled_walk`,
`Tree.read_of_write_beside`.
-/
import Mathlib.Data.List.DropRight
import Mathlib.Logic.Function.Iterate
import Chip8.Proofs.Command.Files

namespace Chip8
namespace Path

/-- The parts of a path that leads to a folder. -/
def ways (folder : List Char) : List String :=
  if folder = [] then [] else (folder.dropLast.splitOn '/').map String.ofList

/-- The name of the file has something in front of a dot, and behind it the extension. -/
def HasExtension (path extension : String) : Prop :=
  ∃ front, front ≠ [] ∧ fileName path = front ++ '.' :: extension.toList

variable {path extension : String} {before name front : List Char}

/-! ### Folders and names -/

theorem folder_append_fileName (path : String) : folder path ++ fileName path = path.toList := by
  rw [folder, fileName, ← List.reverse_append, List.takeWhile_append_dropWhile,
    List.reverse_reverse]

theorem namesFile_eq_false_iff :
    namesFile name = false ↔ name = [] ∨ name = ['.'] ∨ name = ['.', '.'] := by
  rw [← Bool.not_eq_true]
  simp only [namesFile, Bool.and_eq_true, decide_eq_true_eq, ne_eq, not_and_or, not_not, or_assoc]

theorem slash_notMem_fileName (path : String) : '/' ∉ fileName path := by
  intro h
  have hslash := List.mem_takeWhile_imp (List.mem_reverse.mp h)
  simp at hslash

/-- A folder is nothing, or it ends in a slash. -/
theorem folder_cases (path : String) :
    folder path = [] ∨ ∃ before, folder path = before ++ ['/'] := by
  rcases List.eq_nil_or_concat' (folder path) with h | ⟨before, c, h⟩
  · exact .inl h
  · have hne : path.toList.rdropWhile (· != '/') ≠ [] := by
      change folder path ≠ []
      simp [h]
    have hlast := List.rdropWhile_last_not (· != '/') path.toList hne
    have hc : (path.toList.rdropWhile (· != '/')).getLast hne = c := by
      change (folder path).getLast _ = c
      simp [h]
    rw [hc] at hlast
    exact .inr ⟨before, by simpa [h] using hlast⟩

theorem all_ne_of_notMem {d : Char} {cs : List Char} (h : d ∉ cs) :
    ∀ c ∈ cs.reverse, (c != d) = true := by
  intro c hc
  have hne : c ≠ d := fun heq => h (heq ▸ List.mem_reverse.mp hc)
  simpa using hne

/-- A folder and a name are those of the path that is made of them. -/
theorem folder_fileName_of_toList_eq (h : path.toList = before ++ name)
    (hbefore : before = [] ∨ ∃ more, before = more ++ ['/']) (hname : '/' ∉ name) :
    folder path = before ∧ fileName path = name := by
  have hall := all_ne_of_notMem hname
  unfold folder fileName
  rw [h, List.reverse_append, List.dropWhile_append_of_pos hall, List.takeWhile_append_of_pos hall]
  rcases hbefore with rfl | ⟨more, rfl⟩ <;> simp

/-- **The parts of a path** are those of its folder, and then the name of its file. -/
theorem parts_eq (path : String) :
    parts path = ways (folder path) ++ [String.ofList (fileName path)] := by
  have hname := List.splitOn_eq_singleton (slash_notMem_fileName path)
  unfold parts ways
  rw [← folder_append_fileName path]
  rcases folder_cases path with h | ⟨before, h⟩
  · rw [h, if_pos rfl, List.nil_append, hname]
    rfl
  · rw [h, if_neg (by simp), List.append_assoc, List.singleton_append,
      List.splitOn_append_cons_self, hname, List.dropLast_concat, List.map_append]
    rfl

/-- No part of a path has a slash in it. -/
theorem slash_notMem_of_mem_splitOn {cs piece : List Char} (h : piece ∈ cs.splitOn '/') :
    '/' ∉ piece := by
  induction cs generalizing piece with
  | nil =>
    obtain rfl : piece = [] := by simpa using h
    exact List.not_mem_nil
  | cons c cs ih =>
    rw [List.splitOn_cons_eq_if_modifyHead] at h
    split at h
    · rcases List.mem_cons.mp h with rfl | h
      · exact List.not_mem_nil
      · exact ih h
    · next hc =>
      obtain ⟨first, rest, hsplit⟩ := List.exists_cons_of_ne_nil (List.splitOn_ne_nil '/' cs)
      rw [hsplit, List.modifyHead_cons] at h
      rcases List.mem_cons.mp h with rfl | h
      · rw [List.mem_cons, not_or]
        exact ⟨fun hslash => hc (by simp [← hslash]), ih (hsplit ▸ List.mem_cons_self)⟩
      · exact ih (hsplit ▸ List.mem_cons_of_mem _ h)

theorem ne_root_of_mem_parts {part : String} (h : part ∈ parts path) : part ≠ "/" := by
  rintro rfl
  obtain ⟨piece, hpiece, hslash⟩ := List.mem_map.mp h
  have hmem := slash_notMem_of_mem_splitOn hpiece
  rw [← String.toList_ofList (l := piece), hslash] at hmem
  exact hmem (by decide)

/-! ### Extensions -/

theorem stem_append (hfront : front ≠ []) (hdot : '.' ∉ extension.toList) :
    stem (front ++ '.' :: extension.toList) = front := by
  have hall := all_ne_of_notMem hdot
  obtain ⟨c, cs, hreverse⟩ := List.exists_cons_of_ne_nil (mt List.reverse_eq_nil_iff.mp hfront)
  unfold stem
  rw [List.reverse_append, List.reverse_cons, List.append_assoc, List.dropWhile_append_of_pos hall,
    List.singleton_append, List.dropWhile_cons_of_neg (by simp), hreverse]
  exact List.reverse_eq_iff.mpr hreverse.symm

theorem stem_ne_nil (h : name ≠ []) : stem name ≠ [] := by
  unfold stem
  split
  · simp
  · exact h

theorem slash_notMem_stem (h : '/' ∉ name) : '/' ∉ stem name := by
  unfold stem
  split
  · next c cs heq =>
    intro hmem
    have hsuffix := List.dropWhile_suffix (l := name.reverse) (· != '.')
    rw [heq] at hsuffix
    exact h (List.mem_reverse.mp
      (hsuffix.subset (List.mem_cons_of_mem _ (List.mem_reverse.mp hmem))))
  · exact h

theorem ne_nil_of_namesFile_bare (h : namesFile (bare name) = true) : name ≠ [] := by
  rintro rfl
  revert h
  decide

/-- Another extension goes behind the same folder, if the path names a file. -/
theorem folder_fileName_withExtension (hslash : '/' ∉ extension.toList)
    (h : namesFile (bare (fileName path)) = true) :
    folder (withExtension path extension) = folder path ∧
      fileName (withExtension path extension) =
        stem (fileName path) ++ '.' :: extension.toList := by
  refine folder_fileName_of_toList_eq ?_ (folder_cases path) ?_
  · unfold withExtension
    simp [h]
  · simp [slash_notMem_stem (slash_notMem_fileName path), hslash]

/-- A path that names no file when its extension is cut off, names none with another one. -/
theorem namesFile_withExtension_of_not (h : namesFile (bare (fileName path)) = false) :
    namesFile (fileName (withExtension path extension)) = false := by
  have hslash : '/' ∉ bare (fileName path) := by
    rcases namesFile_eq_false_iff.mp h with hbare | hbare | hbare <;> simp [hbare]
  have hname : fileName (withExtension path extension) = bare (fileName path) := by
    refine (folder_fileName_of_toList_eq ?_ (folder_cases path) hslash).2
    unfold withExtension
    simp [h]
  rw [hname, h]

/-- **Another extension leaves a path as it is** iff it is that of the path already. -/
theorem withExtension_eq_self_iff (hslash : '/' ∉ extension.toList) (hdot : '.' ∉ extension.toList)
    (h : namesFile (bare (fileName path)) = true) :
    withExtension path extension = path ↔ HasExtension path extension := by
  obtain ⟨hfolder, hname⟩ := folder_fileName_withExtension hslash h
  constructor
  · intro heq
    rw [heq] at hname
    exact ⟨_, stem_ne_nil (ne_nil_of_namesFile_bare h), hname⟩
  · rintro ⟨front, hfront, heq⟩
    apply String.toList_injective
    rw [← folder_append_fileName (withExtension path extension), ← folder_append_fileName path,
      hfolder, hname, heq, stem_append hfront hdot]

end Path

/-! ### Following a path to the name of its file -/

namespace Place

/-- Where a path begins is known from its folder. -/
theorem origin_eq (path : String) :
    origin path = if (Path.folder path).head? = some '/' then root else [] := by
  have hslash := Path.slash_notMem_fileName path
  unfold origin
  rw [← Path.folder_append_fileName path]
  cases hfolder : Path.folder path with
  | cons c cs => simp
  | nil =>
    cases hname : Path.fileName path with
    | nil => rfl
    | cons c cs =>
      have hc : c ≠ '/' := fun h => hslash (by simp [hname, h])
      simp [hc]

/-- The name of a file leads on to a place of its own. -/
theorem step_of_namesFile {name : List Char} (h : Path.namesFile name = true) (here : Place) :
    here.step (String.ofList name) = String.ofList name :: here := by
  obtain ⟨hempty, hdot, hdots⟩ : name ≠ [] ∧ name ≠ ['.'] ∧ name ≠ ['.', '.'] := by
    simpa [Path.namesFile, and_assoc] using h
  have hparts : ∀ cs : List Char, name ≠ cs → String.ofList name ≠ String.ofList cs :=
    fun cs hcs heq => hcs (String.ofList_injective heq)
  unfold step
  rw [if_neg (not_or.mpr ⟨hparts [] hempty, hparts ['.'] hdot⟩), if_neg (hparts ['.', '.'] hdots)]

theorem parent_cons {name : String} (hup : name ≠ "..") (hroot : name ≠ "/") (names : Place) :
    parent (name :: names) = names := by
  rw [parent, if_neg hup, if_neg hroot]

end Place

namespace Tree

variable {t u : Tree} {path out : String} {content image : List UInt8} {p q here : Place}
  {part : String} {parts : List String}

/-- A path leads to where its name leads to from its folder. -/
theorem locate_eq_ok_iff : t.locate path = .ok p ↔
    path ≠ "" ∧ path.utf8ByteSize ≤ Path.limit ∧
      ∃ here, t.walk (Place.origin path) (Path.ways (Path.folder path)) = .ok here ∧
        t.enter here (String.ofList (Path.fileName path)) = .ok p := by
  unfold locate
  rw [Path.parts_eq]
  by_cases hempty : path = ""
  · rw [if_pos hempty]
    exact iff_of_false nofun fun h => h.1 hempty
  · by_cases hlong : Path.limit < path.utf8ByteSize
    · rw [if_neg hempty, if_pos hlong]
      exact iff_of_false nofun fun h => absurd h.2.1 (Nat.not_le.mpr hlong)
    · rw [if_neg hempty, if_neg hlong, walk_concat_eq_ok_iff]
      exact ⟨fun h => ⟨hempty, Nat.not_lt.mp hlong, h⟩, fun h => h.2.2⟩

/-- Two paths with one folder lead to one place iff they have one name. -/
theorem place_eq_iff (hfolder : Path.folder out = Path.folder path)
    (hout : Path.namesFile (Path.fileName out) = true)
    (hpath : Path.namesFile (Path.fileName path) = true) (hq : t.locate out = .ok q)
    (hp : t.locate path = .ok p) : q = p ↔ Path.fileName out = Path.fileName path := by
  obtain ⟨-, -, here, hwalk, henter⟩ := locate_eq_ok_iff.mp hq
  obtain ⟨-, -, here', hwalk', henter'⟩ := locate_eq_ok_iff.mp hp
  rw [Place.origin_eq, hfolder, ← Place.origin_eq, hwalk'] at hwalk
  obtain rfl : here' = here := Except.ok.inj hwalk
  obtain ⟨-, -, rfl⟩ := enter_eq_ok_iff.mp henter
  obtain ⟨-, -, rfl⟩ := enter_eq_ok_iff.mp henter'
  rw [Place.step_of_namesFile hout, Place.step_of_namesFile hpath, List.cons.injEq,
    and_iff_left rfl]
  exact ⟨fun h => String.ofList_injective h, fun h => h ▸ rfl⟩

/-! ### The directories above a place -/

/-- All places above are directories. -/
def Settled (t : Tree) (p : Place) : Prop := ∀ n, t.isDirectory (Place.parent^[n + 1] p) = true

theorem settled_origin (t : Tree) (path : String) : t.Settled (Place.origin path) := by
  intro n
  unfold Place.origin
  split
  · rw [Function.iterate_fixed (by rfl)]
    simp [isDirectory]
  · have hup : ∀ n, Place.parent^[n] [] = List.replicate n ".." := by
      intro n
      induction n with
      | zero => rfl
      | succ n ih =>
        rw [Function.iterate_succ_apply', ih]
        cases n <;> rfl
    rw [hup]
    simp [isDirectory]

/-- One part of a path keeps the directories above. -/
theorem settled_enter (hhere : t.Settled here) (hpart : part ≠ "/")
    (h : t.enter here part = .ok p) : t.Settled p := by
  obtain ⟨hdirectory, -, rfl⟩ := enter_eq_ok_iff.mp h
  intro n
  unfold Place.step
  split
  · exact hhere n
  · split
    · rw [← Function.iterate_succ_apply]
      exact hhere (n + 1)
    · next hup =>
      rw [Function.iterate_succ_apply, Place.parent_cons hup hpart]
      cases n with
      | zero => exact hdirectory
      | succ n => exact hhere n

/-- **Following a path keeps the directories above.** -/
theorem settled_walk (hhere : t.Settled here) (hparts : ∀ part ∈ parts, part ≠ "/")
    (h : t.walk here parts = .ok p) : t.Settled p := by
  induction parts generalizing here with
  | nil =>
    obtain rfl := Except.ok.inj h
    exact hhere
  | cons part parts ih =>
    obtain ⟨next, henter, hwalk⟩ := walk_cons_eq_ok_iff.mp h
    have hnext := settled_enter hhere (hparts part List.mem_cons_self) henter
    exact ih hnext (fun part h => hparts part (List.mem_cons_of_mem _ h)) hwalk

/-- A path whose name is no file's leads to a directory. -/
theorem isDirectory_of_locate (hname : Path.namesFile (Path.fileName path) = false)
    (h : t.locate path = .ok p) : t.isDirectory p = true := by
  obtain ⟨-, -, here, hwalk, henter⟩ := locate_eq_ok_iff.mp h
  obtain ⟨hdirectory, -, rfl⟩ := enter_eq_ok_iff.mp henter
  have hways : ∀ part ∈ Path.ways (Path.folder path), part ≠ "/" := by
    intro part hpart
    have hmem : part ∈ Path.parts path := by
      rw [Path.parts_eq]
      exact List.mem_append_left _ hpart
    exact Path.ne_root_of_mem_parts hmem
  have hsettled := settled_walk (settled_origin t path) hways hwalk
  rcases Path.namesFile_eq_false_iff.mp hname with hcase | hcase | hcase <;> rw [hcase]
  · exact hdirectory
  · exact hdirectory
  · exact hsettled 0

/-! ### Reading and writing -/

theorem read_eq_ok_iff : t.read path = .ok content ↔
    ∃ p, t.locate path = .ok p ∧ t.isDirectory p = false ∧ t.file? p = some content := by
  rw [read, Except.bind_eq_ok_iff]
  refine exists_congr fun p => and_congr_right fun _ => ?_
  cases t.isDirectory p <;> cases t.file? p <;> simp

/-- What is read has the name of a file. -/
theorem namesFile_of_read (h : t.read path = .ok content) :
    Path.namesFile (Path.fileName path) = true := by
  obtain ⟨p, hp, hfile, -⟩ := read_eq_ok_iff.mp h
  by_contra hname
  rw [isDirectory_of_locate (Bool.eq_false_iff.mpr hname) hp] at hfile
  cases hfile

/-- What is written has the name of a file. -/
theorem namesFile_of_write (h : t.write path content = .ok u) :
    Path.namesFile (Path.fileName path) = true :=
  have ⟨hread, _⟩ := read_of_write h
  namesFile_of_read hread

/-- **Writing leaves the files beside alone**, those of another name in the same folder. -/
theorem read_of_write_beside (hwrite : t.write out image = .ok u)
    (hread : t.read path = .ok content) (hfolder : Path.folder out = Path.folder path)
    (hname : Path.fileName out ≠ Path.fileName path) : u.read path = .ok content := by
  obtain ⟨-, hdirectories, q, hq, -, hrest⟩ := read_of_write hwrite
  obtain ⟨p, hp, hfile, hcontent⟩ := read_eq_ok_iff.mp hread
  have hne : p ≠ q := fun heq => hname ((place_eq_iff hfolder (namesFile_of_write hwrite)
    (namesFile_of_read hread) (locate_of_target hq) hp).mp heq.symm)
  refine read_eq_ok_iff.mpr ⟨p, locate_of_directories_eq hdirectories hp, ?_, ?_⟩
  · rw [isDirectory_of_directories_eq hdirectories, hfile]
  · rw [hrest p hne, hcontent]

end Tree
end Chip8
