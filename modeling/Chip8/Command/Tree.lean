/-
# Trees of files

A tree holds directories and the contents of files, and the command works in
its top directory. A path is followed name by name; every name on the way has
to be a directory, and neither a name nor the path may be too long. What lies
above the top is a row of directories of which nothing else is known, and so is
the root of absolute paths.

Key definitions: `Place`, `FileFault`, `Tree`, `Tree.ofNames`, `Tree.locate`, `Tree.target`,
`Tree.read`, `Tree.write`, `Tree.changes`.
Key theorems: `file?_of_write`.
-/
import Chip8.Command.Path

namespace Chip8

/-- A place in a tree: the names that lead to it from the top, the last one first. -/
abbrev Place := List String

/-- The reasons why a file cannot be read or written. -/
inductive FileFault where
  | missing
  | isDirectory
  | notDirectory
  | nameTooLong
  | notText
  | other (text : String)
deriving DecidableEq

/-- The wording of a file fault. -/
def FileFault.message : FileFault → String
  | missing => "No such file or directory (os error 2)"
  | isDirectory => "Is a directory (os error 21)"
  | notDirectory => "Not a directory (os error 20)"
  | nameTooLong => "File name too long (os error 36)"
  | notText => "stream did not contain valid UTF-8"
  | other text => text

/-- Files with their contents, and directories. -/
structure Tree where
  files : List (Place × List UInt8)
  directories : List Place
deriving DecidableEq

namespace Place

/-- The place of the root of absolute paths. -/
def root : Place := ["/"]

/-- The directory that a place is in. -/
def parent : Place → Place
  | [] => [".."]
  | name :: names =>
    if name = ".." then ".." :: name :: names
    else if name = "/" then name :: names
    else names

/-- The place that a part of a path leads to from a directory. -/
def step (here : Place) (part : String) : Place :=
  if part = "" ∨ part = "." then here
  else if part = ".." then here.parent
  else part :: here

/-- Where a path begins. -/
def origin (path : String) : Place := if path.toList.head? = some '/' then root else []

/-- Whether a place is outside of the tree. -/
def isOutside (p : Place) : Bool := p.getLast? == some ".." || p.getLast? == some "/"

/-- The place that a path leads to if it is followed by name alone. -/
def ofPath (path : String) : Place := (Path.parts path).reverse

/-- The places on the way to a place. -/
def above : Place → List Place
  | [] => []
  | _ :: names => names :: above names

/-- The path from the top to a place. -/
def render (p : Place) : String := "/".intercalate p.reverse

end Place

namespace Tree

/-- The tree with these files and directories, and all directories that lead to them. -/
def ofNames (files : List (String × List UInt8)) (directories : List String) : Tree where
  files := files.map fun (path, content) => (.ofPath path, content)
  directories :=
    (files.flatMap fun (path, _) => (Place.ofPath path).above) ++
      directories.flatMap fun path => .ofPath path :: (Place.ofPath path).above

/-- The content of the file at a place. -/
def file? (t : Tree) (p : Place) : Option (List UInt8) := t.files.lookup p

/-- Whether there is a directory at a place. -/
def isDirectory (t : Tree) (p : Place) : Bool :=
  p.all (· == "..") || p == Place.root || t.directories.contains p

/-- Refuses a place that is no directory. -/
def requireDirectory (t : Tree) (p : Place) : Except FileFault Unit :=
  if t.isDirectory p then .ok ()
  else if (t.file? p).isSome then .error .notDirectory
  else .error .missing

/-- The place that a part of a path leads to from a directory. -/
def enter (t : Tree) (here : Place) (part : String) : Except FileFault Place := do
  t.requireDirectory here
  if Path.nameLimit < part.utf8ByteSize then .error .nameTooLong else .ok (here.step part)

/-- Follows the parts of a path from a place. -/
def walk (t : Tree) (here : Place) : List String → Except FileFault Place
  | [] => .ok here
  | part :: parts => do t.walk (← t.enter here part) parts

/-- The place of a path that is read. -/
def locate (t : Tree) (path : String) : Except FileFault Place :=
  if path = "" then .error .missing
  else if Path.limit < path.utf8ByteSize then .error .nameTooLong
  else t.walk (Place.origin path) (Path.parts path)

/-- The place of a path that is written: its directory has to be there, and it
must not end in a slash. -/
def target (t : Tree) (path : String) : Except FileFault Place :=
  if path = "" then .error .missing
  else if Path.limit < path.utf8ByteSize then .error .nameTooLong
  else
    let parts := Path.parts path
    match parts.reverse.dropWhile (· == "") with
    | [] => .error .isDirectory
    | last :: before => do
      let here ← t.walk (Place.origin path) before.reverse
      t.requireDirectory here
      if parts.getLast? = some "" then .error .isDirectory else t.enter here last

/-- The content of the file that a path names. -/
def read (t : Tree) (path : String) : Except FileFault (List UInt8) := do
  let p ← t.locate path
  if t.isDirectory p then .error .isDirectory
  else
    match t.file? p with
    | some content => .ok content
    | none => .error .missing

/-- Puts content at a place, in place of what was there. -/
def put (p : Place) (content : List UInt8) : List (Place × List UInt8) → List (Place × List UInt8)
  | [] => [(p, content)]
  | (q, old) :: files =>
    if q = p then (q, content) :: files else (q, old) :: put p content files

/-- Writes content to the file that a path names. -/
def write (t : Tree) (path : String) (content : List UInt8) : Except FileFault Tree := do
  let p ← t.target path
  if t.isDirectory p then .error .isDirectory
  else .ok { t with files := put p content t.files }

/-- The files of the second tree that are not in the first with this content. -/
def changes (before after : Tree) : List (String × List UInt8) :=
  after.files.filterMap fun (p, content) =>
    if p.isOutside || before.file? p == some content then none else some (p.render, content)

theorem lookup_put (p q : Place) (content : List UInt8) :
    ∀ files, (put p content files).lookup q = if q = p then some content else files.lookup q
  | [] => by by_cases h : q = p <;> simp [put, h]
  | (r, old) :: files => by
    have ih := lookup_put p q content files
    unfold put
    by_cases hr : r = p
    · subst hr
      by_cases hq : q = r
      · simp [hq]
      · simp [hq, List.lookup_cons, beq_eq_false_iff_ne.mpr hq]
    · by_cases hq : q = r
      · subst hq
        simp [hr]
      · simp [hr, List.lookup_cons, beq_eq_false_iff_ne.mpr hq, ih]

/-- Writing a file changes that file alone. -/
theorem file?_of_write {t u : Tree} {path : String} {content : List UInt8} {p : Place}
    (hp : t.target path = .ok p) (h : t.write path content = .ok u) (q : Place) :
    u.file? q = if q = p then some content else t.file? q := by
  simp only [write, hp, bind, Except.bind] at h
  split at h
  · cases h
  · cases h
    exact lookup_put p q content t.files

end Tree
end Chip8
