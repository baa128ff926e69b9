/-
# Paths

A path is a row of names with slashes between them. The name of its file is
what stands behind the last slash; an empty name and a name of one or two dots
only are those of directories. An extension begins at the last dot of a name,
but not at a dot that leads it.

Key definitions: `Path.parts`, `Path.folder`, `Path.fileName`, `Path.stem`, `Path.bare`,
`Path.withExtension`.
-/

namespace Chip8
namespace Path

/-- The parts of a path between slashes; an empty part stands before a leading
slash, behind a final one and between two in a row. -/
def parts (path : String) : List String := (path.toList.splitOn '/').map String.ofList

/-- The most bytes that a name may have. -/
def nameLimit : Nat := 255

/-- The most bytes that a path may have. -/
def limit : Nat := 4095

/-- A path up to its last slash, and with it. -/
def folder (path : String) : List Char := (path.toList.reverse.dropWhile (· != '/')).reverse

/-- The name behind the last slash of a path. -/
def fileName (path : String) : List Char := (path.toList.reverse.takeWhile (· != '/')).reverse

/-- Whether a name can be that of a file. -/
def namesFile (name : List Char) : Bool := name ≠ [] && name ≠ ['.'] && name ≠ ['.', '.']

/-- A name without its extension. -/
def stem (name : List Char) : List Char :=
  match name.reverse.dropWhile (· != '.') with
  | '.' :: c :: cs => (c :: cs).reverse
  | _ => name

/-- A name without its extension, but with the dot in front of it. -/
def bare (name : List Char) : List Char :=
  match name.reverse.dropWhile (· != '.') with
  | '.' :: c :: cs => ('.' :: c :: cs).reverse
  | _ => name

/-- The path with another extension in place of its own, if it has one. The old extension goes
first; a path that names no file then gets no other one. -/
def withExtension (path extension : String) : String :=
  let name := fileName path
  if namesFile (bare name) then String.ofList (folder path ++ stem name) ++ "." ++ extension
  else String.ofList (folder path ++ bare name)

end Path
end Chip8
