/-
# The command

Reads the arguments and the input file, prints what the work puts out, and
writes the image. All decisions are made in `Chip8.Command.Run`.
-/
import Chip8.Command.Run
import Std.Time.Zoned

namespace Chip8

/-- A number in two digits. -/
def twoDigits (n : Int) : String := String.ofList (Radix.decimal.padded 2 n.toNat)

/-- The local time, as it stands before a record. -/
def timeStamp : IO String := do
  let now ← Std.Time.PlainDateTime.now
  let year := String.ofList (Radix.decimal.padded 4 now.date.year.toInt.toNat)
  let date := year ++ "-" ++ twoDigits now.date.month.val ++ "-" ++ twoDigits now.date.day.val
  let time := twoDigits now.time.hour.val ++ ":" ++ twoDigits now.time.minute.val ++ ":" ++
    twoDigits now.time.second.val
  return "[" ++ date ++ "][" ++ time ++ "]"

/-- The file fault behind an error of the system, whose code may come negated. -/
def fileFault : IO.Error → FileFault
  | .noFileOrDirectory .. => .missing
  | .inappropriateType _ 21 _ => .isDirectory
  | .inappropriateType .. => .notDirectory
  | .invalidArgument _ 36 _ | .invalidArgument _ 0xFFFFFFDC _ => .nameTooLong
  | e => .other (toString e)

/-- What an action on a file gave. -/
def attempt {α : Type} (action : IO α) : IO (Except FileFault α) := do
  match ← action.toBaseIO with
  | .ok a => return .ok a
  | .error e => return .error (fileFault e)

/-- Prints the items that are shown. -/
def printItems (o : Options) (items : List Item) : IO Unit := do
  IO.print (Item.renderAll (← timeStamp) o.limit items)

/-- Does what the options ask for. -/
def perform (o : Options) : IO Bool := do
  let input ← attempt do
    let bytes ← IO.FS.readBinFile o.input
    return bytes.toList
  let (items, ending) := o.work input
  printItems o items
  match ending with
  | .stop success => return success
  | .store path image =>
    let stored ← attempt (IO.FS.writeBinFile path image.toByteArray)
    let (items, success) := Options.conclude path image stored
    printItems o items
    return success

end Chip8

def main (args : List String) : IO UInt32 := do
  match Chip8.Invocation.ofArguments args with
  | .version =>
    IO.print Chip8.versionLine
    return 0
  | .help =>
    IO.print Chip8.helpText
    return 0
  | .refused reason =>
    IO.eprintln reason.message
    return 1
  | .run o => return if ← Chip8.perform o then 0 else 1
