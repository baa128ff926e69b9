/-
# Running the command

The command reads its input, assembles it, prints the listing if asked, and
writes the image, by default beside the input with the extension `bin`; with
`-c` it writes nothing. What it does and notes is a row of items, records and
printed texts. Records are shown up to a level that grows with every `-v`;
nothing else depends on it.

The work falls into two parts, with the reading before the first and the
writing between them, so that the same two parts run over a tree of files
(`Options.runOn`) and over a real file system.

Key definitions: `Record`, `Item`, `Item.render`, `Options.work`, `Options.conclude`,
`Options.runOn`, `Answer`, `answer`.
-/
import Chip8.Command.Arguments
import Chip8.Command.Tree
import Chip8.Listing

namespace Chip8

/-- A line of the log. -/
structure Record where
  level : Level
  channel : String
  message : String
deriving DecidableEq

/-- Something that the command puts out: a record, or a text as it is. -/
inductive Item where
  | record (r : Record)
  | text (s : String)
deriving DecidableEq

namespace Item

/-- A record of the command itself. -/
def note (level : Level) (message : String) : Item := .record ⟨level, "chip8asm", message⟩

/-- The record of a notice. -/
def ofNotice (n : Notice) : Item := .record ⟨n.level, n.channel, n.message⟩

/-- Whether an item is shown to a reader who listens up to `limit`. -/
def isShown (limit : Level) : Item → Bool
  | record r => r.level.within limit
  | text _ => true

/-- An item as it is printed; a record has a time stamp in front. -/
def render (stamp : String) : Item → String
  | record r => stamp ++ "[" ++ r.channel ++ "][" ++ r.level.name ++ "] " ++ r.message ++ "\n"
  | text s => s

/-- What is printed for a reader who listens up to `limit`. -/
def renderAll (stamp : String) (limit : Level) (items : List Item) : String :=
  String.join ((items.filter (isShown limit)).map (render stamp))

end Item

/-- How the first part of the work ends: for good, or with an image to store. -/
inductive Ending where
  | stop (success : Bool)
  | store (path : String) (image : List UInt8)
deriving DecidableEq

namespace Options

/-- The level up to which records are shown. -/
def limit (o : Options) : Level :=
  match o.verbosity with
  | 0 => .error
  | 1 => .warn
  | 2 => .info
  | _ => .debug

/-- Where the image goes. -/
def outputPath (o : Options) : String := o.output.getD (Path.withExtension o.input "bin")

/-- The record of the arguments. -/
def account (o : Options) : Item :=
  .note .debug ("Arguments:\n\tVerbosity: " ++ o.limit.name ++
    "\n\tCheck Only: " ++ (if o.check then "true" else "false") ++
    "\n\tOrigin: " ++ o.base.getD "0" ++
    "\n\tOutfile: " ++ o.output.getD "None" ++
    "\n\tInfile: " ++ o.input)

/-- The text that bytes spell, if they are UTF-8. -/
def decode (bytes : List UInt8) : Except FileFault String :=
  match String.fromUTF8? bytes.toByteArray with
  | some text => .ok text
  | none => .error .notText

/-- What follows an assembly that succeeded. -/
def deliver (o : Options) (a : Assembly) : List Item × Ending :=
  let printed := if o.listing then [.text a.listing] else []
  if o.check then
    (printed ++ [.note .info ("`" ++ o.input ++ "` assembled to " ++ decimal a.image.length ++
      " byte(s); nothing written")], .stop true)
  else (printed, .store o.outputPath a.image)

/-- The first part of the work, on what reading the input gave. -/
def work (o : Options) (input : Except FileFault (List UInt8)) : List Item × Ending :=
  match input.bind decode with
  | .error fault =>
    ([o.account, .note .error ("fatal: unable to read input file `" ++ o.input ++ "`: " ++
      fault.message)], .stop false)
  | .ok text =>
    let outcome := assemble o.input text o.origin
    let noted := o.account :: outcome.notices.map .ofNotice
    match outcome.result with
    | .error fault =>
      (noted ++ [.note .error fault.render,
        .note .error ("Stopped assembly of `" ++ o.input ++ "`.")], .stop false)
    | .ok a =>
      let (items, ending) := o.deliver a
      (noted ++ items, ending)

/-- The second part of the work, on what storing the image at `path` gave. -/
def conclude (path : String) (image : List UInt8) (stored : Except FileFault Unit) :
    List Item × Bool :=
  match stored with
  | .error fault =>
    ([.note .error ("fatal: unable to write to output file `" ++ path ++ "`: " ++
      fault.message)], false)
  | .ok () =>
    ([.note .info ("wrote " ++ decimal image.length ++ " byte(s) to `" ++ path ++ "`")], true)

/-- The whole work over a tree of files: what is put out, whether it succeeded, and
the tree afterwards. -/
def runOn (o : Options) (t : Tree) : List Item × Bool × Tree :=
  match o.work (t.read o.input) with
  | (items, .stop success) => (items, success, t)
  | (items, .store path image) =>
    match t.write path image with
    | .error fault =>
      let (more, success) := conclude path image (.error fault)
      (items ++ more, success, t)
    | .ok after =>
      let (more, success) := conclude path image (.ok ())
      (items ++ more, success, after)

end Options

/-- What a run of the command shows and leaves behind. -/
structure Answer where
  success : Bool
  output : String
  complaint : String
  tree : Tree
deriving DecidableEq

/-- The line that tells the version. -/
def versionLine : String := "chip8asm 0.1.0\n"

/-- The help text. Flags and options are listed by the names that they have inside of the program,
which are not those on the command line. -/
def helpText : String :=
  versionLine ++ "Nicolas 'Montessquio' Suarez <nsuarez@kernelstack.net>\n" ++
  "A two-pass assembler for the CHIP-8 instruction set.\n\n" ++
  "USAGE:\n    chip8asm [FLAGS] [OPTIONS] <INPUT>\n\n" ++
  "FLAGS:\n" ++
  "    -c               assemble without writing an outfile\n" ++
  "    -h, --help       Prints help information\n" ++
  "    -d               prints the listing and symbol table alongside the assembly to STDOUT\n" ++
  "    -V, --version    Prints version information\n" ++
  "    -v               Sets the level of verbosity\n\n" ++
  "OPTIONS:\n" ++
  "    -b <base>          address the program starts at (512, #200 or 0x200)\n" ++
  "    -o <output>        write output to an outfile\n\n" ++
  "ARGS:\n    <INPUT>    Sets the input file to use\n"

/-- A run of the command over a tree of files; `stamp` is what stands for the time. -/
def answer (stamp : String) (args : List String) (t : Tree) : Answer :=
  match Invocation.ofArguments args with
  | .version => ⟨true, versionLine, "", t⟩
  | .help => ⟨true, helpText, "", t⟩
  | .refused reason => ⟨false, "", reason.message, t⟩
  | .run o =>
    let (items, success, after) := o.runOn t
    ⟨success, Item.renderAll stamp o.limit items, "", after⟩

end Chip8
