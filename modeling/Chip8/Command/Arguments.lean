/-
# The arguments of the command

The command line is read as a row of marks: an input, an option with its
value, or a flag. Flags of one letter may be bundled behind one dash; an option
takes the rest of its bundle as its value, less the equals signs in front, or
else the next argument, unless that begins an option itself. Behind `--` all
arguments are inputs.

Then the marks are judged as a whole. The first one that asks for the version
or the help, or that is not expected, decides. Otherwise there has to be an
input, every option needs a value, the base has to be an address, and nothing
but `-v` may be given twice.

Key definitions: `Mark`, `Mark.ofArguments`, `Options`, `Refusal`, `Invocation`,
`Invocation.ofArguments`.
-/
import Chip8.Command.Address
import Chip8.Notice

namespace Chip8

/-- The options that take a value. -/
inductive Valued where
  | output
  | base
deriving DecidableEq

/-- How messages name an option. -/
def Valued.usage : Valued → String
  | output => "-o <output>"
  | base => "-b <base>"

/-- One thing said on the command line. -/
inductive Mark where
  /-- A file to read. -/
  | input (path : String)
  /-- An option, with its value if it has one. -/
  | valued (option : Valued) (value : Option String)
  /-- The flag `-c`. -/
  | check
  /-- The flag `-d`. -/
  | listing
  /-- The flag `-v`. -/
  | verbose
  /-- A question for the version. -/
  | version
  /-- A question for help. -/
  | help
  /-- Something that is not expected, as it is shown. -/
  | stray (shown : String)
deriving DecidableEq

namespace Mark

/-- The marks of a bundle of letters, and the option at its end that still waits
for its value. -/
def ofBundle : List Char → List Mark × Option Valued
  | [] => ([], none)
  | c :: cs =>
    let takesRest (option : Valued) : List Mark × Option Valued :=
      if cs = [] then ([], some option)
      else ([.valued option (some (String.ofList (cs.dropWhile (· == '='))))], none)
    let flag (mark : Mark) : List Mark × Option Valued :=
      let (marks, waiting) := ofBundle cs
      (mark :: marks, waiting)
    match c with
    | 'o' => takesRest .output
    | 'b' => takesRest .base
    | 'c' => flag .check
    | 'd' => flag .listing
    | 'v' => flag .verbose
    | 'V' => flag .version
    | 'h' => flag .help
    | _ => ([.stray ("-" ++ c.toString)], none)

/-- The mark of an argument that begins with two dashes: its name is what stands
between the dashes and an equals sign. -/
def ofLong (arg : List Char) : Mark :=
  let name := String.ofList ((arg.dropWhile (· == '-')).takeWhile (· != '='))
  if name = "version" then .version
  else if name = "help" then .help
  else .stray ("--" ++ name)

/-- The marks of the arguments, the first of which may be the value that an
option waits for. -/
def ofArguments : Option Valued → List String → List Mark
  | waiting, [] => (waiting.map (.valued · none)).toList
  | waiting, arg :: args =>
    let unmet := (waiting.map (.valued · none)).toList
    match arg.toList with
    | ['-', '-'] => unmet ++ args.map .input
    | '-' :: '-' :: _ => unmet ++ ofLong arg.toList :: ofArguments none args
    | '-' :: c :: cs =>
      let (marks, waiting) := ofBundle (c :: cs)
      unmet ++ marks ++ ofArguments waiting args
    | _ =>
      match waiting with
      | some option => .valued option (some arg) :: ofArguments none args
      | none => .input arg :: ofArguments none args

end Mark

/-- What the command is asked to do with a file. -/
structure Options where
  input : String
  output : Option String
  base : Option String
  origin : UInt32
  check : Bool
  listing : Bool
  verbosity : Nat
deriving DecidableEq

/-- The reasons to refuse a command line. -/
inductive Refusal where
  | unexpected (shown : String)
  | noInput
  | noValue (option : Valued)
  | badBase (text : String) (fault : AddressFault)
  | repeated (shown : String)
deriving DecidableEq

/-- The wording of a refusal. -/
def Refusal.message : Refusal → String
  | unexpected shown =>
    "error: Found argument '" ++ shown ++
      "' which wasn't expected, or isn't valid in this context"
  | noInput => "error: The following required arguments were not provided:"
  | noValue option =>
    "error: The argument '" ++ option.usage ++ "' requires a value but none was supplied"
  | badBase text fault =>
    "error: Invalid value for '-b <base>': invalid base address `" ++ text ++ "`: " ++
      fault.message
  | repeated shown =>
    "error: The argument '" ++ shown ++
      "' was provided more than once, but cannot be used multiple times"

/-- What a command line comes to. -/
inductive Invocation where
  | run (options : Options)
  | version
  | help
  | refused (reason : Refusal)
deriving DecidableEq

namespace Invocation

/-- What the first decisive mark comes to; a second input is decisive. -/
def immediate (seen : Bool) : List Mark → Option Invocation
  | [] => none
  | .version :: _ => some .version
  | .help :: _ => some .help
  | .stray shown :: _ => some (.refused (.unexpected shown))
  | .input path :: ms => if seen then some (.refused (.unexpected path)) else immediate true ms
  | _ :: ms => immediate seen ms

/-- The values given for an option. -/
def values (option : Valued) (ms : List Mark) : List String :=
  ms.filterMap fun
    | .valued o value => if o = option then value else none
    | _ => none

/-- How often an option is given, with a value or without. -/
def uses (option : Valued) (ms : List Mark) : Nat :=
  ms.countP fun
    | .valued o _ => decide (o = option)
    | _ => false

/-- The option that was given last without ever having a value. -/
def unmet (ms : List Mark) : Option Valued :=
  ms.reverse.findSome? fun
    | .valued option none => if values option ms = [] then some option else none
    | _ => none

/-- The first value for the base that is no address. -/
def badBase (ms : List Mark) : Option Refusal :=
  (values .base ms).findSome? fun text =>
    match readAddress text with
    | .error fault => some (.badBase text fault)
    | .ok _ => none

/-- What was given twice and must not be. -/
def repeated (ms : List Mark) : Option Refusal :=
  if 1 < uses .output ms then some (.repeated Valued.output.usage)
  else if 1 < uses .base ms then some (.repeated Valued.base.usage)
  else if 1 < ms.count .check then some (.repeated "-c")
  else if 1 < ms.count .listing then some (.repeated "-d")
  else none

/-- The inputs that are named. -/
def inputs (ms : List Mark) : List String :=
  ms.filterMap fun
    | .input path => some path
    | _ => none

/-- What the marks come to when none of them is decisive. -/
def settle (ms : List Mark) : Invocation :=
  match inputs ms with
  | [] => .refused .noInput
  | input :: _ =>
    match ((unmet ms).map Refusal.noValue).or ((badBase ms).or (repeated ms)) with
    | some reason => .refused reason
    | none =>
      let base := (values .base ms).head?
      .run
        { input
          output := (values .output ms).head?
          base
          origin := (base.bind fun text => (readAddress text).toOption).getD 0
          check := ms.contains .check
          listing := ms.contains .listing
          verbosity := ms.count .verbose }

/-- What a command line comes to. -/
def ofArguments (args : List String) : Invocation :=
  let marks := Mark.ofArguments none args
  (immediate false marks).getD (settle marks)

end Invocation
end Chip8
