/-!
# The command line

The arguments of the program. There are two commands, one to analyse sources and one to write a
configuration file. Two switches can stand before or after the name of the command; the arguments
before and after it are read separately, with the rules of each place.

Arguments are read from left to right. A value that follows its option, or stands for itself, is
checked only when the next argument that means something has been recognised, so that of two mistakes
an unknown argument is reported before a bad value directly in front of it.
-/

namespace Variability.CommandLine

/-- How results are shown. -/
inductive Format where
  | pretty
  | json
  deriving DecidableEq, Repr, Inhabited

/-- The arguments of an analysis. -/
structure AnalyzeArgs where
  /-- The root of the sources. -/
  source : String
  /-- Where the document for the visualization goes. -/
  output : String
  config : Option String := none
  /-- Stands in for the size of hotspots by variants and overloads. -/
  singularityThreshold : Option UInt64 := none
  /-- Stands in for the size of hotspots by aggregation. -/
  aggregationThreshold : Option UInt64 := none
  format : Format := .pretty
  deriving DecidableEq, Repr, Inhabited

/-- The arguments for writing a configuration file. -/
structure InitArgs where
  output : String := "vpscan.yaml"
  /-- Whether a file that is there is replaced. -/
  force : Bool := false
  deriving DecidableEq, Repr, Inhabited

/-- What the program is asked to do. -/
inductive Command where
  | analyze (args : AnalyzeArgs)
  | init (args : InitArgs)
  deriving DecidableEq, Repr, Inhabited

/-- A command with the switches for logging. -/
structure Request where
  verbose : Bool := false
  quiet : Bool := false
  command : Command
  deriving DecidableEq, Repr, Inhabited

/-- Why there is nothing to do. -/
inductive Refusal where
  /-- Help is asked for. -/
  | help
  /-- The version is asked for. -/
  | version
  /-- There are no arguments at all. -/
  | nothingGiven
  | missingCommand
  | unknownCommand
  | unknownArgument
  | missingArgument
  /-- Two arguments exclude each other, or one is given twice. -/
  | conflict
  /-- A value is missing, or is not one of those that are possible. -/
  | invalidValue
  /-- A value is not of the form it should have. -/
  | malformedValue
  /-- A switch is given a value. -/
  | surplusValue
  deriving DecidableEq, Repr, Inhabited

/-! ### Options -/

/-- The options, with and without values. -/
inductive Opt where
  | help
  | version
  | verbose
  | quiet
  | config
  | singularity
  | aggregation
  | format
  | output
  | force
  deriving DecidableEq, Repr, Inhabited

namespace Opt

/-- The long name, after two dashes. -/
def long : Opt → String
  | help => "help"
  | version => "version"
  | verbose => "verbose"
  | quiet => "quiet"
  | config => "config"
  | singularity => "singularity-threshold"
  | aggregation => "aggregation-threshold"
  | format => "format"
  | output => "output"
  | force => "force"

/-- The short name, after one dash. -/
def short? : Opt → Option Char
  | help => some 'h'
  | version => some 'V'
  | verbose => some 'v'
  | quiet => some 'q'
  | config => some 'c'
  | format => some 'f'
  | output => some 'o'
  | _ => none

/-- Whether the option has a value. -/
def hasValue : Opt → Bool
  | config | singularity | aggregation | format | output => true
  | _ => false

end Opt

/-- The places where arguments stand: before a command, and after each of them. -/
inductive Place where
  | top
  | analyze
  | init
  deriving DecidableEq, Repr, Inhabited

namespace Place

/-- The options of a place. -/
def options : Place → List Opt
  | top => [.help, .version, .verbose, .quiet]
  | analyze => [.help, .verbose, .quiet, .config, .singularity, .aggregation, .format]
  | init => [.help, .verbose, .quiet, .output, .force]

/-- How many arguments without a name a place has. -/
def operands : Place → Nat
  | analyze => 2
  | _ => 0

/-- The option with a long name. -/
def long? (p : Place) (name : String) : Option Opt := p.options.find? (·.long == name)

/-- The option with a short name. -/
def short? (p : Place) (name : Char) : Option Opt := p.options.find? (·.short? == some name)

end Place

/-! ### Values -/

/-- A number of 64 bits: decimal digits, maybe after a plus sign. -/
def number? (s : String) : Option UInt64 :=
  let digits := match s.toList with
    | '+' :: cs => cs
    | cs => cs
  if digits.isEmpty || !digits.all Char.isDigit then none
  else
    let n : Nat := digits.foldl (fun a d => a * 10 + (d.toNat - '0'.toNat)) 0
    if n < UInt64.size then some n.toUInt64 else none

/-- The format with a name. -/
def format? : String → Option Format
  | "pretty" => some .pretty
  | "json" => some .json
  | _ => none

/-- Checks a path, which must not be empty. -/
def checkPath (s : String) : Except Refusal Unit := if s == "" then .error .invalidValue else .ok ()

/-- Checks the value of an option. -/
def Opt.check (o : Opt) (value : String) : Except Refusal Unit :=
  match o with
  | singularity | aggregation =>
    if (number? value).isSome then .ok () else .error .malformedValue
  | format => if (format? value).isSome then .ok () else .error .invalidValue
  | _ => checkPath value

/-! ### Reading -/

/-- A value that is not checked yet. -/
inductive Pending where
  /-- The value of an option, if it has come. -/
  | option (o : Opt) (value : Option String)
  /-- An argument without a name. -/
  | operand (value : String)

/-- The arguments of a place as far as they have been read. -/
structure Reading where
  switches : List Opt := []
  values : List (Opt × String) := []
  operands : List String := []
  pending : Option Pending := none

namespace Reading

/-- Adds the value of an option, which must not be there already. -/
def addValue (r : Reading) (o : Opt) (value : String) : Except Refusal Reading := do
  if (r.values.lookup o).isSome then .error .conflict
  o.check value
  return { r with values := r.values ++ [(o, value)] }

/-- Checks the value that waits to be checked. -/
def settle (r : Reading) : Except Refusal Reading :=
  let rest := { r with pending := none }
  match r.pending with
  | none => .ok r
  | some (.option _ none) => .error .invalidValue
  | some (.option o (some value)) => rest.addValue o value
  | some (.operand value) => do
    checkPath value
    return { rest with operands := r.operands ++ [value] }

/-- Reads an option together with its value. -/
def give (r : Reading) (o : Opt) (value : String) : Except Refusal Reading := do
  (← r.settle).addValue o value

/-- Reads an option whose value is the next argument. -/
def await (r : Reading) (o : Opt) : Except Refusal Reading := do
  return { (← r.settle) with pending := some (.option o none) }

/-- Reads an option without a value. It must not be there already. -/
def switch (r : Reading) (o : Opt) : Except Refusal Reading := do
  let r ← r.settle
  match o with
  | .help => .error .help
  | .version => .error .version
  | o => if r.switches.contains o then .error .conflict else return { r with switches := o :: r.switches }

/-- Reads an option with the value attached to it, if there is one. -/
def named (r : Reading) (o : Opt) (value : Option String) : Except Refusal Reading :=
  match o.hasValue, value with
  | true, some v => r.give o v
  | true, none => r.await o
  | false, some _ => .error .surplusValue
  | false, none => r.switch o

/-- Reads the letters after a dash. After an option with a value the rest is the value, with or
without an equals sign in front. -/
def letters (p : Place) : Reading → List Char → Except Refusal Reading
  | r, [] => .ok r
  | r, c :: cs =>
    match p.short? c with
    | none => .error .unknownArgument
    | some o =>
      if o.hasValue then
        match cs with
        | '=' :: v => r.give o (String.ofList v)
        | [] => r.await o
        | v => r.give o (String.ofList v)
      else do letters p (← r.switch o) cs

/-- How many arguments without a name have been read. -/
def operandCount (r : Reading) : Nat :=
  r.operands.length + match r.pending with
    | some (.operand _) => 1
    | _ => 0

/-- Reads an argument without a name. -/
def operand (p : Place) (r : Reading) (value : String) : Except Refusal Reading := do
  if r.operandCount < p.operands then
    return { (← r.settle) with pending := some (.operand value) }
  else .error .unknownArgument

/-- The option that waits for its value. -/
def awaiting? (r : Reading) : Option Opt :=
  match r.pending with
  | some (.option o none) => some o
  | _ => none

/-- Reads an argument. -/
def argument (p : Place) (r : Reading) (a : String) : Except Refusal Reading :=
  match a.toList with
  | '-' :: '-' :: cs =>
    let name := cs.takeWhile (· != '=')
    match p.long? (String.ofList name) with
    | none => .error .unknownArgument
    | some o => r.named o ((cs.drop name.length).tail?.map String.ofList)
  | '-' :: c :: cs => letters p r (c :: cs)
  | _ =>
    match r.awaiting? with
    | some o => .ok { r with pending := some (.option o (some a)) }
    | none => r.operand p a

/-- Reads the arguments of a place. After two dashes no argument has a name. -/
def all (p : Place) : Reading → List String → Except Refusal Reading
  | r, [] => r.settle
  | r, "--" :: rest => do (← rest.foldlM (operand p) r).settle
  | r, a :: rest => do all p (← r.argument p a) rest

end Reading

/-! ### Commands -/

/-- The names of commands. -/
def commandNames : List String := ["analyze", "init", "help"]

/-- Checks that the two switches do not exclude each other. -/
def checkSwitches (r : Reading) : Except Refusal Unit :=
  if r.switches.contains .verbose && r.switches.contains .quiet then .error .conflict else .ok ()

/-- The arguments of an analysis. -/
def analyzeArgs (args : List String) : Except Refusal (Reading × Command) := do
  let r ← Reading.all .analyze {} args
  checkSwitches r
  match r.operands with
  | [source, output] =>
    return (r, .analyze {
      source, output
      config := r.values.lookup .config
      singularityThreshold := (r.values.lookup .singularity).bind number?
      aggregationThreshold := (r.values.lookup .aggregation).bind number?
      format := ((r.values.lookup .format).bind format?).getD .pretty })
  | _ => .error .missingArgument

/-- The arguments for writing a configuration file. -/
def initArgs (args : List String) : Except Refusal (Reading × Command) := do
  let r ← Reading.all .init {} args
  checkSwitches r
  return (r, .init {
    output := (r.values.lookup .output).getD "vpscan.yaml"
    force := r.switches.contains .force })

/-- Help on the program, or on a command that is given by its name. -/
def help : List String → Refusal
  | [] => .help
  | [name] => if commandNames.contains name then .help else .unknownCommand
  | _ => .unknownCommand

/-- The command with its arguments. -/
def command (name : String) (args : List String) : Except Refusal (Reading × Command) :=
  match name with
  | "analyze" => analyzeArgs args
  | "init" => initArgs args
  | _ => .error (help args)

/-- Splits the arguments at the name of the command. Anything before it that is no option is an
error. -/
def splitAtCommand : Reading → List String → Except Refusal (Reading × Option (String × List String))
  | r, [] => .ok (r, none)
  | r, "--" :: rest =>
    match rest with
    | [] => .ok (r, none)
    | a :: _ => .error (if commandNames.contains a then .unknownArgument else .unknownCommand)
  | r, a :: rest =>
    if commandNames.contains a then .ok (r, some (a, rest))
    else if a.toList.head? == some '-' && a != "-" then do
      splitAtCommand (← r.argument .top a) rest
    else .error .unknownCommand

/-- Reads the arguments of the program, its own name apart. -/
def read (args : List String) : Except Refusal Request := do
  let (top, rest) ← splitAtCommand {} args
  match rest with
  | none => .error (if top.switches.isEmpty then .nothingGiven else .missingCommand)
  | some (name, args) =>
    let (below, command) ← command name args
    checkSwitches top
    let isGiven (o : Opt) := top.switches.contains o || below.switches.contains o
    return { verbose := isGiven .verbose, quiet := isGiven .quiet, command }

end Variability.CommandLine
