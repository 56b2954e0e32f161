import Variability.Command

/-!
# The program

The commands on the files of the disk: arguments come from the command line, the answer goes to the
standard streams, and the exit code is that of the command.
-/

namespace Variability

/-! ### The disk -/

namespace Disk

/-- Why an operation on the disk failed. -/
def reason : IO.Error → FileError
  | .noFileOrDirectory .. => .notFound
  | .alreadyExists .. => .alreadyExists
  | .inappropriateType _ 20 _ => .notADirectory
  | .inappropriateType _ 21 _ => .isADirectory
  | e => .other (toString e)

/-- What an operation on the disk answers, or why it failed. -/
def attempt {α : Type} (act : IO α) : IO (Except FileError α) := do
  match ← act.toBaseIO with
  | .ok a => return .ok a
  | .error e => return .error (reason e)

/-- What is at a path. -/
def kindAt (path : String) : IO FileKind := do
  let place ← IO.FS.realPath path
  return if ← place.isDir then .directory else .file

/-- The names of what is in a directory. -/
def namesIn (dir : String) : IO (List String) := do
  let place ← IO.FS.realPath dir
  return (← place.readDir).toList.map (·.fileName)

/-- The ways to the files at and below a path. -/
partial def waysBelow (enter : String → Bool) (path : String) (way : List String) :
    IO (List (List String)) := do
  match ← kindAt path with
  | .file => return [way]
  | .directory =>
    if !way.getLast?.all enter then return []
    let ways ← (← namesIn path).mapM fun name =>
      waysBelow enter (Path.join path name) (way ++ [name])
    return ways.flatten

end Disk

instance : Files IO where
  workingDirectory := return (← IO.currentDir).toString
  kind? path := return (← Disk.attempt (Disk.kindAt path)).toOption
  read path := Disk.attempt do return (← IO.FS.readBinFile path).toList
  write path content := Disk.attempt (IO.FS.writeFile path content)
  makeDirectory path := Disk.attempt (IO.FS.createDir path)
  filesBelow path enter := Disk.attempt (Disk.waysBelow enter path [])

instance : Clock IO where
  now := IO.monoMsNow

/-! ### Usage -/

/-- How the program is used. -/
def usage : String := String.intercalate "\n"
  ["Variability analysis of Java codebases",
    "",
    "Usage: vpscan [OPTIONS] <COMMAND>",
    "",
    "Commands:",
    "  analyze <SOURCE> <OUTPUT>  Analyze a source tree and write the graph and statistics files",
    "  init                       Write a default configuration file",
    "  help                       Print this message",
    "",
    "Options:",
    "  -v, --verbose  Show debug output",
    "  -q, --quiet    Only show warnings and errors",
    "  -h, --help     Print help",
    "  -V, --version  Print version",
    "",
    "Options of analyze:",
    "  -c, --config <CONFIG>            Path to config YAML file (default: auto-discover)",
    "      --singularity-threshold <N>  Variants or overloads making a hotspot",
    "      --aggregation-threshold <N>  Composition subgraph size making an aggregation hotspot",
    "  -f, --format <FORMAT>            Terminal output format [possible values: pretty, json]",
    "",
    "Options of init:",
    "  -o, --output <OUTPUT>  Output file path [default: vpscan.yaml]",
    "      --force            Overwrite an existing file"]

/-- What is wrong with the arguments. -/
def CommandLine.Refusal.message : CommandLine.Refusal → String
  | .help => usage
  | .version => "vpscan " ++ Terminal.version
  | .nothingGiven => usage
  | .missingCommand => "error: a subcommand is required"
  | .unknownCommand => "error: unrecognized subcommand"
  | .unknownArgument => "error: unexpected argument"
  | .missingArgument => "error: a required argument was not provided"
  | .conflict => "error: an argument cannot be used together with another or more than once"
  | .invalidValue => "error: a value is missing or invalid"
  | .malformedValue => "error: a value is malformed"
  | .surplusValue => "error: an argument takes no value"

/-- What is printed for arguments that ask for no command. Help and the version are no errors. -/
def CommandLine.Refusal.outcome (r : CommandLine.Refusal) : Outcome :=
  match r with
  | .help | .version => { stdout := r.message ++ "\n" }
  | _ => { exitCode := 2, stderr := r.message ++ "\n" }

/-- Carries out what the arguments ask for. -/
def answer (colours : Bool) (args : List String) : IO Outcome :=
  match CommandLine.read args with
  | .error r => return r.outcome
  | .ok request => Command.run colours request.command

end Variability

open Variability in
/-- The program. -/
def main (args : List String) : IO UInt32 := do
  let stdout ← IO.getStdout
  let stderr ← IO.getStderr
  let colours ← stdout.isTty
  let outcome ← answer colours args
  stdout.putStr outcome.stdout
  stderr.putStr outcome.stderr
  stdout.flush
  return outcome.exitCode
