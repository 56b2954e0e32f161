import Variability.Glob
import Variability.Store.Retry
import Variability.Text.Blank
import Variability.Text.Quoted
import Variability.Variation.Hotspot
import Variability.Yaml.Node

/-!
# Configurations

What can be configured: the sizes of hotspots, the patience with the graph store, and the files to
leave out. Everything has a default, so any part of a configuration can be missing, and an empty
text is a configuration too.
-/

namespace Variability

/-- How long to wait for the graph store. -/
structure RetryLimits where
  maxAttempts : UInt32 := 20
  delayMs : UInt64 := 5000
  deriving DecidableEq, Repr, Inhabited

/-- The policy with these limits; it makes at least one attempt. -/
def RetryLimits.policy (l : RetryLimits) : RetryPolicy := .ofLimits l.maxAttempts l.delayMs

/-- A configuration. -/
structure Config where
  hotspots : HotspotThresholds := {}
  retry : RetryLimits := {}
  /-- Patterns of files to leave out, relative to the root of the sources. -/
  excludedPaths : List String := []
  deriving DecidableEq, Repr, Inhabited

namespace Config

/-! ### Numbers -/

/-- The value of a digit in bases up to sixteen. -/
def digitValue? (base : Nat) (c : Char) : Option Nat :=
  (Yaml.hexValue? c).bind fun d => if d < base then some d else none

/-- The number that digits stand for in a base; there must be at least one. -/
def ofDigits? (base : Nat) (cs : List Char) : Option Nat :=
  if cs.isEmpty then none
  else cs.foldlM (fun n c => (digitValue? base c).map (n * base + ·)) 0

/-- The bases with a mark of their own. -/
def markedBases : List (List Char × Nat) := [(['0', 'x'], 16), (['0', 'o'], 8), (['0', 'b'], 2)]

/-- The number after a mark for its base. -/
def ofMarked? (cs : List Char) : Option Nat :=
  markedBases.findSome? fun (mark, base) =>
    if mark.isPrefixOf cs then ofDigits? base (cs.drop mark.length) else none

/-- A whole number that is not negative. It may have a plus sign, and is decimal unless a mark says
otherwise; a decimal number of several digits does not begin with a zero. -/
def ofNumeral? (s : String) : Option Nat :=
  let cs := match s.toList with
    | '+' :: cs => cs
    | cs => cs
  match ofMarked? cs with
  | some n => some n
  | none => if 1 < cs.length && cs.head? == some '0' then none else ofDigits? 10 cs

/-! ### Reading -/

/-- Why a text is no configuration. -/
inductive Problem where
  | malformed (p : Yaml.Problem)
  /-- Something else than what is expected in a place. -/
  | mistyped (expected : String)
  | duplicate (field : String)
  deriving DecidableEq, Repr, Inhabited

/-- The problem as it is shown. -/
def Problem.message : Problem → String
  | malformed p => p.message
  | mistyped expected => "invalid type: expected " ++ expected
  | duplicate field => "duplicate field `" ++ field ++ "`"

/-- Whether a node stands for nothing. -/
def isNull : Yaml.Node → Bool
  | .scalar text .plain => ["", "~", "null", "Null", "NULL"].contains text
  | _ => false

/-- The name of a field. -/
def fieldName : Yaml.Node → Except Problem String
  | .scalar text _ => .ok text
  | _ => .error (.mistyped "field identifier")

/-- The fields of a section with their names; nothing stands for a section without fields. -/
def fields (n : Yaml.Node) : Except Problem (List (String × Yaml.Node)) :=
  match n with
  | .mapping entries => entries.mapM fun (k, v) => return (← fieldName k, v)
  | n => if isNull n then .ok [] else .error (.mistyped "a map")

/-- The value of a field, or its default when the field is missing. Fields are not given twice. -/
def field {α : Type} (fs : List (String × Yaml.Node)) (name : String) (default : α)
    (read : Yaml.Node → Except Problem α) : Except Problem α :=
  match fs.filter (·.1 == name) with
  | [] => .ok default
  | [(_, n)] => read n
  | _ => .error (.duplicate name)

/-- A whole number below a bound. Only a plain scalar is a number. -/
def number (bound : Nat) : Yaml.Node → Except Problem Nat
  | .scalar text .plain =>
    match ofNumeral? text with
    | some n => if n < bound then .ok n else .error (.mistyped "a smaller number")
    | none => .error (.mistyped "a number")
  | _ => .error (.mistyped "a number")

/-- A number of 64 bits. -/
def number64 (n : Yaml.Node) : Except Problem UInt64 := return (← number UInt64.size n).toUInt64

/-- A number of 32 bits. -/
def number32 (n : Yaml.Node) : Except Problem UInt32 := return (← number UInt32.size n).toUInt32

/-- A text: any scalar, as written. -/
def text : Yaml.Node → Except Problem String
  | .scalar text _ => .ok text
  | _ => .error (.mistyped "a string")

/-- A list of texts; nothing stands for an empty one. -/
def texts (n : Yaml.Node) : Except Problem (List String) :=
  match n with
  | .sequence items => items.mapM text
  | n => if isNull n then .ok [] else .error (.mistyped "a sequence")

/-- The section with the sizes of hotspots. -/
def ofHotspots (n : Yaml.Node) : Except Problem HotspotThresholds := do
  let fs ← fields n
  return {
    variants := ← field fs "nb_variants_threshold" 20 number64
    aggregations := ← field fs "nb_aggregations_threshold" 5 number64 }

/-- The section with the limits of retries. -/
def ofRetry (n : Yaml.Node) : Except Problem RetryLimits := do
  let fs ← fields n
  return {
    maxAttempts := ← field fs "max_attempts" 20 number32
    delayMs := ← field fs "delay_ms" 5000 number64 }

/-- The section on the graph store. -/
def ofStore (n : Yaml.Node) : Except Problem RetryLimits := do
  field (← fields n) "retry" {} ofRetry

/-- A configuration from the document of a text. -/
def ofNode (n : Yaml.Node) : Except Problem Config := do
  let fs ← fields n
  return {
    hotspots := ← field fs "hotspots" {} ofHotspots
    retry := ← field fs "store" {} ofStore
    excludedPaths := ← field fs "excluded_paths" [] texts }

/-- Whether a line is blank or a comment. -/
def isIdle (line : String) : Bool :=
  let line := Text.trimChars line.toList
  line.isEmpty || line.head? == some '#'

/-- Reads a configuration. A text of blank lines and comments is the default. -/
def read (text : String) : Except Problem Config := do
  if (Text.split text '\n').all isIdle then return {}
  match Yaml.read text with
  | .ok root => ofNode (root.getD .empty)
  | .error p => .error (.malformed p)

/-! ### Validity -/

/-- Why a configuration cannot be used. -/
inductive Invalid where
  | noVariants
  | noAggregations
  | noAttempts
  | badPattern (e : Glob.Error)
  deriving DecidableEq, Repr, Inhabited

/-- The reason as it is shown. -/
def Invalid.message : Invalid → String
  | noVariants => "hotspots.nb_variants_threshold must be at least 1"
  | noAggregations => "hotspots.nb_aggregations_threshold must be at least 1"
  | noAttempts => "store.retry.max_attempts must be at least 1"
  | badPattern e => "invalid excluded_paths pattern " ++ Text.quoted e.text ++ ": " ++ e.message

/-- Checks that a configuration can be used: no size and no number of attempts is zero, and all patterns
can be read. -/
def validate (c : Config) : Except Invalid Unit := do
  if c.hotspots.variants == 0 then .error .noVariants
  if c.hotspots.aggregations == 0 then .error .noAggregations
  if c.retry.maxAttempts == 0 then .error .noAttempts
  c.excludedPaths.forM fun pattern =>
    match Glob.read pattern with
    | .ok _ => .ok ()
    | .error e => .error (.badPattern e)

end Config

end Variability
