import Variability.Store.Basic

/-!
# Bounded retry

An operation on the store is repeated while it fails for want of an available store, up to a
fixed number of attempts. Each attempt starts the operation from its beginning, on the state that
the attempt before has left.
-/

namespace Variability

/-- The operations offered on the graph, as they are named in error messages. -/
inductive Operation where
  | createNode
  | getOrCreateNode
  | node
  | nodes
  | findByName
  | findByLabelsAndName
  | findInPackage
  | addLabel
  | setProperty
  | link
  | relatedTo
  | children
  | parents
  | supertypesOf
  | runQuery
  | reachable
  | summary
  | clear
  deriving DecidableEq, Repr, Inhabited

/-- The name of an operation in messages. -/
def Operation.text : Operation → String
  | createNode => "create_node"
  | getOrCreateNode => "get_or_create_node"
  | node => "node"
  | nodes => "nodes"
  | findByName => "find_by_name"
  | findByLabelsAndName => "find_by_labels_and_name"
  | findInPackage => "find_in_package"
  | addLabel => "add_label"
  | setProperty => "set_property"
  | link => "link"
  | relatedTo => "related_to"
  | children => "children"
  | parents => "parents"
  | supertypesOf => "supertypes_of"
  | runQuery => "run_query"
  | reachable => "reachable"
  | summary => "summary"
  | clear => "clear"

/-- Why an operation failed. -/
inductive GraphError where
  /-- The store stayed unavailable through all attempts. -/
  | exhausted (operation : Operation) (attempts : Nat) (last : StoreError)
  /-- A failure that no repetition can cure. -/
  | store (operation : Operation) (source : StoreError)
  deriving DecidableEq, Repr, Inhabited

/-- The written form of a failed operation. -/
def GraphError.message : GraphError → String
  | exhausted operation attempts last =>
    operation.text ++ ": graph store still unavailable after " ++ toString attempts ++
      " attempts (" ++ last.message ++ ")"
  | store operation source => operation.text ++ ": " ++ source.message

/-- How often an operation is attempted, and how long to wait in between. -/
structure RetryPolicy where
  maxAttempts : UInt32 := 20
  delayMs : UInt64 := 5000
  deriving DecidableEq, Repr, Inhabited

namespace RetryPolicy

/-- A policy with at least one attempt. -/
def ofLimits (maxAttempts : UInt32) (delayMs : UInt64) : RetryPolicy :=
  { maxAttempts := max maxAttempts 1, delayMs }

/-- The number of attempts: never less than one. -/
def attempts (policy : RetryPolicy) : Nat := max policy.maxAttempts.toNat 1

/-- Attempts `op`, and `left` times more while it fails transiently. -/
def attempt {σ α : Type} (operation : Operation) (total : Nat)
    (op : σ → Except StoreError α × σ) : Nat → σ → Except GraphError α × σ
  | 0, s =>
    match op s with
    | (.ok a, s') => (.ok a, s')
    | (.error e, s') =>
      if e.isTransient then (.error (.exhausted operation total e), s')
      else (.error (.store operation e), s')
  | left + 1, s =>
    match op s with
    | (.ok a, s') => (.ok a, s')
    | (.error e, s') =>
      if e.isTransient then attempt operation total op left s'
      else (.error (.store operation e), s')

/-- Runs an operation under the policy. -/
def run {σ α : Type} (policy : RetryPolicy) (operation : Operation)
    (op : σ → Except StoreError α × σ) : σ → Except GraphError α × σ :=
  attempt operation policy.attempts op (policy.attempts - 1)

end RetryPolicy

end Variability
