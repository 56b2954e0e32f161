import Variability.Yaml.Scanner

/-!
# YAML documents

A YAML text as a tree of scalars, sequences and mappings. An alias stands for the node with its
anchor, which must come before it. A text holds at most one document.
-/

namespace Variability.Yaml

/-- A node of a document. -/
inductive Node where
  | scalar (text : String) (style : Style)
  | sequence (items : List Node)
  | mapping (entries : List (Node × Node))
  deriving Inhabited

/-- What a missing node stands for. -/
def Node.empty : Node := .scalar "" .plain

/-- How far a list of tokens has been read. -/
structure Builder where
  tokens : List Token
  /-- The nodes with anchors, the latest first. -/
  anchors : List (String × Node) := []
  /-- The handles of tags that are known. -/
  handles : List String := ["", "!", "!!"]

/-- Steps of reading. -/
abbrev Build := StateT Builder (Except Problem)

namespace Build

/-- The next token. -/
def peek : Build Token := return (← get).tokens.headD .streamEnd

/-- Passes over a token. -/
def skip : Build Unit := modify fun b => { b with tokens := b.tokens.drop 1 }

/-- Whether the next token is one of the given ones. -/
def isOneOf (ts : List Token) : Build Bool := return ts.contains (← peek)

/-- Passes over the next token if it is the given one, and says whether it was. -/
def accept (t : Token) : Build Bool := do
  if (← peek) == t then skip; return true else return false

/-- The anchor and the tag in front of a node, in either order: the anchor, and whether there was
either of them. -/
def properties : Nat → Option String → Bool → Build (Option String × Bool)
  | 0, anchor, present => return (anchor, present)
  | n + 1, anchor, present => do
    match ← peek with
    | .anchor name =>
      if anchor.isSome then return (anchor, present)
      skip
      properties n (some name) true
    | .tag handle =>
      if !(← get).handles.contains handle then throw .unknownTagHandle
      skip
      properties n anchor true
    | _ => return (anchor, present)

/-- Remembers a node under its anchor. -/
def remember (anchor : Option String) (node : Node) : Build Node := do
  if let some name := anchor then
    modify fun b => { b with anchors := (name, node) :: b.anchors }
  return node

mutual

/-- A node. Block collections can stand only where blocks can, and a sequence without indentation of
its own only as a key or a value. The first argument bounds the steps. -/
def node : Nat → Bool → Bool → Build Node
  | 0, _, _ => throw .tooDeep
  | n + 1, block, indentless => do
    if let .reference name ← peek then
      skip
      match (← get).anchors.lookup name with
      | some node => return node
      | none => throw .unknownAnchor
    let (anchor, present) ← properties 2 none false
    match ← peek with
    | .scalar text style => skip; remember anchor (.scalar text style)
    | .flowSequenceStart => skip; remember anchor (.sequence (← flowItems n true))
    | .flowMappingStart => skip; remember anchor (.mapping (← flowEntries n true))
    | t =>
      if indentless && t == .blockEntry then remember anchor (.sequence (← looseItems n))
      else if block && t == .blockSequenceStart then
        skip
        remember anchor (.sequence (← blockItems n))
      else if block && t == .blockMappingStart then
        skip
        remember anchor (.mapping (← blockEntries n))
      else if present then remember anchor .empty
      else throw .missingNode

/-- A node, unless one of the given tokens comes first. -/
def nodeUnless : Nat → List Token → Bool → Bool → Build Node
  | 0, _, _, _ => throw .tooDeep
  | n + 1, ts, block, indentless => do
    if ← isOneOf ts then return .empty else node n block indentless

/-- The items of a block sequence. -/
def blockItems : Nat → Build (List Node)
  | 0 => throw .tooDeep
  | n + 1 => do
    if ← accept .blockEntry then
      let item ← nodeUnless n [.blockEntry, .blockEnd] true false
      return item :: (← blockItems n)
    else if ← accept .blockEnd then return []
    else throw .missingBlockEntry

/-- The items of a sequence without indentation of its own. -/
def looseItems : Nat → Build (List Node)
  | 0 => throw .tooDeep
  | n + 1 => do
    if ← accept .blockEntry then
      let item ← nodeUnless n [.blockEntry, .key, .value, .blockEnd] true false
      return item :: (← looseItems n)
    else return []

/-- The entries of a block mapping. -/
def blockEntries : Nat → Build (List (Node × Node))
  | 0 => throw .tooDeep
  | n + 1 => do
    if ← accept .key then
      let k ← nodeUnless n [.key, .value, .blockEnd] true true
      let v ← if ← accept .value then nodeUnless n [.key, .value, .blockEnd] true true else pure .empty
      return (k, v) :: (← blockEntries n)
    else if ← accept .blockEnd then return []
    else throw .missingBlockKey

/-- The value after a key between brackets. -/
def flowValue : Nat → Token → Build Node
  | 0, _ => throw .tooDeep
  | n + 1, closing => do
    if ← accept .value then nodeUnless n [.flowEntry, closing] false false else return .empty

/-- The items of a sequence in brackets. An item can be a mapping of one entry. -/
def flowItems : Nat → Bool → Build (List Node)
  | 0, _ => throw .tooDeep
  | n + 1, isFirst => do
    if ← accept .flowSequenceEnd then return []
    if !isFirst then
      if !(← accept .flowEntry) then throw .missingFlowSeparator
    if ← accept .key then
      let k ← nodeUnless n [.value, .flowEntry, .flowSequenceEnd] false false
      let v ← flowValue n .flowSequenceEnd
      return .mapping [(k, v)] :: (← flowItems n false)
    else if ← accept .flowSequenceEnd then return []
    else
      let item ← node n false false
      return item :: (← flowItems n false)

/-- The entries of a mapping in braces. -/
def flowEntries : Nat → Bool → Build (List (Node × Node))
  | 0, _ => throw .tooDeep
  | n + 1, isFirst => do
    if ← accept .flowMappingEnd then return []
    if !isFirst then
      if !(← accept .flowEntry) then throw .missingFlowSeparator
    if ← accept .key then
      let k ← nodeUnless n [.value, .flowEntry, .flowMappingEnd] false false
      let v ← flowValue n .flowMappingEnd
      return (k, v) :: (← flowEntries n false)
    else if ← accept .flowMappingEnd then return []
    else
      let k ← node n false false
      return (k, .empty) :: (← flowEntries n false)

end

/-- The directives in front of a document. -/
def directives : Nat → Bool → Build Unit
  | 0, _ => return
  | n + 1, versionSeen => do
    match ← peek with
    | .versionDirective major minor =>
      if versionSeen || major != 1 || !(minor == 1 || minor == 2) then throw .badDirective
      skip
      directives n true
    | .tagDirective handle =>
      if ((← get).handles.drop 3).contains handle then throw .badDirective
      modify fun b => { b with handles := b.handles ++ [handle] }
      skip
      directives n versionSeen
    | _ => return

/-- Whether the next token begins a document with a mark or a directive. -/
def startsExplicitly : Build Bool := do
  match ← peek with
  | .versionDirective .. => return true
  | .tagDirective _ => return true
  | .documentStart => return true
  | _ => return false

/-- The content of a document after its opening mark. -/
def content (n : Nat) : Build Node := do
  if (← startsExplicitly) || (← isOneOf [.documentEnd, .streamEnd]) then return .empty
  node n true false

/-- The end of the text, after any number of closing marks. -/
def endOfText : Nat → Build Unit
  | 0 => return
  | n + 1 => do
    if ← accept .documentEnd then endOfText n
    else if (← peek) == .streamEnd then return
    else if ← startsExplicitly then throw .severalDocuments
    else throw .missingDocumentStart

/-- The document of a text, if there is one. -/
def document (n : Nat) : Build (Option Node) := do
  if (← peek) == .streamEnd then return none
  let root ← (do
    if ← startsExplicitly then
      directives n false
      if !(← accept .documentStart) then throw .missingDocumentStart
      content n
    else node n true false)
  endOfText n
  return some root

end Build

/-- Reads a YAML text: its document, if there is one. -/
def read (text : String) : Except Problem (Option Node) := do
  let tokens ← scan text
  let (root, _) ← (Build.document (4 * tokens.length + 4)).run { tokens }
  return root

end Variability.Yaml
