import Variability.Sweep.Basic
import Variability.Store.Session

/-!
# First sweep: declarations

Every visited type gets a node, and every method and constructor of a visited type gets a node of
its own, linked from the node of the declaring type.
-/

namespace Variability

/-- The kind of node that stands for a referenced type. -/
def TypeRef.nodeKind (r : TypeRef) : EntityKind :=
  if r.isInterface then .interfaceType else .classType

/-- The kind of node that stands for a declared type. An abstract interface counts as a class. -/
def TypeDecl.nodeKind (d : TypeDecl) : EntityKind :=
  if d.isAbstract then .classType
  else if d.isInterface then .interfaceType
  else .classType

/-- The labels of the node of a declared type, its kind apart. -/
def TypeDecl.labels (d : TypeDecl) : List Label :=
  if d.isAbstract then [.abstract, .visibility (.ofPublic d.isPublic)]
  else [.visibility (.ofPublic d.isPublic)]

/-- The kind of node that stands for a member. -/
def MethodDecl.nodeKind (d : MethodDecl) : EntityKind :=
  if d.isConstructor then .constructor else .method

/-- The labels of the node of a member, its kind apart. Only members of public types have a
visibility. -/
def MethodDecl.labels (d : MethodDecl) (ownerIsPublic : Bool) : List Label :=
  (if d.isAbstract then [.abstract] else []) ++
    (if ownerIsPublic then [.visibility (.ofPublic d.isPublic)] else [])

namespace Sweep

/-- What the first sweep found. -/
structure DeclarationCounts where
  types : Nat := 0
  members : Nat := 0
  deriving DecidableEq, Repr, Inhabited

/-- Gives a declared type its node. -/
def declareType (d : TypeDecl) : StateT DeclarationCounts Session Unit := do
  let _ ← Session.getOrCreateNode d.qualified d.nodeKind d.labels d.labels
  modify fun c => { c with types := c.types + 1 }

/-- Gives a declared member its node, below the node of the declaring type. -/
def declareMember (c : Context) (d : MethodDecl) : StateT DeclarationCounts Session Unit :=
  match d.declaring with
  | none => pure ()
  | some declaring => do
    let parent ← Session.getOrCreateNode declaring.qualified declaring.nodeKind [] []
    let ownerIsPublic := c.current?.any (·.isPublic)
    let member ← Session.createNode d.name d.nodeKind (d.labels ownerIsPublic)
    Session.link parent.id member.id .member
    modify fun c => { c with members := c.members + 1 }

/-- The sweep that creates the nodes of types and members. -/
def declarations : Sweep (StateT DeclarationCounts Session) where
  name := "discovery"
  enter := fun _ d => do declareType d; pure .descend
  method := declareMember

end Sweep

end Variability
