import Variability.Sweep.Declarations

/-!
# Fourth sweep: factories

A type is a factory if it is called one, or if one of its methods returns a direct subtype of the
method's return type and that return type has at least two variants.
-/

namespace Variability.Sweep

/-- What the fourth sweep found. -/
structure FactoryCounts where
  byName : Nat := 0
  byReturn : Nat := 0
  deriving DecidableEq, Repr, Inhabited

/-- Marks a type that is called a factory. -/
def factoryByName (d : TypeDecl) : StateT FactoryCounts Session Unit :=
  if Text.contains d.qualified "Factory" then do
    let node ← Session.getOrCreateNode d.qualified d.nodeKind [] []
    Session.addLabel node.id .factory
    modify fun n => { n with byName := n.byName + 1 }
  else pure ()

/-- A return statement that can make a factory: the declaring type of the method, its return type
and the type of the returned expression. Constructors, nested types and null do not count. -/
def ReturnSite.product? (s : ReturnSite) : Option (TypeRef × TypeRef × TypeRef) := do
  let returned ← s.expression
  if returned.isNested || returned.isNull then none
  else
    let method ← s.enclosing
    if method.isConstructor then none
    else
      let result ← method.returnType
      let declaring ← method.declaring
      some (declaring, result, returned)

/-- Marks the type whose method returns a variant of its return type. The declaring type gets a
node if it has none. -/
def factoryByReturn (s : ReturnSite) : StateT FactoryCounts Session Unit :=
  match ReturnSite.product? s with
  | none => pure ()
  | some (declaring, result, returned) => do
    let base ← Session.findByName result.erasure
    let maker ← Session.getOrCreateNode declaring.erasure declaring.nodeKind [.outOfScope] []
    let product ← Session.findByName returned.erasure
    match base, product with
    | some base, some product =>
      if ← Session.relatedTo base.id product.id then
        if (← Session.variantCount base.id) ≥ 2 then
          Session.addLabel maker.id .factory
          modify fun n => { n with byReturn := n.byReturn + 1 }
    | _, _ => pure ()

/-- The sweep that marks factories. -/
def factories : Sweep (StateT FactoryCounts Session) where
  name := "factory"
  enter := fun _ d => do factoryByName d; pure .descend
  returning := fun _ s => factoryByReturn s

end Variability.Sweep
