/-!
# Properties

Besides labels a node has properties: counts computed by the metrics and flags set by the hotspot
rules. There are eleven of them, each set or unset, in one fixed order. As with label sets, two
property tables that answer alike for every property are equal.
-/

namespace Variability

/-- A property of a node. -/
inductive Property where
  | methodPoints
  | methodVariants
  | constructorPoints
  | constructorVariants
  | typeVariants
  | publicMethods
  | publicConstructors
  | allMethods
  | compositions
  | hotspot
  | aggregation
  deriving DecidableEq, Repr, Inhabited

/-- The value of a property: a number of 64 bits or a flag. -/
inductive Value where
  | int (n : Int64)
  | bool (b : Bool)
  deriving DecidableEq, Repr, Inhabited

namespace Value

/-- The number in a value, if it is one. -/
def int? : Value → Option Int64
  | int n => some n
  | bool _ => none

/-- The flag in a value, if it is one. -/
def bool? : Value → Option Bool
  | int _ => none
  | bool b => some b

/-- A count as a value: its last 64 bits, read as a signed number. -/
def ofCount (n : Nat) : Value := int (.ofNat n)

end Value

namespace Property

/-- All properties, in the order in which they are listed. -/
def all : List Property :=
  [methodPoints, methodVariants, constructorPoints, constructorVariants, typeVariants,
    publicMethods, publicConstructors, allMethods, compositions, hotspot, aggregation]

/-- The written form of a property. -/
def text : Property → String
  | methodPoints => "methodVPs"
  | methodVariants => "methodVariants"
  | constructorPoints => "constructorVPs"
  | constructorVariants => "constructorVariants"
  | typeVariants => "classVariants"
  | publicMethods => "publicMethods"
  | publicConstructors => "publicConstructors"
  | allMethods => "allMethods"
  | compositions => "nbCompositions"
  | hotspot => "hotspot"
  | aggregation => "aggregation"

/-- The property written as `s`. -/
def ofText? (s : String) : Option Property := all.find? (·.text == s)

/-- The place of a property in the listing order. -/
def index : Property → Fin 11
  | methodPoints => 0
  | methodVariants => 1
  | constructorPoints => 2
  | constructorVariants => 3
  | typeVariants => 4
  | publicMethods => 5
  | publicConstructors => 6
  | allMethods => 7
  | compositions => 8
  | hotspot => 9
  | aggregation => 10

/-- The property at a place of the listing order. -/
def ofIndex (i : Fin 11) : Property :=
  all.get (i.cast rfl)

@[simp] theorem ofIndex_index (p : Property) : ofIndex p.index = p := by
  cases p <;> rfl

theorem index_ofIndex : ∀ i : Fin 11, (ofIndex i).index = i := by decide

theorem index_inj {p q : Property} : p.index = q.index ↔ p = q :=
  ⟨fun h => by rw [← ofIndex_index p, h, ofIndex_index], fun h => h ▸ rfl⟩

end Property

/-- A table of properties: one slot per property. -/
structure PropertyTable where
  slots : Vector (Option Value) 11
  deriving DecidableEq, Repr

namespace PropertyTable

/-- The table in which nothing is set. -/
def empty : PropertyTable := ⟨Vector.replicate 11 none⟩

instance : Inhabited PropertyTable := ⟨empty⟩

/-- The value of a property, if it is set. -/
def get? (t : PropertyTable) (p : Property) : Option Value := t.slots[p.index]

/-- The table with one property set. -/
def set (t : PropertyTable) (p : Property) (v : Value) : PropertyTable :=
  ⟨t.slots.set p.index (some v)⟩

/-- The properties that are set, with their values, in listing order. -/
def toList (t : PropertyTable) : List (Property × Value) :=
  Property.all.filterMap fun p => (t.get? p).map (p, ·)

@[simp] theorem get?_empty (p : Property) : empty.get? p = none := by
  simp [get?, empty]

/-- Setting a property changes that property and no other. -/
@[simp] theorem get?_set (t : PropertyTable) (p q : Property) (v : Value) :
    (t.set p v).get? q = if p = q then some v else t.get? q := by
  simp only [get?, set, Fin.getElem_fin, Vector.getElem_set, Fin.val_inj, Property.index_inj]

/-- A property table is determined by its answers. -/
theorem ext_get? {s t : PropertyTable} (h : ∀ p, s.get? p = t.get? p) : s = t := by
  rcases s with ⟨s⟩
  rcases t with ⟨t⟩
  have key : s = t := by
    apply Vector.ext
    intro i hi
    have h' := h (Property.ofIndex ⟨i, hi⟩)
    simpa [get?, Property.index_ofIndex] using h'
  rw [key]

end PropertyTable

end Variability
