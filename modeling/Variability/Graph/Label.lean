/-!
# Labels

A node of the analysis graph carries a set of labels: its kind, its visibility, the attributes
the analysis has found, and the design patterns it takes part in. Labels are listed in one fixed
order (kind, visibility, attribute, pattern), and a `LabelSet` has no other content than which
labels are in it, so two label sets with the same members are equal.
-/

namespace Variability

/-- What a node stands for. -/
inductive EntityKind where
  | classType
  | interfaceType
  | method
  | constructor
  deriving DecidableEq, Repr, Inhabited

/-- Who may use a declaration: everyone, or not everyone. -/
inductive Visibility where
  | exposed
  | hidden
  deriving DecidableEq, Repr, Inhabited

/-- What the analysis has found out about a node. -/
inductive Attribute where
  | abstract
  | outOfScope
  | variationPoint
  | variant
  | methodLevelPoint
  | hotspot
  | dense
  deriving DecidableEq, Repr, Inhabited

/-- A design pattern that a type takes part in. -/
inductive DesignPattern where
  | factory
  | strategy
  | template
  | decorator
  | compositionStrategy
  deriving DecidableEq, Repr, Inhabited

/-- Anything a node can be labelled with. -/
inductive Label where
  | kind (k : EntityKind)
  | visibility (v : Visibility)
  | attr (a : Attribute)
  | pattern (p : DesignPattern)
  deriving DecidableEq, Repr, Inhabited

namespace EntityKind

/-- All kinds, in label order. -/
def all : List EntityKind := [classType, interfaceType, method, constructor]

/-- The written form of a kind. -/
def text : EntityKind → String
  | classType => "CLASS"
  | interfaceType => "INTERFACE"
  | method => "METHOD"
  | constructor => "CONSTRUCTOR"

/-- The kind written as `s`. -/
def ofText? (s : String) : Option EntityKind := all.find? (·.text == s)

/-- Classes and interfaces are types; methods and constructors are members. -/
def isType : EntityKind → Bool
  | classType | interfaceType => true
  | method | constructor => false

end EntityKind

namespace Visibility

/-- All visibilities, in label order. -/
def all : List Visibility := [exposed, hidden]

/-- The written form of a visibility. -/
def text : Visibility → String
  | exposed => "PUBLIC"
  | hidden => "PRIVATE"

/-- The visibility written as `s`. -/
def ofText? (s : String) : Option Visibility := all.find? (·.text == s)

/-- The visibility of a declaration: what is not public is private. -/
def ofPublic : Bool → Visibility
  | true => exposed
  | false => hidden

end Visibility

namespace Attribute

/-- All attributes, in label order. -/
def all : List Attribute :=
  [abstract, outOfScope, variationPoint, variant, methodLevelPoint, hotspot, dense]

/-- The written form of an attribute. -/
def text : Attribute → String
  | abstract => "ABSTRACT"
  | outOfScope => "OUT_OF_SCOPE"
  | variationPoint => "VP"
  | variant => "VARIANT"
  | methodLevelPoint => "METHOD_LEVEL_VP"
  | hotspot => "HOTSPOT"
  | dense => "DENSE"

/-- The attribute written as `s`. -/
def ofText? (s : String) : Option Attribute := all.find? (·.text == s)

end Attribute

namespace DesignPattern

/-- All design patterns, in label order. -/
def all : List DesignPattern := [factory, strategy, template, decorator, compositionStrategy]

/-- The written form of a design pattern. -/
def text : DesignPattern → String
  | factory => "FACTORY"
  | strategy => "STRATEGY"
  | template => "TEMPLATE"
  | decorator => "DECORATOR"
  | compositionStrategy => "COMPOSITION_STRATEGY"

/-- The design pattern written as `s`. -/
def ofText? (s : String) : Option DesignPattern := all.find? (·.text == s)

end DesignPattern

namespace Label

@[match_pattern] abbrev classType : Label := kind .classType
@[match_pattern] abbrev interfaceType : Label := kind .interfaceType
@[match_pattern] abbrev method : Label := kind .method
@[match_pattern] abbrev constructor : Label := kind .constructor
@[match_pattern] abbrev exposed : Label := visibility .exposed
@[match_pattern] abbrev hidden : Label := visibility .hidden
@[match_pattern] abbrev abstract : Label := attr .abstract
@[match_pattern] abbrev outOfScope : Label := attr .outOfScope
@[match_pattern] abbrev variationPoint : Label := attr .variationPoint
@[match_pattern] abbrev variant : Label := attr .variant
@[match_pattern] abbrev methodLevelPoint : Label := attr .methodLevelPoint
@[match_pattern] abbrev hotspot : Label := attr .hotspot
@[match_pattern] abbrev dense : Label := attr .dense
@[match_pattern] abbrev factory : Label := pattern .factory
@[match_pattern] abbrev strategy : Label := pattern .strategy
@[match_pattern] abbrev template : Label := pattern .template
@[match_pattern] abbrev decorator : Label := pattern .decorator
@[match_pattern] abbrev compositionStrategy : Label := pattern .compositionStrategy

/-- All labels, in the order in which they are listed. -/
def all : List Label :=
  EntityKind.all.map kind ++ Visibility.all.map visibility ++ Attribute.all.map attr ++
    DesignPattern.all.map pattern

/-- The written form of a label. -/
def text : Label → String
  | kind k => k.text
  | visibility v => v.text
  | attr a => a.text
  | pattern p => p.text

/-- The label written as `s`. -/
def ofText? (s : String) : Option Label := all.find? (·.text == s)

/-- The place of a label in the listing order. -/
def index : Label → Fin 18
  | classType => 0
  | interfaceType => 1
  | method => 2
  | constructor => 3
  | exposed => 4
  | hidden => 5
  | abstract => 6
  | outOfScope => 7
  | variationPoint => 8
  | variant => 9
  | methodLevelPoint => 10
  | hotspot => 11
  | dense => 12
  | factory => 13
  | strategy => 14
  | template => 15
  | decorator => 16
  | compositionStrategy => 17

/-- The label at a place of the listing order. -/
def ofIndex (i : Fin 18) : Label :=
  all.get (i.cast rfl)

@[simp] theorem ofIndex_index (l : Label) : ofIndex l.index = l := by
  rcases l with k | v | a | p
  · cases k <;> rfl
  · cases v <;> rfl
  · cases a <;> rfl
  · cases p <;> rfl

theorem index_ofIndex : ∀ i : Fin 18, (ofIndex i).index = i := by decide

theorem index_inj {l l' : Label} : l.index = l'.index ↔ l = l' :=
  ⟨fun h => by rw [← ofIndex_index l, h, ofIndex_index], fun h => h ▸ rfl⟩

theorem mem_all (l : Label) : l ∈ all := by
  rw [← ofIndex_index l]
  exact List.get_mem _ _

end Label

/-- A set of labels: one bit per label. -/
structure LabelSet where
  bits : BitVec 18
  deriving DecidableEq, Repr

namespace LabelSet

/-- The set without labels. -/
def empty : LabelSet := ⟨0⟩

instance : Inhabited LabelSet := ⟨empty⟩

/-- Whether a label is in the set. -/
def has (s : LabelSet) (l : Label) : Bool := s.bits.getLsbD l.index

/-- The set with one label more. -/
def insert (s : LabelSet) (l : Label) : LabelSet := ⟨s.bits ||| BitVec.twoPow 18 l.index⟩

/-- The set with all of `ls` more. -/
def insertAll (s : LabelSet) (ls : List Label) : LabelSet := ls.foldl insert s

/-- The set of the given labels. -/
def ofList (ls : List Label) : LabelSet := empty.insertAll ls

/-- The members of the set, in listing order. -/
def toList (s : LabelSet) : List Label := Label.all.filter s.has

@[simp] theorem has_empty (l : Label) : empty.has l = false := by
  simp [has, empty]

/-- Inserting a label adds that label and no other. -/
@[simp] theorem has_insert (s : LabelSet) (l l' : Label) :
    (s.insert l).has l' = (s.has l' || decide (l = l')) := by
  simp [has, insert, Fin.val_inj, Label.index_inj, eq_comm]

@[simp] theorem has_insertAll (s : LabelSet) (ls : List Label) (l : Label) :
    (s.insertAll ls).has l = (s.has l || decide (l ∈ ls)) := by
  induction ls generalizing s with
  | nil => simp [insertAll]
  | cons x xs ih =>
    have h : (s.insertAll (x :: xs)) = (s.insert x).insertAll xs := rfl
    rw [h, ih, has_insert]
    by_cases hx : x = l
    · simp [hx]
    · have hl : ¬ l = x := fun h => hx h.symm
      simp [hx, hl]

@[simp] theorem has_ofList (ls : List Label) (l : Label) :
    (ofList ls).has l = decide (l ∈ ls) := by
  simp [ofList]

/-- A label set is determined by its members. -/
theorem ext_has {s t : LabelSet} (h : ∀ l, s.has l = t.has l) : s = t := by
  rcases s with ⟨s⟩
  rcases t with ⟨t⟩
  have key : s = t := by
    apply BitVec.eq_of_getLsbD_eq
    intro i hi
    have h' := h (Label.ofIndex ⟨i, hi⟩)
    simpa [has, Label.index_ofIndex] using h'
  rw [key]

theorem mem_toList {s : LabelSet} {l : Label} : l ∈ s.toList ↔ s.has l = true := by
  simp [toList, Label.mem_all]

end LabelSet

end Variability
