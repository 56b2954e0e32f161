import Variability.Java.Reader
import Variability.Java.Syntax

/-!
# What reading yields

Reading an expression or a statement yields no tree. It yields what the analysis wants to know of
it: the calls, returns and anonymous classes it contains, in the order of a walk that visits a
construct before its parts, the local variables it declares, and, for an expression, its form.

The grammar is recursive: types contain types, expressions contain class bodies, and so on. Its
rules are written as plain definitions over the readers of the constructs nested in them, collected
in `Nested`; the recursion is closed in one place, by the depth of nesting.
-/

namespace Variability.Java

/-- What a piece of a method body contains. -/
structure Found where
  items : List Item := []
  locals : List Variable := []

namespace Found

instance : Inhabited Found := ⟨{}⟩

/-- Nothing. -/
def nothing : Found := {}

/-- What two pieces contain, one after the other. -/
def append (f g : Found) : Found := ⟨f.items ++ g.items, f.locals ++ g.locals⟩

instance : Append Found := ⟨append⟩

/-- What several pieces contain. -/
def concat (fs : List Found) : Found := ⟨fs.flatMap items, fs.flatMap locals⟩

/-- What an optional piece contains. -/
def ofOption (f : Option Found) : Found := f.getD nothing

/-- A single item. -/
def item (i : Item) : Found := ⟨[i], []⟩

end Found

/-- An expression that was read. -/
structure Operand where
  /-- Its form. -/
  form : Expr
  /-- What a method is called on when the expression stands before the point. -/
  receiver : Receiver
  found : Found

namespace Operand

/-- An expression on which methods are called as on any other value. -/
def of (form : Expr) (found : Found) : Operand := ⟨form, .expr form, found⟩

/-- An expression whose form tells nothing about its type. -/
def other (found : Found) : Operand := of .other found

end Operand

/-- The readers of the constructs that can stand inside of others. -/
structure Nested where
  /-- A type, possibly with annotations. -/
  type : Reader Found
  /-- A value inside an annotation. -/
  elementValue : Reader Found
  /-- An expression. -/
  expression : Reader Operand
  /-- An expression without binary operators; the argument says whether it may be a lambda. -/
  operand : Bool → Reader Operand
  /-- The value of a variable or an array element. -/
  initializer : Reader Found
  /-- A pattern that takes a record apart. -/
  recordPattern : Reader Found
  /-- A statement. -/
  statement : Reader Found
  /-- The body of a class or interface, with its braces. -/
  members : Reader (List Member)

/-- At depth zero nothing can be read. -/
def Nested.none : Nested where
  type := failure
  elementValue := failure
  expression := failure
  operand := fun _ => failure
  initializer := failure
  recordPattern := failure
  statement := failure
  members := failure

end Variability.Java
