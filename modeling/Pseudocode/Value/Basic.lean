import Pseudocode.Number.Shortest
import Pseudocode.Text.Utf8

/-!
# Values

A value is a number, a text, a truth value, an array, or nothing yet. Arrays are shared: a value
only names an array, and its elements are kept in `Arrays`, where every alias sees the same change.
A value may also be of a kind that only a host knows; it prints as nothing and is false.
-/

namespace Pseudocode

/-- A value. An array is named by its number in the order of creation. -/
inductive Value where
  | uninitialized
  | number (n : Number)
  | text (t : Text)
  | boolean (b : Bool)
  | array (id : Nat)
  | foreign (kind : Int)
  deriving DecidableEq, Repr, Inhabited

/-- The elements of all arrays of a run, by the number of the array. -/
structure Arrays where
  cells : Array (Array Value)
  deriving Repr, Inhabited

namespace Arrays

/-- No arrays. -/
def empty : Arrays := ⟨#[]⟩

/-- The elements of an array. -/
def elements (a : Arrays) (id : Nat) : Array Value := a.cells.getD id #[]

/-- A new array with these elements, and the value that names it. -/
def allocate (a : Arrays) (elements : Array Value) : Arrays × Value :=
  (⟨a.cells.push elements⟩, .array a.cells.size)

/-- Replace one element of one array. -/
def store (a : Arrays) (id index : Nat) (v : Value) : Arrays :=
  ⟨a.cells.modify id (·.setIfInBounds index v)⟩

end Arrays

namespace Value

/-- The kinds of value. -/
inductive Kind where
  | uninitialized | number | text | boolean | array | unknown
  deriving DecidableEq, Repr

/-- The name of a kind in messages. -/
def Kind.name : Kind → Text
  | uninitialized => "uninitialized"
  | number => "number"
  | text => "text"
  | boolean => "boolean"
  | array => "array"
  | unknown => "unknown"

/-- The kind of a value. -/
def kind : Value → Kind
  | uninitialized => .uninitialized
  | number _ => .number
  | text _ => .text
  | boolean _ => .boolean
  | array _ => .array
  | foreign _ => .unknown

/-- The two truth values as they are printed. -/
def truthWord (b : Bool) : Text := if b then "verdadero" else "falso"

/-- A value as text, arrays to a depth: their elements with commas between them. -/
def textWithin (arrays : Arrays) : (depth : Nat) → Value → Text
  | _, uninitialized => Text.empty
  | _, number n => n.text
  | _, text t => t
  | _, boolean b => truthWord b
  | 0, array _ => Text.empty
  | depth + 1, array id =>
    Text.join "," ((arrays.elements id).toList.map (textWithin arrays depth))
  | _, foreign _ => Text.empty

/-- A value as text. As deep as there are arrays is deep enough, unless an array contains itself. -/
def toText (arrays : Arrays) (v : Value) : Text := textWithin arrays arrays.cells.size v

/-- Whether a value counts as true. Zero, `nan`, the empty text and what is not set do not. -/
def truthy : Value → Bool
  | uninitialized => false
  | number n => !(n == 0) && !n.isNaN
  | text t => !t.isEmpty
  | boolean b => b
  | array _ => true
  | foreign _ => false

/-- Whether two values are equal: of one kind, and equal as that kind has it. Two arrays are equal
when they are the same array. -/
def same : Value → Value → Bool
  | uninitialized, uninitialized => true
  | number a, number b => a == b
  | text a, text b => a == b
  | boolean a, boolean b => a == b
  | array a, array b => a == b
  | foreign a, foreign b => a == b
  | _, _ => false

end Value

end Pseudocode
