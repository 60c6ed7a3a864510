import Pseudocode.Toml.Document
import Pseudocode.Toml.Reader

/-!
# Documents from statements

The tables that the statements of a file make together. A key may be given a value once, with three
provisos. A table that only longer keys have named so far may be opened once by its own key. Longer
keys may keep adding to a table that is there. And a key whose value is an array may be given
another value, since the tables inside an array are entered under its key before the array is
complete.
-/

namespace Pseudocode.Toml

namespace Table

/-- Give a name a node, in place of the one it has. -/
def set (t : Table) (name : Text) (node : Node) : Table :=
  if t.any (·.1 == name) then t.map fun (n, old) => if n == name then (n, node) else (n, old)
  else t ++ [(name, node)]

end Table

/-- Apply a change to the table that a key leads to, by way of the last table of each array of
tables. There must be one. -/
def Table.update? (f : Table → Option Table) : Key → Table → Option Table
  | [], t => f t
  | name :: rest, t => do
    match ← t.lookup name with
    | .table entries =>
      let entries ← Table.update? f rest entries
      some (t.set name (.table entries))
    | .tables all =>
      let entries ← Table.update? f rest (all.getLastD [])
      some (t.set name (.tables (all.dropLast ++ [entries])))
    | .value _ => none

/-- The table that a key leads to. -/
def Table.at? : Key → Table → Option Table
  | [], t => some t
  | name :: rest, t => do
    match ← t.lookup name with
    | .table entries => Table.at? rest entries
    | .tables all => Table.at? rest (all.getLastD [])
    | .value _ => none

/-- A document in the making: its tables, the keys given so far, the keys of tables that are there
only because a longer key named them, and the keys whose value is an array. -/
structure Draft where
  root : Table := []
  keys : List Key := []
  implicit : List Key := []
  arrays : List Key := []
  deriving Repr

namespace Draft

/-- Note that a table is there only because a longer key named it. -/
def markImplicit (d : Draft) (key : Key) : Draft :=
  if d.implicit.contains key then d else { d with implicit := key :: d.implicit }

/-- Forget that a table was there only because a longer key named it. -/
def unmarkImplicit (d : Draft) (key : Key) : Draft :=
  { d with implicit := d.implicit.filter (· != key) }

/-- Note a key in the order of the file. -/
def noteKey (d : Draft) (key : Key) : Draft := { d with keys := d.keys ++ [key] }

/-- The key under which it is noted whether a value is an array. A name without characters is noted
with its table. -/
def kindKey (context : Key) (name : Text) : Key :=
  if !name.isEmpty then context ++ [name] else if context.isEmpty then [name] else context

/-- Note whether the value of a key is an array. -/
def noteKind (d : Draft) (key : Key) (isArray : Bool) : Draft :=
  let others := d.arrays.filter (· != key)
  { d with arrays := if isArray then key :: others else others }

/-- Give a name in a table a node. A name that has one keeps it if it was implicit, and gets the new
one if it had an array. -/
def put? (d : Draft) (context : Key) (name : Text) (node : Node) : Option Draft := do
  let table ← d.root.at? context
  let key := context ++ [name]
  let store (d : Draft) : Option Draft := do
    let root ← d.root.update? (fun t => some (t.set name node)) context
    some { d with root }
  if (table.lookup name).isNone then store d
  else if d.arrays.contains key then store (d.unmarkImplicit key)
  else if d.implicit.contains key then some (d.unmarkImplicit key)
  else none

/-- Make sure that the tables above the last name of a key are there. -/
def openParents? (d : Draft) (above : Key) : Key → Option Draft
  | [] | [_] => some d
  | name :: rest => do
    let table ← d.root.at? above
    let place := above ++ [name]
    match table.lookup name with
    | none =>
      let root ← d.root.update? (fun t => some (t.set name (.table []))) above
      openParents? { d.markImplicit place with root } place rest
    | some (.value _) => none
    | some _ => openParents? d place rest

/-- Open the table of a key. -/
def openTable? (d : Draft) (key : Key) : Option Draft := do
  let name ← key.getLast?
  let d ← d.openParents? [] key
  d.put? key.dropLast name (.table [])

/-- Add a table to the array of tables of a key. -/
def openArrayTable? (d : Draft) (key : Key) : Option Draft := do
  let name ← key.getLast?
  let d ← d.openParents? [] key
  let addTable (t : Table) : Option Table :=
    match t.lookup name with
    | none => some (t.set name (.tables [[]]))
    | some (.tables all) => some (t.set name (.tables (all ++ [[]])))
    | some _ => none
  let root ← d.root.update? addTable key.dropLast
  some { d with root }

/-- Open the tables that a key of several names stands in, one by one. -/
def openAbove? (d : Draft) (context : Key) : Key → Option (Draft × Key × Text)
  | [] => none
  | [name] => some (d, context, name)
  | name :: rest => do
    let place := context ++ [name]
    let d ← (d.markImplicit place).openTable? place
    openAbove? d place rest

mutual

/-- Enter a value under a name of a table, as far as it has tables in it, and give its node.
`inArray` tells that the value is an element of an array. -/
def node? (d : Draft) (context : Key) (name : Text) (inArray : Bool) : Value → Option (Draft × Node)
  | .array elements => do
    let d ← nodes? (d.noteKind (kindKey context name) true) context name elements
    some (d, .value (.array elements))
  | .table entries => do
    let place := context ++ [name]
    let d := d.markImplicit place
    let d ← if inArray then d.openArrayTable? place else d.openTable? place
    let d ← entries? d place entries
    let table ← d.root.at? place
    some (d, .table table)
  | v => some (d, .value v)

/-- Enter the elements of an array. -/
def nodes? (d : Draft) (context : Key) (name : Text) : List Value → Option Draft
  | [] => some d
  | v :: rest => do
    let (d, _) ← node? d context name true v
    nodes? d context name rest

/-- Enter the entries of a table. -/
def entries? (d : Draft) (context : Key) : List (Key × Value) → Option Draft
  | [] => some d
  | (key, v) :: rest => do
    let (d, place, name) ← d.openAbove? context key
    let (d, node) ← node? (d.noteKey (place ++ [name])) place name false v
    let d ← d.put? place name node
    entries? (d.noteKind (kindKey place name) v.isArray) context rest

end

/-- Enter statements. Those after a header belong to its table. -/
def statements? (d : Draft) (context : Key) : List Statement → Option Draft
  | [] => some d
  | .openTable key :: rest => do
    let d ← d.openTable? key
    statements? ((d.noteKind key false).noteKey key) key rest
  | .openArrayTable key :: rest => do
    let d ← d.openArrayTable? key
    statements? ((d.noteKind key false).noteKey key) key rest
  | .entry key v :: rest => do
    let d ← entries? d context [(key, v)]
    statements? d context rest

end Draft

/-- The document that a file spells. -/
def Document.ofText? (t : Text) : Option Document := do
  let statements ← Statement.ofText? t
  let d ← ({} : Draft).statements? [] statements
  some ⟨d.root, d.keys⟩

end Pseudocode.Toml
