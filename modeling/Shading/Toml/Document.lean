/-!
# TOML documents

The tree of a document.  A table is made by a header, by a dotted key, or on the way to one of these,
and may be made only once; `Origin` tells which tables may still be added to.

* `Node.fits` — whether every number in a value can be held;
* `Table.set?` — adds a value under a dotted key;
* `Table.openTable?`, `Table.openElement?` — what a header does.
-/

namespace Shading.Toml

/-- How a table came to be. -/
inductive Origin
  /-- By its own header. -/
  | header
  /-- On the way to a header. -/
  | implied
  /-- By a dotted key, or on the way to a header and then added to by a dotted key. -/
  | dotted
deriving DecidableEq, Repr

/-- A value in a document.  Numbers and truth values are not told apart, but for the numbers that
cannot be held. -/
inductive Node
  | string (text : String)
  | scalar
  | unfit
  | moment
  | array (elements : List Node)
  | inline (entries : List (String × Node))
  | table (origin : Origin) (entries : List (String × Node))
  | tables (earlier : List (List (String × Node))) (last : List (String × Node))

/-- Whether a value is a table or an array with nothing in it. -/
def Node.isEmpty : Node → Bool
  | .table _ [] => true
  | .inline [] => true
  | .array [] => true
  | _ => false

mutual

/-- Whether every number in a value can be held. -/
def Node.fits : Node → Bool
  | .string _ => true
  | .scalar => true
  | .unfit => false
  | .moment => true
  | .array elements => elementsFit elements
  | .inline entries => entriesFit entries
  | .table _ entries => entriesFit entries
  | .tables earlier last => tablesFit earlier && entriesFit last

/-- Whether every number in an array can be held. -/
def elementsFit : List Node → Bool
  | [] => true
  | node :: nodes => node.fits && elementsFit nodes

/-- Whether every number in a table can be held. -/
def entriesFit : List (String × Node) → Bool
  | [] => true
  | (_, node) :: entries => node.fits && entriesFit entries

/-- Whether every number in some tables can be held. -/
def tablesFit : List (List (String × Node)) → Bool
  | [] => true
  | entries :: tables => entriesFit entries && tablesFit tables

end

/-- Values by key, the latest first. -/
abbrev Table := List (String × Node)

namespace Table

/-- The table with a value under a key, in place of an earlier one. -/
def put (t : Table) (key : String) (node : Node) : Table := (key, node) :: t.filter (·.1 != key)

/-- Adds a value under a dotted key.  The tables on the way are made as needed, and of an array of
tables the last is meant.  A table that is there must not have a header of its own, and from then on
cannot get one; and the value must not go right into an element of an array. -/
def set? (t : Table) (keys : List String) (value : Node) : Option Table :=
  match keys with
  | [] => none
  | [key] => if (t.lookup key).isSome then none else some (t.put key value)
  | key :: keys =>
    match t.lookup key with
    | none => (set? [] keys value).map fun inner => t.put key (.table .dotted inner)
    | some (.table origin inner) =>
      if origin = .header then none
      else (set? inner keys value).map fun inner => t.put key (.table .dotted inner)
    | some (.tables earlier last) =>
      if keys.length = 1 then none
      else (set? last keys value).map fun last => t.put key (.tables earlier last)
    | some _ => none

/-- Changes the table that a header leads to.  Tables on the way are made as needed, and of an array
of tables the last is meant. -/
def within? (t : Table) (keys : List String) (change : Table → Option Table) : Option Table :=
  match keys with
  | [] => change t
  | key :: keys =>
    match t.lookup key with
    | none => (within? [] keys change).map fun inner => t.put key (.table .implied inner)
    | some (.table origin inner) =>
      (within? inner keys change).map fun inner => t.put key (.table origin inner)
    | some (.tables earlier last) =>
      (within? last keys change).map fun last => t.put key (.tables earlier last)
    | some _ => none

/-- Opens the table of a header, which must not have been made but on the way to another. -/
def openTable? (t : Table) (keys : List String) : Option Table := do
  let key ← keys.getLast?
  t.within? keys.dropLast fun parent =>
    match parent.lookup key with
    | none => some (parent.put key (.table .header []))
    | some (.table .implied inner) => some (parent.put key (.table .header inner))
    | some _ => none

/-- Opens a further element of an array of tables. -/
def openElement? (t : Table) (keys : List String) : Option Table := do
  let key ← keys.getLast?
  t.within? keys.dropLast fun parent =>
    match parent.lookup key with
    | none => some (parent.put key (.tables [] []))
    | some (.tables earlier last) => some (parent.put key (.tables (earlier ++ [last]) []))
    | some _ => none

end Table

end Shading.Toml
