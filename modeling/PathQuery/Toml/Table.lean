import PathQuery.Decimal.Binary64

/-! # Tables of TOML

A value of TOML, and the tables that a text is building.  A table is opened by a header of its own,
by a longer header that passes through it, or by a dotted key; `Origin` keeps which one, because it
decides what may still be added:

* `put` adds a value under a dotted key; it goes only through tables that dotted keys have opened
  or that headers have passed through, and it ends only in one of the former;
* `update` goes where a header leads, into the last element of an array of tables.

Both refuse to replace anything. -/

namespace PathQuery.Toml

/-- A value of TOML.  Dates and times are kept as they are written. -/
inductive Value where
  | string (s : String)
  | integer (n : Int)
  | boolean (b : Bool)
  | float (x : Binary64)
  | moment (text : String)
  | array (items : List Value)
  | table (entries : List (String × Value))
  deriving Repr

/-- How a table was opened. -/
inductive Origin where
  /-- By a header of its own. -/
  | header
  /-- By a longer header. -/
  | passed
  /-- By a dotted key. -/
  | dotted
  deriving DecidableEq, Repr

/-- What stands under a key. -/
inductive Item where
  | value (v : Value)
  | table (origin : Origin) (entries : List (String × Item))
  | tables (elements : List (List (String × Item)))

/-- A table under construction. -/
abbrev Table := List (String × Item)

namespace Table

/-- Changes what stands under a key, which may be nothing. -/
def alter (key : String) (f : Option Item → Option Item) : Table → Option Table
  | [] => (f none).map fun item => [(key, item)]
  | (k, item) :: t =>
    if k = key then (f (some item)).map fun item => (k, item) :: t
    else (alter key f t).map ((k, item) :: ·)

/-- Changes the last element of a list that has one. -/
def alterLast (f : Table → Option Table) : List Table → Option (List Table)
  | [] => none
  | [t] => (f t).map fun t => [t]
  | t :: ts => (alterLast f ts).map (t :: ·)

/-- Adds a value under a key behind a path of keys. -/
def put (key : String) (v : Value) : (path : List String) → Table → Option Table
  | [], t => alter key (fun
    | none => some (.value v)
    | some _ => none) t
  | k :: path, t => alter k (fun
    | none => (put key v path []).map (.table .dotted)
    | some (.table .dotted u) => (put key v path u).map (.table .dotted)
    | some (.table .passed u) =>
      if path.isEmpty then none else (put key v path u).map (.table .passed)
    | some (.tables us) =>
      if path.isEmpty then none else (alterLast (put key v path) us).map .tables
    | some _ => none) t

/-- Changes what a header names by a key behind a path of keys. -/
def update (key : String) (f : Option Item → Option Item) :
    (path : List String) → Table → Option Table
  | [], t => alter key f t
  | k :: path, t => alter k (fun
    | none => (update key f path []).map (.table .passed)
    | some (.table origin u) => (update key f path u).map (.table origin)
    | some (.tables us) => (alterLast (update key f path) us).map .tables
    | some (.value _) => none) t

/-- Opens a table by its header. -/
def openTable (path : List String) (key : String) : Table → Option Table :=
  update key (fun
    | none => some (.table .header [])
    | some (.table .passed u) => some (.table .header u)
    | some _ => none) path

/-- Opens one more table of an array by its header. -/
def openElement (path : List String) (key : String) : Table → Option Table :=
  update key (fun
    | none => some (.tables [[]])
    | some (.tables us) => some (.tables (us ++ [[]]))
    | some _ => none) path

/-- Adds a value to the table that a header has opened. -/
def putUnder (header : List String × String) (path : List String) (key : String) (v : Value) :
    Table → Option Table :=
  update header.2 (fun
    | some (.table origin u) => (put key v path u).map (.table origin)
    | some (.tables us) => (alterLast (put key v path) us).map .tables
    | _ => none) header.1

end Table

mutual

/-- What stands under a key, as a value. -/
def Item.toValue : Item → Value
  | .value v => v
  | .table _ entries => .table (entryValues entries)
  | .tables elements => .array (elementValues elements)

def entryValues : List (String × Item) → List (String × Value)
  | [] => []
  | (k, item) :: t => (k, item.toValue) :: entryValues t

def elementValues : List (List (String × Item)) → List Value
  | [] => []
  | t :: ts => .table (entryValues t) :: elementValues ts

end

end PathQuery.Toml
