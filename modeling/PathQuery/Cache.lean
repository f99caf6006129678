import PathQuery.Path.Reader

/-! # Remembering compiled paths

A `Cache` remembers the paths of the expressions looked up last, at most `capacity` of them.  Its
entries stand in the order of their last lookup, the oldest first; the oldest is given up for a new
one when the cache is full.  A cache of capacity 0 remembers nothing.

Every compiled path is a value of its own, told apart from equal ones by its number (`Shared.id`):
two lookups share a path when they answer the same number.  Numbers are never used twice. -/

namespace PathQuery

/-- A compiled path with its number. -/
structure Shared where
  id : Nat
  path : Path
  deriving DecidableEq, Repr

/-- A cache of compiled paths. -/
structure Cache where
  capacity : Nat
  /-- The expressions and their paths, in the order of their last lookup. -/
  entries : List (String × Shared)
  /-- The number of the path that is compiled next. -/
  nextId : Nat
  deriving DecidableEq, Repr

namespace Cache

def defaultCapacity : Nat := 256

def empty (capacity : Nat) : Cache := ⟨capacity, [], 0⟩

def size (c : Cache) : Nat := c.entries.length

def isEmpty (c : Cache) : Bool := c.entries.isEmpty

/-- The remembered expressions, in the order of their last lookup. -/
def keys (c : Cache) : List String := c.entries.map Prod.fst

/-- The path of an expression, if it is remembered. -/
def peek (c : Cache) (expression : String) : Option Shared :=
  (c.entries.find? fun e => e.1 == expression).map Prod.snd

/-- Puts a new entry last; the oldest entry has to go if the cache is full. -/
def insertNew (c : Cache) (expression : String) (shared : Shared) : Cache :=
  let kept := if c.capacity ≤ c.entries.length then c.entries.drop 1 else c.entries
  { c with entries := kept ++ [(expression, shared)] }

/-- Moves the entry of an expression to the end. -/
def touch (c : Cache) (expression : String) (shared : Shared) : Cache :=
  { c with
    entries := (c.entries.filter fun e => e.1 != expression) ++ [(expression, shared)] }

/-- Answers the path of an expression, compiled now or before, and the cache afterwards.  An
expression that is none changes nothing. -/
def lookup (c : Cache) (expression : String) : Except PathError Shared × Cache :=
  match c.peek expression with
  | some shared => (.ok shared, c.touch expression shared)
  | none =>
    match Path.parse expression with
    | .error e => (.error e, c)
    | .ok path =>
      let shared : Shared := ⟨c.nextId, path⟩
      let c := { c with nextId := c.nextId + 1 }
      (.ok shared, if c.capacity = 0 then c else c.insertNew expression shared)

def clear (c : Cache) : Cache := { c with entries := [] }

/-! ### Requests -/

/-- What can be asked of a cache. -/
inductive Request where
  | lookup (expression : String)
  | peek (expression : String)
  | clear
  deriving DecidableEq, Repr

/-- What a cache answers. -/
inductive Answer where
  | looked (result : Except PathError Shared)
  | peeked (found : Option Shared)
  | cleared

/-- The expression that a request names. -/
def Request.expression? : Request → Option String
  | .lookup e => some e
  | .peek e => some e
  | .clear => none

/-- Answers one request. -/
def handle (c : Cache) : Request → Answer × Cache
  | .lookup e => (.looked (c.lookup e).1, (c.lookup e).2)
  | .peek e => (.peeked (c.peek e), c)
  | .clear => (.cleared, c.clear)

/-- The cache after a history of requests. -/
def run (c : Cache) (requests : List Request) : Cache :=
  requests.foldl (fun c r => (c.handle r).2) c

/-! ### Facts -/

@[simp] theorem run_nil (c : Cache) : c.run [] = c := rfl

@[simp] theorem run_cons (c : Cache) (r : Request) (rs : List Request) :
    c.run (r :: rs) = (c.handle r).2.run rs := rfl

@[simp] theorem capacity_lookup (c : Cache) (e : String) :
    (c.lookup e).2.capacity = c.capacity := by
  unfold lookup
  split
  · rfl
  · split
    · rfl
    · by_cases h : c.capacity = 0 <;> simp [h, insertNew]

@[simp] theorem entries_clear (c : Cache) : c.clear.entries = [] := rfl

end Cache

end PathQuery
