/-! # Steps of a path

A `Path` is a list of steps, applied from the root of a document.  A step takes one position or
one member of a node (`index`, `name`), several of them at once (`pick`), or the same several at
every node below and including the current one (`scan`).  `Pick` says which: listed positions, a
`Span` of positions that is resolved against the length of the sequence, or listed member names.

`Step.deepen` turns a step into its scan; the path `$` has no step and stands for the root. -/

namespace PathQuery

/-- A run of positions that needs the length of the sequence.  Negative bounds count from the
end.  Without a `stop` the run ends `offset` after the end of the sequence, so that `offset = 0`
runs to the end and `offset = -1` leaves out the last element. -/
structure Span where
  start : Int
  stop : Option Int
  offset : Int
  deriving DecidableEq, Repr

/-- What a step takes from one node: elements of a sequence or members of a mapping, in the
order in which they are listed. -/
inductive Pick where
  | positions (is : List Int)
  | span (s : Span)
  | names (ks : List String)
  deriving DecidableEq, Repr

inductive Step where
  | index (i : Int)
  | name (k : String)
  | pick (p : Pick)
  | scan (p : Pick)
  deriving DecidableEq, Repr

namespace Step

/-- The step that does at every node of the tree what this step does at the current node. -/
def deepen : Step → Step
  | .index i => .scan (.positions [i])
  | .name k => .scan (.names [k])
  | .pick p => .scan p
  | .scan p => .scan p

/-- Whether the step looks below the current node. -/
def isDeep : Step → Bool
  | .scan _ => true
  | _ => false

@[simp] theorem deepen_index (i : Int) : deepen (.index i) = .scan (.positions [i]) := rfl

@[simp] theorem deepen_name (k : String) : deepen (.name k) = .scan (.names [k]) := rfl

@[simp] theorem deepen_pick (p : Pick) : deepen (.pick p) = .scan p := rfl

@[simp] theorem deepen_scan (p : Pick) : deepen (.scan p) = .scan p := rfl

@[simp] theorem isDeep_deepen (s : Step) : s.deepen.isDeep = true := by cases s <;> rfl

end Step

/-- A compiled path expression. -/
structure Path where
  steps : List Step
  deriving DecidableEq, Repr

namespace Path

def isRoot (p : Path) : Bool := p.steps.isEmpty

end Path

end PathQuery
