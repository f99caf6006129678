import PathQuery.Doc.Nodes
import PathQuery.Path.Step

/-! # Evaluating a path

A step selects from a node a list of nodes (`Step.select`); a path starts with the root and
replaces every node by what the next step selects from it, in order (`Path.eval`).

A step that does not scan selects only from a sequence or only from a mapping and does not look
through tags.  A scan selects at every node of the tree. -/

namespace PathQuery

namespace Doc

/-- The element of a list at a position, counted from the end if it is negative. -/
def elementAt? {α : Type} (items : List α) (i : Int) : Option α :=
  let position := if i < 0 then items.length + i else i
  if 0 ≤ position then items[position.toNat]? else none

/-- The value of a member: of the entry whose key is the text, and else of the first entry whose
key is a number or a truth value with that text. -/
def member? (entries : List (Doc × Doc)) (name : String) : Option Doc :=
  let isString : Doc × Doc → Bool
    | (.string s, _) => s == name
    | _ => false
  match entries.find? isString with
  | some e => some e.2
  | none => (entries.find? fun e => e.1.numberText? == some name).map Prod.snd

def element : Doc → Int → List Doc
  | .seq items, i => (elementAt? items i).toList
  | _, _ => []

/-- The member of a mapping of a name. -/
def child : Doc → String → List Doc
  | .map entries, name => (member? entries name).toList
  | _, _ => []

end Doc

namespace Span

/-- The first position of a span in a sequence of a length. -/
def lower (s : Span) (length : Nat) : Int :=
  if s.start < 0 then max (length + s.start) 0 else min s.start length

/-- The position before which a span ends in a sequence of a length.  The sum is one of whole
numbers; it is a word if the length is one and the offset is a word not above zero. -/
def upper (s : Span) (length : Nat) : Int :=
  match s.stop with
  | some stop => if stop < 0 then max (length + stop) 0 else min stop length
  | none => max 0 (min (length + s.offset) length)

/-- The elements of a list in a span. -/
def slice {α : Type} (s : Span) (items : List α) : List α :=
  let lower := s.lower items.length
  let upper := s.upper items.length
  if lower < upper then (items.drop lower.toNat).take (upper - lower).toNat else []

end Span

/-- What a pick takes from one node. -/
def Pick.select : Pick → Doc → List Doc
  | .positions is, d => is.flatMap d.element
  | .span s, .seq items => s.slice items
  | .span _, _ => []
  | .names ks, d => ks.flatMap d.child

def Step.select : Step → Doc → List Doc
  | .index i, d => d.element i
  | .name k, d => d.child k
  | .pick p, d => p.select d
  | .scan p, d => d.nodes.flatMap p.select

/-- Applies steps to a list of nodes. -/
def Step.applyAll (steps : List Step) (nodes : List Doc) : List Doc :=
  steps.foldl (fun nodes step => nodes.flatMap step.select) nodes

namespace Path

/-- The nodes that a path selects, in order and with repetitions. -/
def eval (p : Path) (d : Doc) : List Doc := Step.applyAll p.steps [d]

def first? (p : Path) (d : Doc) : Option Doc := (p.eval d).head?

/-- The paths of the first 0, 1, 2, … steps, up to the whole path. -/
def prefixes (p : Path) : List Path :=
  (List.range (p.steps.length + 1)).map fun n => ⟨p.steps.take n⟩

end Path

/-! ### Facts -/

@[simp] theorem Step.applyAll_nil (nodes : List Doc) : Step.applyAll [] nodes = nodes := rfl

@[simp] theorem Step.applyAll_cons (s : Step) (steps : List Step) (nodes : List Doc) :
    Step.applyAll (s :: steps) nodes = Step.applyAll steps (nodes.flatMap s.select) := rfl

theorem Step.applyAll_append (a b : List Step) (nodes : List Doc) :
    Step.applyAll (a ++ b) nodes = Step.applyAll b (Step.applyAll a nodes) := by
  simp [Step.applyAll]

theorem Step.applyAll_eq_flatMap (steps : List Step) (nodes : List Doc) :
    Step.applyAll steps nodes = nodes.flatMap fun d => Step.applyAll steps [d] := by
  induction steps generalizing nodes with
  | nil => simp [List.flatMap_singleton']
  | cons s steps ih =>
    simp only [Step.applyAll_cons, List.flatMap_cons, List.flatMap_nil, List.append_nil]
    rw [ih (nodes.flatMap s.select), List.flatMap_assoc]
    congr 1
    funext d
    exact (ih (s.select d)).symm

@[simp] theorem Path.eval_root (d : Doc) : Path.eval ⟨[]⟩ d = [d] := rfl

end PathQuery
