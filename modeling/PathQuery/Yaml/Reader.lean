import PathQuery.Yaml.Node
import PathQuery.Yaml.Resolve

/-! # Reading YAML

`read?` reads a YAML text as a document.  Its nodes are numbered by their anchors
(`Node.number?`), and then every alias is replaced by the node it names (`Node.toDoc?`).

Collections may be nested `maxDepth` deep, the nodes that aliases stand for included.  At most
`jumpsPerEvent` aliases for each event of the document may be followed, where a scalar and an alias
are one event and a collection is two besides its contents. -/

namespace PathQuery.Yaml

/-- How deep collections may be nested. -/
def maxDepth : Nat := 128

/-- How many aliases may be followed, for each event of the document. -/
def jumpsPerEvent : Nat := 100

namespace Node

/-! ### Numbers of anchors -/

/-- The number of every name of an anchor that has been met. -/
abbrev Numbers := List (List Char × Nat)

/-- Gives a name the next number, which is the number of names met so far.  A name that is met again
gets a new number, but the count of names stays as it was. -/
def Numbers.add (numbers : Numbers) (name : List Char) : Nat × Numbers :=
  let n := numbers.length
  (n, (name, n) :: numbers.filter fun e => e.1 != name)

/-- The number of the anchor of a node. -/
def numberProps (numbers : Numbers) (p : Props (List Char)) : Props Nat × Numbers :=
  match p.anchor with
  | none => (⟨none, p.tag⟩, numbers)
  | some name =>
    let (n, numbers) := numbers.add name
    (⟨some n, p.tag⟩, numbers)

mutual

/-- Numbers the anchors of a node in the order of the text.  An alias has to name an anchor before
it. -/
def number? (numbers : Numbers) : Written → Option (Node Nat × Numbers)
  | .alias name => (numbers.find? fun e => e.1 == name).map fun e => (.alias e.2, numbers)
  | .scalar p text plain =>
    let (p, numbers) := numberProps numbers p
    some (.scalar p text plain, numbers)
  | .seq p items =>
    let (p, numbers) := numberProps numbers p
    (numberItems? numbers items).map fun (items, numbers) => (.seq p items, numbers)
  | .map p entries =>
    let (p, numbers) := numberProps numbers p
    (numberEntries? numbers entries).map fun (entries, numbers) => (.map p entries, numbers)

def numberItems? (numbers : Numbers) : List Written → Option (List (Node Nat) × Numbers)
  | [] => some ([], numbers)
  | d :: ds => do
    let (d, numbers) ← number? numbers d
    let (ds, numbers) ← numberItems? numbers ds
    some (d :: ds, numbers)

def numberEntries? (numbers : Numbers) :
    List (Written × Written) → Option (List (Node Nat × Node Nat) × Numbers)
  | [] => some ([], numbers)
  | (k, v) :: es => do
    let (k, numbers) ← number? numbers k
    let (v, numbers) ← number? numbers v
    let (es, numbers) ← numberEntries? numbers es
    some ((k, v) :: es, numbers)

end

mutual

/-- The nodes with an anchor, each after those before it in the text. -/
def anchored : Node Nat → List (Nat × Node Nat)
  | .alias _ => []
  | .scalar p text plain => (p.anchor.map fun n => (n, .scalar p text plain)).toList
  | .seq p items => (p.anchor.map fun n => (n, .seq p items)).toList ++ anchoredItems items
  | .map p entries =>
    (p.anchor.map fun n => (n, .map p entries)).toList ++ anchoredEntries entries

def anchoredItems : List (Node Nat) → List (Nat × Node Nat)
  | [] => []
  | d :: ds => anchored d ++ anchoredItems ds

def anchoredEntries : List (Node Nat × Node Nat) → List (Nat × Node Nat)
  | [] => []
  | (k, v) :: es => anchored k ++ anchored v ++ anchoredEntries es

end

mutual

def events : Node Nat → Nat
  | .alias _ => 1
  | .scalar .. => 1
  | .seq _ items => 2 + eventsOfItems items
  | .map _ entries => 2 + eventsOfEntries entries

def eventsOfItems : List (Node Nat) → Nat
  | [] => 0
  | d :: ds => events d + eventsOfItems ds

def eventsOfEntries : List (Node Nat × Node Nat) → Nat
  | [] => 0
  | (k, v) :: es => events k + events v + eventsOfEntries es

end

/-! ### Documents -/

/-- The node that a node stands for and the number of aliases that may still be followed.  Of
several nodes of one number an alias stands for the last one; the nodes with an anchor are given
from the last to the first. -/
def target? (anchors : List (Nat × Node Nat)) (jumps : Nat) : Node Nat → Option (Node Nat × Nat)
  | .alias n =>
    match jumps with
    | 0 => none
    | jumps + 1 => (anchors.find? fun e => e.1 == n).map fun e => (e.2, jumps)
  | node => some (node, jumps)

/-- The document of a node, with all aliases replaced, and the number of aliases that may still be
followed. -/
def toDoc? (anchors : List (Nat × Node Nat)) :
    (depth : Nat) → (jumps : Nat) → Node Nat → Option (Doc × Nat)
  | depth, jumps, node =>
    match target? anchors jumps node with
    | none => none
    | some (.alias _, _) => none
    | some (.scalar p text plain, jumps) => (scalarDoc? p.tag plain text).map fun d => (d, jumps)
    | some (.seq p items, jumps) =>
      match depth with
      | 0 => none
      | depth + 1 => do
        let (docs, jumps) ← items.foldlM (fun (docs, jumps) item => do
          let (d, jumps) ← toDoc? anchors depth jumps item
          some (d :: docs, jumps)) (([] : List Doc), jumps)
        some (withTag p.tag (.seq docs.reverse), jumps)
    | some (.map p entries, jumps) =>
      match depth with
      | 0 => none
      | depth + 1 => do
        let (docs, jumps) ← entries.foldlM (fun (docs, jumps) entry => do
          let (k, jumps) ← toDoc? anchors depth jumps entry.1
          if Doc.hasKey docs k then none
          else
            let (v, jumps) ← toDoc? anchors depth jumps entry.2
            some ((k, v) :: docs, jumps)) (([] : List (Doc × Doc)), jumps)
        some (withTag p.tag (.map docs.reverse), jumps)

end Node

/-- The document of a YAML text; a text without a document is null. -/
def read? (text : String) : Option Doc := do
  let tokens ← tokens? text.toList
  match ← Node.ofTokens? tokens with
  | none => some .null
  | some written =>
    let (node, _) ← Node.number? [] written
    let (d, _) ← node.toDoc? node.anchored.reverse maxDepth (node.events * jumpsPerEvent)
    some d

end PathQuery.Yaml
