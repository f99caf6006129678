import PathQuery.Yaml.Token

/-! # Nodes of YAML

`Node.ofTokens?` builds the tree of nodes of a text from its tokens; a text without a document has
no node, and a text has at most one document.

A node may have a tag and an anchor, and instead of a node an alias may name an anchor.  The nodes
are the same for all ways to mark an anchor: by its name, as it is written, or by a number. -/

namespace PathQuery.Yaml

/-- What may stand in front of a node. -/
structure Props (α : Type) where
  anchor : Option α
  /-- The bytes of the tag. -/
  tag : Option (List UInt8)

/-- A node whose anchors are marked by `α`. -/
inductive Node (α : Type) where
  | alias (mark : α)
  | scalar (props : Props α) (text : List Char) (plain : Bool)
  | seq (props : Props α) (items : List (Node α))
  | map (props : Props α) (entries : List (Node α × Node α))

namespace Node

/-- A node as it is written. -/
abbrev Written := Node (List Char)

/-- The node where nothing is written. -/
def empty : Written := .scalar ⟨none, none⟩ [] true

/-! ### Tags and anchors -/

/-- The tag and the anchor at the front of a list of tokens, in either order. -/
def props? (table : TagTable) : List Token → Option (Props (List Char) × List Token)
  | .anchor name :: .tag handle suffix :: ts =>
    (table.resolve? handle suffix).map fun tag => (⟨some name, some tag⟩, ts)
  | .anchor name :: ts => some (⟨some name, none⟩, ts)
  | .tag handle suffix :: .anchor name :: ts =>
    (table.resolve? handle suffix).map fun tag => (⟨some name, some tag⟩, ts)
  | .tag handle suffix :: ts =>
    (table.resolve? handle suffix).map fun tag => (⟨none, some tag⟩, ts)
  | ts => some (⟨none, none⟩, ts)

/-! ### Nodes -/

/-- Whether nothing is written between a key or a colon and the given tokens of a block. -/
def endsBlockPart : List Token → Bool
  | .key :: _ => true
  | .value :: _ => true
  | .blockEnd :: _ => true
  | _ => false

/-- Whether nothing is written between a hyphen and the given tokens. -/
def endsItem (indented : Bool) : List Token → Bool
  | .blockEntry :: _ => true
  | .blockEnd :: _ => true
  | .key :: _ => !indented
  | .value :: _ => !indented
  | _ => false

/-- Whether nothing is written between a key, a colon or a comma in brackets and the given
tokens. -/
def endsFlowPart (close : Token) : List Token → Bool
  | .flowEntry :: _ => true
  | t :: _ => t == close
  | [] => false

mutual

/-- Reads a node.  Collections in block style are read only if `block` is set, and items at the
column of their key only if `level` is set. -/
def read (table : TagTable) (block level : Bool) (ts : List Token) :
    (fuel : Nat) → Option (Written × List Token)
  | 0 => none
  | fuel + 1 =>
    match ts with
    | .alias name :: ts => some (.alias name, ts)
    | ts =>
      match props? table ts with
      | none => none
      | some (p, ts) =>
        match ts with
        | .blockEntry :: _ => if level then readItems table p false [] ts fuel else
            readNothing p ts
        | .scalar text plain :: ts => some (.scalar p text plain, ts)
        | .flowSeqStart :: ts => readFlowItems table p true [] ts fuel
        | .flowMapStart :: ts => readFlowEntries table p true [] ts fuel
        | .blockSeqStart :: r =>
          if block then readItems table p true [] r fuel else readNothing p ts
        | .blockMapStart :: r =>
          if block then readEntries table p [] r fuel else readNothing p ts
        | ts => readNothing p ts

/-- Reads a node of which nothing but a tag or an anchor is written. -/
def readNothing (p : Props (List Char)) (ts : List Token) : Option (Written × List Token) :=
  if p.anchor.isSome || p.tag.isSome then some (.scalar p [] true, ts) else none

/-- Reads the items of a sequence in block style, indented or at the column of their key. -/
def readItems (table : TagTable) (p : Props (List Char)) (indented : Bool) (items : List Written)
    (ts : List Token) : (fuel : Nat) → Option (Written × List Token)
  | 0 => none
  | fuel + 1 =>
    match ts with
    | .blockEntry :: ts =>
      if endsItem indented ts then readItems table p indented (empty :: items) ts fuel
      else
        match read table true false ts fuel with
        | some (item, ts) => readItems table p indented (item :: items) ts fuel
        | none => none
    | .blockEnd :: r => some (.seq p items.reverse, if indented then r else ts)
    | ts => if indented then none else some (.seq p items.reverse, ts)

def readEntries (table : TagTable) (p : Props (List Char)) (entries : List (Written × Written))
    (ts : List Token) : (fuel : Nat) → Option (Written × List Token)
  | 0 => none
  | fuel + 1 =>
    match ts with
    | .blockEnd :: ts => some (.map p entries.reverse, ts)
    | .key :: ts =>
      match (if endsBlockPart ts then some (empty, ts) else read table true true ts fuel) with
      | none => none
      | some (key, ts) =>
        match ts with
        | .value :: ts =>
          match (if endsBlockPart ts then some (empty, ts) else read table true true ts fuel) with
          | none => none
          | some (value, ts) => readEntries table p ((key, value) :: entries) ts fuel
        | ts => readEntries table p ((key, empty) :: entries) ts fuel
    | _ => none

def readFlowItems (table : TagTable) (p : Props (List Char)) (first : Bool) (items : List Written)
    (ts : List Token) : (fuel : Nat) → Option (Written × List Token)
  | 0 => none
  | fuel + 1 =>
    match ts with
    | .flowSeqEnd :: ts => some (.seq p items.reverse, ts)
    | ts =>
      match (if first then some ts else afterComma? ts) with
      | none => none
      | some (.flowSeqEnd :: ts) => some (.seq p items.reverse, ts)
      | some (.key :: ts) =>
        match readPair table ts fuel with
        | some (item, ts) => readFlowItems table p false (item :: items) ts fuel
        | none => none
      | some ts =>
        match read table false false ts fuel with
        | some (item, ts) => readFlowItems table p false (item :: items) ts fuel
        | none => none

def afterComma? : List Token → Option (List Token)
  | .flowEntry :: ts => some ts
  | _ => none

/-- Reads the mapping of one entry that an item in brackets may be, after the token for its key.
Where no key is written, the token after it is passed over. -/
def readPair (table : TagTable) (ts : List Token) : (fuel : Nat) → Option (Written × List Token)
  | 0 => none
  | fuel + 1 =>
    let keyless := endsFlowPart .flowSeqEnd ts || ts.head? == some .value
    match (if keyless then some (empty, ts.drop 1) else read table false false ts fuel) with
    | none => none
    | some (key, ts) =>
      match ts with
      | .value :: ts =>
        match (if endsFlowPart .flowSeqEnd ts then some (empty, ts)
          else read table false false ts fuel) with
        | none => none
        | some (value, ts) => some (.map ⟨none, none⟩ [(key, value)], ts)
      | ts => some (.map ⟨none, none⟩ [(key, empty)], ts)

def readFlowEntries (table : TagTable) (p : Props (List Char)) (first : Bool)
    (entries : List (Written × Written)) (ts : List Token) :
    (fuel : Nat) → Option (Written × List Token)
  | 0 => none
  | fuel + 1 =>
    match ts with
    | .flowMapEnd :: ts => some (.map p entries.reverse, ts)
    | ts =>
      match (if first then some ts else afterComma? ts) with
      | none => none
      | some (.flowMapEnd :: ts) => some (.map p entries.reverse, ts)
      | some (.key :: ts) =>
        let keyless := endsFlowPart .flowMapEnd ts || ts.head? == some .value
        match (if keyless then some (empty, ts) else read table false false ts fuel) with
        | none => none
        | some (key, ts) =>
          match ts with
          | .value :: ts =>
            match (if endsFlowPart .flowMapEnd ts then some (empty, ts)
              else read table false false ts fuel) with
            | none => none
            | some (value, ts) =>
              readFlowEntries table p false ((key, value) :: entries) ts fuel
          | ts => readFlowEntries table p false ((key, empty) :: entries) ts fuel
      | some ts =>
        match read table false false ts fuel with
        | some (key, ts) => readFlowEntries table p false ((key, empty) :: entries) ts fuel
        | none => none

end

/-! ### Documents -/

/-- The directives at the front of a list of tokens. -/
def directives : List Token → List Directive × List Token
  | .directive d :: ts => ((d :: (directives ts).1), (directives ts).2)
  | ts => ([], ts)

/-- The tokens after the ends of documents. -/
def skipEnds : List Token → List Token
  | .documentEnd :: ts => skipEnds ts
  | ts => ts

/-- Whether an explicit document is empty. -/
def endsDocument : List Token → Bool
  | [] => true
  | .directive _ :: _ => true
  | .documentStart :: _ => true
  | .documentEnd :: _ => true
  | _ => false

/-- The node of the only document of a list of tokens, or none if there is no document. -/
def ofTokens? (ts : List Token) : Option (Option Written) := do
  let fuel := 4 * ts.length + 4
  match ts with
  | [] => some none
  | ts =>
    let (node, ts) ←
      if ts.head?.any fun t => t matches .directive _ || t == .documentStart then do
        let (ds, ts) := directives ts
        let table ← TagTable.ofDirectives? ds
        match ts with
        | .documentStart :: ts =>
          if endsDocument ts then some (empty, ts) else read table true false ts fuel
        | _ => none
      else do
        let table ← TagTable.ofDirectives? []
        read table true false ts fuel
    if (skipEnds ts).isEmpty then some (some node) else none

end Node

end PathQuery.Yaml
