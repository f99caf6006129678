import PathQuery.Doc.Basic

/-! # The nodes of a document

`nodes d` lists a document and everything in it in the order of the text: a node before its
contents, the values of a mapping and the items of a sequence in their order, and the content of a
tagged value.  Keys of mappings are not nodes. -/

namespace PathQuery.Doc

mutual

/-- A document and everything in it, in the order of the text. -/
def nodes : Doc → List Doc
  | .seq items => .seq items :: itemNodes items
  | .map entries => .map entries :: entryNodes entries
  | .tagged tag value => .tagged tag value :: nodes value
  | d => [d]

def itemNodes : List Doc → List Doc
  | [] => []
  | d :: ds => nodes d ++ itemNodes ds

def entryNodes : List (Doc × Doc) → List Doc
  | [] => []
  | (_, v) :: es => nodes v ++ entryNodes es

end

/-! ### Facts -/

@[simp] theorem nodes_null : nodes .null = [.null] := by simp [nodes]

@[simp] theorem nodes_bool (b : Bool) : nodes (.bool b) = [.bool b] := by simp [nodes]

@[simp] theorem nodes_int (n : Int) : nodes (.int n) = [.int n] := by simp [nodes]

@[simp] theorem nodes_float (x : Binary64) : nodes (.float x) = [.float x] := by simp [nodes]

@[simp] theorem nodes_string (s : String) : nodes (.string s) = [.string s] := by simp [nodes]

theorem itemNodes_eq_flatMap (items : List Doc) : itemNodes items = items.flatMap nodes := by
  induction items with
  | nil => simp [itemNodes]
  | cons d ds ih => simp [itemNodes, ih]

theorem entryNodes_eq_flatMap (entries : List (Doc × Doc)) :
    entryNodes entries = entries.flatMap fun e => nodes e.2 := by
  induction entries with
  | nil => simp [entryNodes]
  | cons e es ih => simp [entryNodes, ih]

@[simp] theorem nodes_seq (items : List Doc) :
    nodes (.seq items) = .seq items :: items.flatMap nodes := by
  simp [nodes, itemNodes_eq_flatMap]

@[simp] theorem nodes_map (entries : List (Doc × Doc)) :
    nodes (.map entries) = .map entries :: entries.flatMap fun e => nodes e.2 := by
  simp [nodes, entryNodes_eq_flatMap]

@[simp] theorem nodes_tagged (tag : String) (value : Doc) :
    nodes (.tagged tag value) = .tagged tag value :: nodes value := by
  simp [nodes]

end PathQuery.Doc
