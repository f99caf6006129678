import PathQuery.Proofs.Doc.Location

/-! # Documents without tags

`untag` takes the tags off all values of a document and leaves the keys of mappings as they are.
The nodes of the untagged document are the nodes of the document that are no tags, each of them
untagged (`nodes_untag`), so that no tag is left among them (`isTagged_of_mem_nodes_untag`). -/

namespace PathQuery.Doc

def isTagged : Doc → Bool
  | .tagged _ _ => true
  | _ => false

mutual

/-- A document without the tags of its values. -/
def untag : Doc → Doc
  | .seq items => .seq (untagItems items)
  | .map entries => .map (untagEntries entries)
  | .tagged _ value => untag value
  | d => d

def untagItems : List Doc → List Doc
  | [] => []
  | d :: ds => untag d :: untagItems ds

def untagEntries : List (Doc × Doc) → List (Doc × Doc)
  | [] => []
  | (k, v) :: es => (k, untag v) :: untagEntries es

end

/-! ### One node -/

theorem untagItems_eq_map (items : List Doc) : untagItems items = items.map untag := by
  induction items with
  | nil => rfl
  | cons d ds ih => rw [untagItems, ih, List.map_cons]

theorem untagEntries_eq_map (entries : List (Doc × Doc)) :
    untagEntries entries = entries.map (Prod.map id untag) := by
  induction entries with
  | nil => rfl
  | cons e es ih => rw [untagEntries, ih, List.map_cons, Prod.map, id]

@[simp] theorem untag_seq (items : List Doc) : untag (.seq items) = .seq (items.map untag) := by
  rw [untag, untagItems_eq_map]

@[simp] theorem untag_map (entries : List (Doc × Doc)) :
    untag (.map entries) = .map (entries.map (Prod.map id untag)) := by
  rw [untag, untagEntries_eq_map]

@[simp] theorem untag_tagged (tag : String) (value : Doc) : untag (.tagged tag value) = untag value := by
  rw [untag]

theorem children_untag {d : Doc} (h : d.isTagged = false) :
    d.untag.children = d.children.map untag := by
  cases d with
  | seq items => rw [untag_seq, children, children]
  | map entries =>
      rw [untag_map, children, children, List.map_map, List.map_map]
      rfl
  | tagged tag value => cases h
  | _ => rfl

/-- Below the tags of a value there is a value without a tag. -/
theorem isTagged_untag (d : Doc) : d.untag.isTagged = false := by
  induction d using childrenInduction with
  | node d ih =>
      cases d with
      | tagged tag value =>
          rw [untag_tagged]
          exact ih value List.mem_cons_self
      | seq items =>
          rw [untag_seq]
          rfl
      | map entries =>
          rw [untag_map]
          rfl
      | _ => rfl

/-! ### All nodes -/

/-- The nodes of an untagged document are the nodes that are no tags, untagged. -/
theorem nodes_untag (d : Doc) :
    d.untag.nodes = (d.nodes.filter fun n => !n.isTagged).map untag := by
  induction d using childrenInduction with
  | node d ih =>
      have hbelow : (d.children.map untag).flatMap nodes =
          ((d.children.flatMap nodes).filter fun n => !n.isTagged).map untag := by
        rw [List.flatMap_map, List.filter_flatMap, List.map_flatMap]
        exact List.flatMap_congr ih
      cases htag : d.isTagged with
      | true =>
          cases d with
          | tagged tag value =>
              rw [children, List.map_singleton, List.flatMap_singleton, List.flatMap_singleton]
                at hbelow
              rw [untag_tagged, nodes_tagged, List.filter_cons_of_neg (by simp [isTagged])]
              exact hbelow
          | _ => cases htag
      | false =>
          rw [nodes_eq_cons_flatMap, nodes_eq_cons_flatMap d, children_untag htag, hbelow,
            List.filter_cons_of_pos (by simp [htag]), List.map_cons]

theorem isTagged_of_mem_nodes_untag {d n : Doc} (h : n ∈ d.untag.nodes) : n.isTagged = false := by
  rw [nodes_untag] at h
  obtain ⟨m, -, rfl⟩ := List.mem_map.mp h
  exact m.isTagged_untag

end PathQuery.Doc
