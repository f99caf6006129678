import Mathlib.Data.List.Basic
import Mathlib.Data.List.Flatten
import PathQuery.Doc.Nodes

/-! # Locations in a document

Equal documents may stand at several places of one document.  A place is named by its location, the
list of the positions at which one enters the items of a sequence, the values of a mapping or the
content of a tagged value (`children`).  `at?` finds the node at a location by following it.

The locations of a document are all those at which there is a node (`mem_locations_iff`), listed so
that they ascend lexicographically (`pairwise_locations`): a node before its contents, and the
contents in their order.  The nodes of a document are the nodes at its locations
(`nodes_eq_filterMap_at?`). -/

namespace PathQuery.Doc

/-- The nodes right below a node, in the order of the text. -/
def children : Doc → List Doc
  | .seq items => items
  | .map entries => entries.map Prod.snd
  | .tagged _ value => [value]
  | _ => []

/-- The node at a location. -/
def at? (d : Doc) : List Nat → Option Doc
  | [] => some d
  | i :: l => d.children[i]?.bind fun c => c.at? l

mutual

/-- The locations of all nodes of a document, in the order of the text. -/
def locations : Doc → List (List Nat)
  | .seq items => [] :: itemLocations 0 items
  | .map entries => [] :: entryLocations 0 entries
  | .tagged _ value => [] :: (locations value).map (0 :: ·)
  | _ => [[]]

/-- The locations of the nodes of items, of which the first one stands at position `i`. -/
def itemLocations (i : Nat) : List Doc → List (List Nat)
  | [] => []
  | d :: ds => (locations d).map (i :: ·) ++ itemLocations (i + 1) ds

/-- The locations of the nodes of values, of which the first one stands at position `i`. -/
def entryLocations (i : Nat) : List (Doc × Doc) → List (List Nat)
  | [] => []
  | (_, v) :: es => (locations v).map (i :: ·) ++ entryLocations (i + 1) es

end

/-! ### Children -/

theorem getElem?_children_map (entries : List (Doc × Doc)) (i : Nat) :
    (children (.map entries))[i]? = entries[i]?.map Prod.snd :=
  List.getElem?_map

theorem sizeOf_lt_of_mem_entries {e : Doc × Doc} {entries : List (Doc × Doc)}
    (h : e ∈ entries) : sizeOf e.1 < sizeOf (map entries) ∧ sizeOf e.2 < sizeOf (map entries) := by
  have hlt : sizeOf e < sizeOf entries := List.sizeOf_lt_of_mem h
  obtain ⟨k, v⟩ := e
  rw [Prod.mk.sizeOf_spec] at hlt
  rw [map.sizeOf_spec]
  constructor
  · show sizeOf k < _
    omega
  · show sizeOf v < _
    omega

theorem sizeOf_lt_of_mem_children {c d : Doc} (h : c ∈ d.children) : sizeOf c < sizeOf d := by
  cases d with
  | seq items =>
      have hlt : sizeOf c < sizeOf items := List.sizeOf_lt_of_mem h
      rw [seq.sizeOf_spec]
      omega
  | map entries =>
      obtain ⟨e, hmem, rfl⟩ := List.mem_map.mp h
      exact (sizeOf_lt_of_mem_entries hmem).2
  | tagged tag value =>
      rw [List.mem_singleton.mp h, tagged.sizeOf_spec]
      omega
  | _ => cases h

/-- A property of documents holds if it holds of every document whose children have it. -/
@[elab_as_elim]
theorem childrenInduction {motive : Doc → Prop}
    (node : ∀ d, (∀ c ∈ d.children, motive c) → motive d) (d : Doc) : motive d :=
  node d fun c _ => childrenInduction node c
termination_by sizeOf d
decreasing_by exact sizeOf_lt_of_mem_children ‹_›

theorem nodes_eq_cons_flatMap (d : Doc) : d.nodes = d :: d.children.flatMap nodes := by
  cases d <;> simp [children, List.flatMap_map]

theorem itemLocations_eq_flatMap (i : Nat) (items : List Doc) :
    itemLocations i items = (items.zipIdx i).flatMap fun c => c.1.locations.map (c.2 :: ·) := by
  induction items generalizing i with
  | nil => rfl
  | cons d ds ih =>
      rw [itemLocations, List.zipIdx_cons, List.flatMap_cons, ih]

theorem entryLocations_eq_itemLocations (i : Nat) (entries : List (Doc × Doc)) :
    entryLocations i entries = itemLocations i (entries.map Prod.snd) := by
  induction entries generalizing i with
  | nil => rfl
  | cons e es ih =>
      obtain ⟨k, v⟩ := e
      rw [entryLocations, List.map_cons, itemLocations, ih]

theorem locations_eq_cons_flatMap (d : Doc) :
    d.locations = [] :: d.children.zipIdx.flatMap fun c => c.1.locations.map (c.2 :: ·) := by
  cases d with
  | seq items => rw [locations, itemLocations_eq_flatMap, children]
  | map entries =>
      rw [locations, entryLocations_eq_itemLocations, itemLocations_eq_flatMap, children]
  | tagged tag value => simp [locations, children]
  | _ => rfl

example : locations (.map [(.null, .seq [.null, .null]), (.bool true, .tagged "!t" .null)]) =
    [[], [0], [0, 0], [0, 1], [1], [1, 0]] := rfl

/-! ### What the locations are -/

theorem at?_cons {d c : Doc} {i : Nat} (h : d.children[i]? = some c) (l : List Nat) :
    d.at? (i :: l) = c.at? l := by
  rw [at?, h, Option.bind_some]

/-- There is a node at the listed locations, and nowhere else. -/
theorem mem_locations_iff (d : Doc) (l : List Nat) : l ∈ d.locations ↔ (d.at? l).isSome := by
  induction l generalizing d with
  | nil =>
      rw [locations_eq_cons_flatMap]
      exact iff_of_true List.mem_cons_self rfl
  | cons i l ih =>
      rw [locations_eq_cons_flatMap]
      constructor
      · intro h
        obtain h | h := List.mem_cons.mp h
        · cases h
        · obtain ⟨⟨c, j⟩, hc, hl⟩ := List.mem_flatMap.mp h
          obtain ⟨l', hl', heq⟩ := List.mem_map.mp hl
          cases heq
          rw [at?_cons (List.mem_zipIdx_iff_getElem?.mp hc)]
          exact (ih c).mp hl'
      · intro h
        obtain ⟨c, hc⟩ : ∃ c, d.children[i]? = some c :=
          Option.isSome_iff_exists.mp (Option.isSome_of_isSome_bind h)
        rw [at?_cons hc] at h
        refine List.mem_cons_of_mem _ (List.mem_flatMap.mpr ⟨(c, i), ?_, ?_⟩)
        · exact List.mem_zipIdx_iff_getElem?.mpr hc
        · exact List.mem_map_of_mem ((ih c).mpr h)

theorem at?_append (d : Doc) (l l' : List Nat) :
    d.at? (l ++ l') = (d.at? l).bind fun n => n.at? l' := by
  induction l generalizing d with
  | nil => rfl
  | cons i l ih =>
      rw [List.cons_append, at?, at?, Option.bind_assoc]
      exact congrArg _ (funext ih)

theorem pairwise_snd_zipIdx (ds : List Doc) : ds.zipIdx.Pairwise fun a b => a.2 < b.2 := by
  have h : (ds.zipIdx.map Prod.snd).Pairwise (· < ·) := by
    rw [List.zipIdx_map_snd]
    exact List.pairwise_lt_range'
  exact List.pairwise_map.mp h

theorem pairwise_locations (d : Doc) : d.locations.Pairwise (· < ·) := by
  induction d using childrenInduction with
  | node d ih =>
      rw [locations_eq_cons_flatMap, List.pairwise_cons, List.pairwise_flatMap]
      refine ⟨?_, ?_, ?_⟩
      · intro l hl
        obtain ⟨c, -, hl⟩ := List.mem_flatMap.mp hl
        obtain ⟨l', -, rfl⟩ := List.mem_map.mp hl
        exact List.nil_lt_cons _ _
      · intro c hc
        have hchild : c.1 ∈ d.children :=
          List.mem_of_getElem? (List.mem_zipIdx_iff_getElem?.mp hc)
        rw [List.pairwise_map]
        exact (ih c.1 hchild).imp fun hlt => List.cons_lt_cons_self.mpr hlt
      · refine (pairwise_snd_zipIdx d.children).imp ?_
        intro a b hlt x hx y hy
        obtain ⟨x', -, rfl⟩ := List.mem_map.mp hx
        obtain ⟨y', -, rfl⟩ := List.mem_map.mp hy
        exact List.cons_lt_cons_iff.mpr (.inl hlt)

theorem nodes_eq_filterMap_at? (d : Doc) : d.nodes = d.locations.filterMap d.at? := by
  induction d using childrenInduction with
  | node d ih =>
      have hroot : d.at? [] = some d := rfl
      have hchild : ∀ c ∈ d.children.zipIdx,
          (c.1.locations.map (c.2 :: ·)).filterMap d.at? = c.1.nodes := by
        intro c hc
        have hget : d.children[c.2]? = some c.1 := List.mem_zipIdx_iff_getElem?.mp hc
        rw [List.filterMap_map, ih c.1 (List.mem_of_getElem? hget)]
        exact List.filterMap_congr fun l _ => at?_cons hget l
      calc d.nodes = d :: d.children.flatMap nodes := nodes_eq_cons_flatMap d
        _ = d :: (d.children.zipIdx.map Prod.fst).flatMap nodes := by rw [List.zipIdx_map_fst]
        _ = d :: d.children.zipIdx.flatMap fun c => c.1.nodes := by rw [List.flatMap_map]
        _ = d :: d.children.zipIdx.flatMap fun c =>
              (c.1.locations.map (c.2 :: ·)).filterMap d.at? := by
            rw [List.flatMap_congr hchild]
        _ = d.locations.filterMap d.at? := by
            rw [locations_eq_cons_flatMap, List.filterMap_cons_some hroot, List.filterMap_flatMap]

theorem mem_nodes_iff {d n : Doc} : n ∈ d.nodes ↔ ∃ l, d.at? l = some n := by
  rw [nodes_eq_filterMap_at?, List.mem_filterMap]
  constructor
  · rintro ⟨l, -, hl⟩
    exact ⟨l, hl⟩
  · rintro ⟨l, hl⟩
    exact ⟨l, (d.mem_locations_iff l).mpr (Option.isSome_of_eq_some hl), hl⟩

theorem mem_nodes_of_child {d c : Doc} {i : Nat} (h : d.children[i]? = some c) : c ∈ d.nodes :=
  mem_nodes_iff.mpr ⟨[i], at?_cons h []⟩

theorem mem_nodes_of_mem_children {c d : Doc} (h : c ∈ d.children) : c ∈ d.nodes := by
  obtain ⟨i, hi⟩ := List.mem_iff_getElem?.mp h
  exact mem_nodes_of_child hi

theorem nodes_subset {d n : Doc} (h : n ∈ d.nodes) : n.nodes ⊆ d.nodes := by
  intro m hm
  obtain ⟨l, hl⟩ := mem_nodes_iff.mp h
  obtain ⟨l', hl'⟩ := mem_nodes_iff.mp hm
  refine mem_nodes_iff.mpr ⟨l ++ l', ?_⟩
  rw [at?_append, hl]
  exact hl'

end PathQuery.Doc
