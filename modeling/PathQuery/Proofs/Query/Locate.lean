import PathQuery.Proofs.Query.Member
import PathQuery.Proofs.Query.Slice

/-! # Where a path finds its results

A path answers nodes, and equal nodes may stand at several places.  `Path.locate` is the evaluation
of a path that answers locations instead: the positions that a step takes from a node
(`Pick.places`), behind the locations at which it looks (`Step.stations`), step after step
(`Doc.descend`).

The nodes at these locations are the results, in their order and as often as they are answered
(`map_at?_locate`). -/

namespace PathQuery

namespace Doc

/-- The position that an index stands for in a sequence of a length. -/
def elementPosition? (length : Nat) (i : Int) : Option Nat :=
  let position := if i < 0 then length + i else i
  if 0 ≤ position ∧ position < length then some position.toNat else none

/-- What is found from the nodes at given locations, as locations in the whole document. -/
def descend (d : Doc) (ls : List (List Nat)) (f : Doc → List (List Nat)) : List (List Nat) :=
  ls.flatMap fun l => (d.at? l).elim [] fun n => (f n).map (l ++ ·)

end Doc

/-- The positions of the children that a pick takes from one node. -/
def Pick.places : Pick → Doc → List Nat
  | .positions is, .seq items => is.filterMap (Doc.elementPosition? items.length)
  | .span s, .seq items =>
    (List.range items.length).filter fun i =>
      decide (s.lower items.length ≤ (i : Int) ∧ (i : Int) < s.upper items.length)
  | .names ks, .map entries => ks.filterMap (Doc.memberPosition? entries)
  | _, _ => []

namespace Step

/-- What a step takes from each node at which it looks. -/
def toPick : Step → Pick
  | .index i => .positions [i]
  | .name k => .names [k]
  | .pick p => p
  | .scan p => p

/-- The locations at which a step looks. -/
def stations (s : Step) (d : Doc) : List (List Nat) := if s.isDeep then d.locations else [[]]

/-- The locations of what a step takes. -/
def locate (s : Step) (d : Doc) : List (List Nat) :=
  d.descend (s.stations d) fun n => (s.toPick.places n).map fun i => [i]

def locateAll : List Step → Doc → List (List Nat)
  | [], _ => [[]]
  | s :: steps, d => d.descend (s.locate d) (locateAll steps)

end Step

/-- The locations of the nodes that a path selects, in order and with repetitions. -/
def Path.locate (p : Path) (d : Doc) : List (List Nat) := Step.locateAll p.steps d

open Doc

/-! ### Places -/

theorem map_filterMap_getElem? {κ : Type} (ks : List κ) {place : κ → Option Nat}
    {found : κ → Option Doc} {cs : List Doc}
    (h : ∀ k, (place k).map (fun i => cs[i]?) = (found k).map some) :
    (ks.filterMap place).map (fun i => cs[i]?) =
      (ks.flatMap fun k => (found k).toList).map some := by
  induction ks with
  | nil => rfl
  | cons k ks ih =>
      have hk := h k
      rw [List.flatMap_cons, List.map_append, ← ih]
      cases hplace : place k with
      | none =>
          rw [hplace] at hk
          rw [List.filterMap_cons_none hplace, Option.map_eq_none_iff.mp hk.symm]
          rfl
      | some i =>
          rw [hplace] at hk
          obtain ⟨c, hfound, hc⟩ := Option.map_eq_some_iff.mp hk.symm
          have hget : cs[i]? = some c := hc.symm
          rw [List.filterMap_cons_some hplace, List.map_cons, hfound, hget]
          rfl

theorem map_elementPosition? (items : List Doc) (i : Int) :
    (elementPosition? items.length i).map (fun j => items[j]?) = (elementAt? items i).map some := by
  unfold elementPosition? elementAt?
  generalize (if i < 0 then (items.length : Int) + i else i) = position
  dsimp only
  by_cases h : 0 ≤ position ∧ position < items.length
  · have hlt : position.toNat < items.length := by omega
    rw [if_pos h, if_pos h.1, List.getElem?_eq_getElem hlt, Option.map_some,
      List.getElem?_eq_getElem hlt, Option.map_some]
  · rw [if_neg h]
    by_cases h0 : 0 ≤ position
    · have hge : items.length ≤ position.toNat := by omega
      rw [if_pos h0, List.getElem?_eq_none hge]
      rfl
    · rw [if_neg h0]
      rfl

theorem map_memberPosition? (entries : List (Doc × Doc)) (name : String) :
    (memberPosition? entries name).map (fun i => (children (.map entries))[i]?) =
      (member? entries name).map some := by
  rw [member?_eq_bind]
  cases hposition : memberPosition? entries name with
  | none => rfl
  | some i =>
      obtain ⟨e, he⟩ : ∃ e, entries[i]? = some e := by
        cases names_of_memberPosition? hposition with
        | text hi => exact ⟨_, hi⟩
        | scalar hi _ _ => exact ⟨_, hi⟩
      rw [Option.map_some, Option.bind_some, getElem?_children_map, he]
      rfl

/-- The elements of a span are those at the positions within its bounds. -/
theorem map_places_span (s : Span) (items : List Doc) :
    ((Pick.span s).places (.seq items)).map (fun i => items[i]?) =
      ((Pick.span s).select (.seq items)).map some := by
  have hrange : List.range items.length = items.zipIdx.map Prod.snd := by
    rw [List.zipIdx_map_snd, List.range_eq_range']
  rw [select_span]
  unfold Pick.places elementsBetween
  dsimp only
  rw [hrange, List.filter_map, List.map_map, List.map_map]
  apply List.map_congr_left
  intro e he
  exact List.mem_zipIdx_iff_getElem?.mp (List.mem_of_mem_filter he)

theorem map_getElem?_places (p : Pick) (d : Doc) :
    (p.places d).map (fun i => d.children[i]?) = (p.select d).map some := by
  cases p with
  | positions is =>
      cases d with
      | seq items => exact map_filterMap_getElem? is (map_elementPosition? items)
      | _ =>
          refine (congrArg (List.map some) (List.flatMap_eq_nil_iff.mpr ?_)).symm
          intro i _
          rfl
  | span s =>
      cases d with
      | seq items => exact map_places_span s items
      | _ => rfl
  | names ks =>
      cases d with
      | map entries => exact map_filterMap_getElem? ks (map_memberPosition? entries)
      | _ =>
          refine (congrArg (List.map some) (List.flatMap_eq_nil_iff.mpr ?_)).symm
          intro k _
          rfl

/-! ### Steps and paths -/

/-- If the nodes at some locations are known, so are the nodes found from there. -/
theorem map_at?_descend {d : Doc} {ls : List (List Nat)} {ns : List Doc}
    {f : Doc → List (List Nat)} {g : Doc → List Doc} (hls : ls.map d.at? = ns.map some)
    (hf : ∀ n, (f n).map n.at? = (g n).map some) :
    (d.descend ls f).map d.at? = (ns.flatMap g).map some := by
  induction ls generalizing ns with
  | nil =>
      cases ns with
      | nil => rfl
      | cons n ns => cases hls
  | cons l ls ih =>
      cases ns with
      | nil => cases hls
      | cons n ns =>
          obtain ⟨hl, hrest⟩ := List.cons.inj hls
          have hhead : ((f n).map (l ++ ·)).map d.at? = (g n).map some := by
            rw [List.map_map, ← hf n]
            apply List.map_congr_left
            intro k _
            show d.at? (l ++ k) = n.at? k
            rw [at?_append, hl]
            rfl
          have htail := ih hrest
          unfold descend at htail ⊢
          rw [List.flatMap_cons, List.flatMap_cons, List.map_append, List.map_append, htail, hl]
          exact congrArg (· ++ _) hhead

theorem isSome_at?_of_map {d : Doc} {ls : List (List Nat)} {ns : List Doc}
    (h : ls.map d.at? = ns.map some) : ∀ l ∈ ls, (d.at? l).isSome := by
  intro l hl
  have hmem : d.at? l ∈ ns.map some := by
    rw [← h]
    exact List.mem_map_of_mem hl
  obtain ⟨n, -, hn⟩ := List.mem_map.mp hmem
  exact Option.isSome_of_eq_some hn.symm

theorem map_at?_locations (d : Doc) : d.locations.map d.at? = d.nodes.map some := by
  have hnode : ∀ l ∈ d.locations, (d.at? l).isSome := fun l hl => (d.mem_locations_iff l).mp hl
  rw [nodes_eq_filterMap_at?]
  generalize d.locations = ls at hnode ⊢
  induction ls with
  | nil => rfl
  | cons l ls ih =>
      obtain ⟨n, hn⟩ := Option.isSome_iff_exists.mp (hnode l List.mem_cons_self)
      rw [List.filterMap_cons_some hn, List.map_cons, List.map_cons, hn]
      exact congrArg _ (ih fun k hk => hnode k (List.mem_cons_of_mem l hk))

theorem Step.map_at?_stations (s : Step) (d : Doc) :
    (s.stations d).map d.at? = (if s.isDeep then d.nodes else [d]).map some := by
  unfold stations
  cases s.isDeep with
  | true => exact map_at?_locations d
  | false => rfl

/-- A step selects what its pick takes from the nodes at which the step looks. -/
theorem Step.select_eq_flatMap (s : Step) (d : Doc) :
    s.select d = (if s.isDeep then d.nodes else [d]).flatMap s.toPick.select := by
  cases s with
  | index i =>
      show d.element i = [d].flatMap fun n => [i].flatMap n.element
      rw [List.flatMap_singleton, List.flatMap_singleton]
  | name k =>
      show d.child k = [d].flatMap fun n => [k].flatMap n.child
      rw [List.flatMap_singleton, List.flatMap_singleton]
  | pick p => exact (List.flatMap_singleton p.select d).symm
  | scan p => rfl

theorem Step.map_at?_locate (s : Step) (d : Doc) :
    (s.locate d).map d.at? = (s.select d).map some := by
  rw [s.select_eq_flatMap]
  refine map_at?_descend (s.map_at?_stations d) ?_
  intro n
  rw [← map_getElem?_places, List.map_map]
  apply List.map_congr_left
  intro i _
  show (n.children[i]?.bind fun c => c.at? []) = n.children[i]?
  cases n.children[i]? <;> rfl

theorem Step.map_at?_locateAll (steps : List Step) (d : Doc) :
    (Step.locateAll steps d).map d.at? = (Step.applyAll steps [d]).map some := by
  induction steps generalizing d with
  | nil => rfl
  | cons s steps ih =>
      rw [applyAll_cons, List.flatMap_singleton, applyAll_eq_flatMap]
      exact map_at?_descend (s.map_at?_locate d) ih

/-- The nodes at the located results are the results. -/
theorem map_at?_locate (p : Path) (d : Doc) : (p.locate d).map d.at? = (p.eval d).map some :=
  Step.map_at?_locateAll p.steps d

end PathQuery
