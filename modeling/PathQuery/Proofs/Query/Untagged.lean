import PathQuery.Proofs.Doc.Untagged
import PathQuery.Proofs.Query.Locate

/-! # Scans do not see tags

A scan selects nothing from a value with a tag and goes on to the value below it.  So it makes no
difference whether the tags of a document are taken off before a path of scans is evaluated or
only from its results (`eval_untag`).  Steps that are no scans do see tags: they select nothing
behind one.

A tag stands in the way of no name and of no position: without tags a pick takes its children from
the same places of a node (`Pick.places_untag`), as these depend on lengths and keys alone. -/

namespace PathQuery

open Doc

/-! ### One node -/

theorem memberPosition?_untag (entries : List (Doc × Doc)) (name : String) :
    memberPosition? (entries.map (Prod.map id untag)) name = memberPosition? entries name := by
  unfold memberPosition?
  rw [List.findIdx?_map, List.findIdx?_map]
  rfl

/-- A pick takes the same places of a node that is no tag. -/
theorem Pick.places_untag (p : Pick) {n : Doc} (h : n.isTagged = false) :
    p.places n.untag = p.places n := by
  cases n with
  | seq items =>
      rw [untag_seq]
      cases p with
      | names ks => rfl
      | _ => rw [Pick.places, Pick.places, List.length_map]
  | map entries =>
      rw [untag_map]
      cases p with
      | names ks =>
          rw [Pick.places, Pick.places, funext (memberPosition?_untag entries)]
      | _ => rfl
  | tagged tag value => cases h
  | _ => rfl

theorem Pick.select_tagged (p : Pick) (tag : String) (value : Doc) :
    p.select (.tagged tag value) = [] := by
  cases p with
  | span s => rfl
  | _ => exact List.flatMap_eq_nil_iff.mpr fun _ _ => rfl

theorem Pick.select_untag (p : Pick) {n : Doc} (h : n.isTagged = false) :
    p.select n.untag = (p.select n).map untag := by
  apply List.map_injective_iff.mpr fun _ _ => Option.some.inj
  calc (p.select n.untag).map some
      = (p.places n).map fun i => n.untag.children[i]? := by
        rw [← map_getElem?_places, p.places_untag h]
    _ = ((p.places n).map fun i => n.children[i]?).map (Option.map untag) := by
        rw [children_untag h, List.map_map]
        exact List.map_congr_left fun i _ => List.getElem?_map
    _ = ((p.select n).map untag).map some := by
        rw [map_getElem?_places, List.map_map, List.map_map]
        rfl

/-! ### Scans and paths -/

theorem flatMap_filter {α β : Type} {p : α → Bool} {f : α → List β} {as : List α}
    (h : ∀ a ∈ as, p a = false → f a = []) : (as.filter p).flatMap f = as.flatMap f := by
  induction as with
  | nil => rfl
  | cons a as ih =>
      obtain ⟨ha, has⟩ := List.forall_mem_cons.mp h
      cases hp : p a with
      | true => rw [List.filter_cons_of_pos hp, List.flatMap_cons, List.flatMap_cons, ih has]
      | false =>
          rw [List.filter_cons_of_neg (Bool.eq_false_iff.mp hp), List.flatMap_cons, ha hp, ih has,
            List.nil_append]

/-- A scan selects the same nodes from the untagged document, untagged. -/
theorem Step.select_untag {s : Step} (h : s.isDeep = true) (d : Doc) :
    s.select d.untag = (s.select d).map untag := by
  cases s with
  | scan p =>
      have hplain : ∀ n ∈ d.nodes.filter fun n => !n.isTagged,
          p.select n.untag = (p.select n).map untag := by
        intro n hn
        have htag : n.isTagged = false := by simpa using (List.mem_filter.mp hn).2
        exact p.select_untag htag
      have htagged : ∀ n ∈ d.nodes, (!n.isTagged) = false → (p.select n).map untag = [] := by
        intro n _ htag
        cases n with
        | tagged tag value => rw [p.select_tagged, List.map_nil]
        | _ => cases htag
      calc d.untag.nodes.flatMap p.select
          = (d.nodes.filter fun n => !n.isTagged).flatMap fun n => p.select n.untag := by
            rw [nodes_untag, List.flatMap_map]
        _ = (d.nodes.filter fun n => !n.isTagged).flatMap fun n => (p.select n).map untag :=
            List.flatMap_congr hplain
        _ = d.nodes.flatMap fun n => (p.select n).map untag := flatMap_filter htagged
        _ = (d.nodes.flatMap p.select).map untag := List.map_flatMap.symm
  | _ => cases h

theorem Step.applyAll_untag {steps : List Step} (h : ∀ s ∈ steps, s.isDeep = true)
    (nodes : List Doc) :
    Step.applyAll steps (nodes.map untag) = (Step.applyAll steps nodes).map untag := by
  induction steps generalizing nodes with
  | nil => rfl
  | cons s steps ih =>
      obtain ⟨hs, hsteps⟩ := List.forall_mem_cons.mp h
      have hstep : (nodes.map untag).flatMap s.select = (nodes.flatMap s.select).map untag := by
        rw [List.flatMap_map, List.map_flatMap]
        exact List.flatMap_congr fun n _ => s.select_untag hs n
      rw [applyAll_cons, applyAll_cons, hstep, ih hsteps]

/-- **Scans do not see tags.**  Where all steps are scans, the results in a document without its
tags are the results in the document without theirs, in the same order and as often.  No value of
the document without its tags has a tag. -/
theorem eval_untag {p : Path} (h : ∀ s ∈ p.steps, s.isDeep = true) (d : Doc) :
    p.eval d.untag = (p.eval d).map untag ∧ ∀ n ∈ d.untag.nodes, n.isTagged = false :=
  ⟨Step.applyAll_untag h [d], fun _ => isTagged_of_mem_nodes_untag⟩

/-- A tag around a tag around a sequence, with a mapping and a key that have tags in it. -/
def taggedShelf : Doc :=
  .tagged "!a" (.tagged "!b" (.seq [.tagged "!c" (.map [(.string "k", .tagged "!d" (.seq [.int 1])),
    (.tagged "!e" (.string "k"), .int 2)])]))

/-- Two scans, of which the second starts at results with tags and without. -/
theorem eval_untag_taggedShelf :
    Path.eval ⟨[.scan (.positions [0]), .scan (.names ["k"])]⟩ taggedShelf =
      [.tagged "!d" (.seq [.int 1])] ∧
    Path.eval ⟨[.scan (.positions [0]), .scan (.names ["k"])]⟩ taggedShelf.untag =
      [.seq [.int 1]] := by
  have hresults : Path.eval ⟨[.scan (.positions [0]), .scan (.names ["k"])]⟩ taggedShelf =
      [.tagged "!d" (.seq [.int 1])] := rfl
  refine ⟨hresults, ?_⟩
  rw [(eval_untag (by decide) taggedShelf).1, hresults]
  rfl

/-- A step that is no scan sees the tag. -/
example : Path.eval ⟨[.index 0]⟩ (.tagged "!t" (.seq [.null])) = [] ∧
    Path.eval ⟨[.index 0]⟩ (untag (.tagged "!t" (.seq [.null]))) = [.null] := ⟨rfl, rfl⟩

end PathQuery
