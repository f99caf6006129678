import Mathlib.Data.List.Induction
import Mathlib.Data.List.Perm.Basic
import PathQuery.Proofs.Doc.Location

/-! # Reordered documents

A document is a reordering of another one if it has the same nodes, but for the order of the entries
of mappings, at any depth and also within keys (`Reordering`).  The relation keeps the map of
locations that goes with it: where an entry stands in the other order, and so where each node below
it is found.

The map takes the node at a location to its counterpart, which is again a reordering, by the rest of
the same map (`Reordering.at?`), and it takes the locations of the one document to those of the
other (`Reordering.locations`). -/

namespace PathQuery.Doc

open scoped List

/-- The map of locations that takes a child at position `i` to position `π i` and goes on with
`τ i`. -/
def carry (π : Nat → Nat) (τ : Nat → List Nat → List Nat) : List Nat → List Nat
  | [] => []
  | i :: l => π i :: τ i l

/-- The second document is the first one with the entries of mappings in another order.  The map
takes the locations of the first one to those of the second one. -/
inductive Reordering : (List Nat → List Nat) → Doc → Doc → Prop
  | leaf {d : Doc} : d.children = [] → Reordering id d d
  | seq {τ : Nat → List Nat → List Nat} {xs ys : List Doc} : xs.length = ys.length →
      (∀ i x y, xs[i]? = some x → ys[i]? = some y → Reordering (τ i) x y) →
      Reordering (carry id τ) (.seq xs) (.seq ys)
  | map {π : Nat → Nat} {κ τ : Nat → List Nat → List Nat} {es fs : List (Doc × Doc)} :
      ((List.range es.length).map π).Perm (List.range fs.length) →
      (∀ i e f, es[i]? = some e → fs[π i]? = some f → Reordering (κ i) e.1 f.1) →
      (∀ i e f, es[i]? = some e → fs[π i]? = some f → Reordering (τ i) e.2 f.2) →
      Reordering (carry π τ) (.map es) (.map fs)
  | tagged {τ : List Nat → List Nat} {tag : String} {v w : Doc} : Reordering τ v w →
      Reordering (carry id fun _ => τ) (.tagged tag v) (.tagged tag w)

theorem carry_id : carry id (fun _ => id) = id := by
  funext l
  cases l <;> rfl

theorem Reordering.refl (d : Doc) : Reordering id d d := by
  induction hsize : sizeOf d using Nat.strongRecOn generalizing d with
  | ind size ih =>
      subst hsize
      cases d with
      | seq items =>
          rw [← carry_id]
          refine .seq rfl ?_
          intro i x y hx hy
          rw [hx] at hy
          cases hy
          exact ih _ (sizeOf_lt_of_mem_children (List.mem_of_getElem? hx)) x rfl
      | map entries =>
          have hsame : ∀ (i : Nat) (e f : Doc × Doc), entries[i]? = some e →
              entries[id i]? = some f → Reordering id e.1 f.1 ∧ Reordering id e.2 f.2 := by
            intro i e f he hf
            rw [id, he] at hf
            cases hf
            obtain ⟨hkey, hvalue⟩ := sizeOf_lt_of_mem_entries (List.mem_of_getElem? he)
            exact ⟨ih _ hkey e.1 rfl, ih _ hvalue e.2 rfl⟩
          rw [← carry_id]
          exact .map (.of_eq (List.map_id _)) (fun i e f he hf => (hsame i e f he hf).1)
            (fun i e f he hf => (hsame i e f he hf).2)
      | tagged tag value =>
          rw [← carry_id]
          exact .tagged (ih _ (sizeOf_lt_of_mem_children List.mem_cons_self) value rfl)
      | _ => exact .leaf rfl

/-! ### Positions in another order -/

section positions
variable {π : Nat → Nat} {m n : Nat} (h : ((List.range m).map π).Perm (List.range n))
include h

theorem lt_of_positions {i : Nat} (hi : i < m) : π i < n :=
  List.mem_range.mp (h.mem_iff.mp (List.mem_map_of_mem (List.mem_range.mpr hi)))

theorem exists_of_positions {j : Nat} (hj : j < n) : ∃ i, i < m ∧ π i = j := by
  obtain ⟨i, hi, hij⟩ := List.mem_map.mp (h.mem_iff.mpr (List.mem_range.mpr hj))
  exact ⟨i, List.mem_range.mp hi, hij⟩

end positions

/-! ### Nodes of a reordering -/

/-- The children of a reordering are the reordered children, in another order. -/
theorem Reordering.children {σ : List Nat → List Nat} {d d' : Doc} (h : Reordering σ d d') :
    ∃ (π : Nat → Nat) (τ : Nat → List Nat → List Nat), σ = carry π τ ∧
      ((List.range d.children.length).map π).Perm (List.range d'.children.length) ∧
      ∀ i c, d.children[i]? = some c →
        ∃ c', d'.children[π i]? = some c' ∧ Reordering (τ i) c c' := by
  cases h with
  | leaf hd =>
      refine ⟨id, fun _ => id, carry_id.symm, ?_, ?_⟩
      · rw [List.map_id]
      · intro i c hc
        rw [hd] at hc
        cases hc
  | @seq τ xs ys hlen hitems =>
      refine ⟨id, τ, rfl, ?_, ?_⟩
      · show ((List.range xs.length).map id).Perm (List.range ys.length)
        rw [List.map_id, hlen]
      · intro i x hx
        have hi : i < ys.length := by
          rw [← hlen]
          exact (List.getElem?_eq_some_iff.mp hx).1
        exact ⟨ys[i], List.getElem?_eq_getElem hi,
          hitems i x ys[i] hx (List.getElem?_eq_getElem hi)⟩
  | @map π κ τ es fs hπ _ hvalues =>
      refine ⟨π, τ, rfl, ?_, ?_⟩
      · show ((List.range (es.map Prod.snd).length).map π).Perm
          (List.range (fs.map Prod.snd).length)
        rw [List.length_map, List.length_map]
        exact hπ
      · intro i v hv
        rw [getElem?_children_map] at hv
        obtain ⟨e, he, rfl⟩ := Option.map_eq_some_iff.mp hv
        have hi : π i < fs.length := lt_of_positions hπ (List.getElem?_eq_some_iff.mp he).1
        have hf : fs[π i]? = some fs[π i] := List.getElem?_eq_getElem hi
        refine ⟨fs[π i].2, ?_, hvalues i e _ he hf⟩
        rw [getElem?_children_map, hf, Option.map_some]
  | @tagged τ tag v w hvalue =>
      refine ⟨id, fun _ => τ, rfl, ?_, ?_⟩
      · exact List.Perm.refl [0]
      · intro i c hc
        cases i with
        | zero =>
            cases hc
            exact ⟨w, rfl, hvalue⟩
        | succ i => cases hc

theorem Reordering.nil {σ : List Nat → List Nat} {d d' : Doc} (h : Reordering σ d d') :
    σ [] = [] := by
  obtain ⟨π, τ, rfl, -, -⟩ := h.children
  rfl

/-- The counterpart of a node is a reordering of it, by the rest of the map. -/
theorem Reordering.at? {σ : List Nat → List Nat} {d d' n : Doc} {l : List Nat}
    (h : Reordering σ d d') (hl : d.at? l = some n) :
    ∃ n' τ, d'.at? (σ l) = some n' ∧ Reordering τ n n' ∧ ∀ k, σ (l ++ k) = σ l ++ τ k := by
  induction l generalizing σ d d' with
  | nil =>
      cases hl
      refine ⟨d', σ, ?_, h, ?_⟩
      · rw [h.nil]
        rfl
      · intro k
        rw [h.nil]
        rfl
  | cons i l ih =>
      obtain ⟨c, hc, hn⟩ := Option.bind_eq_some_iff.mp hl
      obtain ⟨π, τ, rfl, -, hchildren⟩ := h.children
      obtain ⟨c', hc', hcc⟩ := hchildren i c hc
      obtain ⟨n', τ', hn', hnn, hτ⟩ := ih hcc hn
      refine ⟨n', τ', ?_, hnn, ?_⟩
      · show d'.at? (π i :: τ i l) = some n'
        rw [at?_cons hc']
        exact hn'
      · intro k
        show π i :: τ i (l ++ k) = π i :: τ i l ++ τ' k
        rw [hτ k]
        rfl

/-! ### Locations of a reordering -/

/-- The locations in the child at a position. -/
def locationsBelow (d : Doc) (i : Nat) : List (List Nat) :=
  d.children[i]?.elim [] fun c => c.locations.map (i :: ·)

theorem locationsBelow_of_getElem? {d c : Doc} {i : Nat} (h : d.children[i]? = some c) :
    d.locationsBelow i = c.locations.map (i :: ·) := by
  unfold locationsBelow
  rw [h]
  rfl

theorem flatMap_zipIdx {α β : Type} (as : List α) (f : α × Nat → List β) :
    as.zipIdx.flatMap f =
      (List.range as.length).flatMap fun i => as[i]?.elim [] fun a => f (a, i) := by
  induction as using List.reverseRecOn with
  | nil => rfl
  | append_singleton as a ih =>
      have hfront : ∀ i ∈ List.range as.length,
          ((as ++ [a])[i]?.elim [] fun a => f (a, i)) = as[i]?.elim [] fun a => f (a, i) := by
        intro i hi
        rw [List.getElem?_append_left (List.mem_range.mp hi)]
      rw [List.zipIdx_append, List.flatMap_append, ih, List.length_append, List.length_singleton,
        List.range_succ, List.flatMap_append, List.flatMap_congr hfront]
      simp

theorem locations_eq_cons_flatMap_range (d : Doc) :
    d.locations = [] :: (List.range d.children.length).flatMap d.locationsBelow := by
  rw [locations_eq_cons_flatMap, flatMap_zipIdx]
  rfl

/-- The locations of a reordering are the images of the locations, in another order. -/
theorem Reordering.locations {σ : List Nat → List Nat} {d d' : Doc} (h : Reordering σ d d') :
    d'.locations.Perm (d.locations.map σ) := by
  induction d using childrenInduction generalizing σ d' with
  | node d ih =>
      obtain ⟨π, τ, rfl, hπ, hchildren⟩ := h.children
      have hbelow : ∀ i ∈ List.range d.children.length,
          (d'.locationsBelow (π i)).Perm ((d.locationsBelow i).map (carry π τ)) := by
        intro i hi
        have hc := List.getElem?_eq_getElem (List.mem_range.mp hi)
        obtain ⟨c', hc', hcc⟩ := hchildren i _ hc
        rw [locationsBelow_of_getElem? hc, locationsBelow_of_getElem? hc', List.map_map]
        have himage := (ih _ (List.mem_of_getElem? hc) hcc).map (π i :: ·)
        rw [List.map_map] at himage
        exact himage
      rw [locations_eq_cons_flatMap_range d, locations_eq_cons_flatMap_range d', List.map_cons,
        List.map_flatMap]
      refine List.Perm.cons [] ?_
      calc (List.range d'.children.length).flatMap d'.locationsBelow
        _ ~ ((List.range d.children.length).map π).flatMap d'.locationsBelow :=
            hπ.symm.flatMap_right _
        _ = (List.range d.children.length).flatMap fun i => d'.locationsBelow (π i) :=
            List.flatMap_map ..
        _ ~ (List.range d.children.length).flatMap fun i =>
              (d.locationsBelow i).map (carry π τ) :=
            List.Perm.flatMap_left _ hbelow

/-! ### Keys of a reordering -/

theorem Reordering.eq_string_iff {σ : List Nat → List Nat} {k k' : Doc} (h : Reordering σ k k')
    (s : String) : k = .string s ↔ k' = .string s := by
  cases h with
  | leaf _ => rfl
  | seq _ _ => exact iff_of_false (fun e => nomatch e) (fun e => nomatch e)
  | map _ _ _ => exact iff_of_false (fun e => nomatch e) (fun e => nomatch e)
  | tagged _ => exact iff_of_false (fun e => nomatch e) (fun e => nomatch e)

theorem Reordering.numberText? {σ : List Nat → List Nat} {k k' : Doc} (h : Reordering σ k k') :
    k'.numberText? = k.numberText? := by
  cases h <;> rfl

end PathQuery.Doc
