import Mathlib.Data.List.Nodup
import PathQuery.Proofs.Query.Locate

/-! # Paths that find no node twice

A path can find one node several times: a step may name a child twice, by a repeated key or by
positions that count from both ends, and a second scan goes again through what the first one has
found inside other finds.  Nothing else repeats a node (`exists_nodup_locations`).

Up to the first scan all locations have the same length, so that none lies inside another; behind
it every find grows by the same number of positions.  In both cases one location cannot be reached
from two different ones (`nodup_descend`). -/

namespace PathQuery

open Doc

/-- A pick names no child twice: no key is repeated, and no position, and all positions count from
the same end. -/
def Pick.NamesOnce : Pick → Prop
  | .positions is => is.Nodup ∧ ((∀ i ∈ is, 0 ≤ i) ∨ ∀ i ∈ is, i < 0)
  | .span _ => True
  | .names ks => ks.Nodup

/-- A step names no child of a node twice. -/
def Step.NamesOnce : Step → Prop
  | .index _ => True
  | .name _ => True
  | .pick p => p.NamesOnce
  | .scan p => p.NamesOnce

theorem Step.NamesOnce.toPick {s : Step} (h : s.NamesOnce) : s.toPick.NamesOnce := by
  cases s with
  | index i =>
      refine ⟨List.nodup_singleton i, ?_⟩
      simp only [List.mem_singleton, forall_eq]
      omega
  | name k => exact List.nodup_singleton k
  | pick p => exact h
  | scan p => exact h

/-! ### One node -/

/-- Positions that count from the same end are different places. -/
theorem eq_of_elementPosition? {length : Nat} {i j : Int} {k : Nat} (hsign : 0 ≤ i ↔ 0 ≤ j)
    (hi : elementPosition? length i = some k) (hj : elementPosition? length j = some k) :
    i = j := by
  have hplace : ∀ n : Int, elementPosition? length n = some k →
      (if n < 0 then (length : Int) + n else n) = k := by
    intro n hn
    unfold elementPosition? at hn
    generalize (if n < 0 then (length : Int) + n else n) = place at hn ⊢
    obtain ⟨⟨hnonneg, -⟩, hk⟩ := Option.ite_none_right_eq_some.mp hn
    cases hk
    exact (Int.toNat_of_nonneg hnonneg).symm
  have hi := hplace i hi
  have hj := hplace j hj
  split at hi <;> split at hj <;> omega

theorem Doc.Names.name_unique {entries : List (Doc × Doc)} {a b : String} {i : Nat}
    (ha : Names entries a i) (hb : Names entries b i) : a = b := by
  cases ha with
  | text hi =>
      cases hb with
      | text hj =>
          rw [hi] at hj
          cases hj
          rfl
      | scalar hj ht _ =>
          rw [hi] at hj
          cases hj
          cases ht
  | scalar hi ht _ =>
      cases hb with
      | text hj =>
          rw [hi] at hj
          cases hj
          cases ht
      | scalar hj ht' _ =>
          rw [hi] at hj
          cases hj
          rw [ht] at ht'
          cases ht'
          rfl

theorem Pick.NamesOnce.nodup_places {p : Pick} (h : p.NamesOnce) (d : Doc) :
    (p.places d).Nodup := by
  cases p with
  | positions is =>
      cases d with
      | seq items =>
          obtain ⟨hnodup, hsign⟩ := h
          have hsame : ∀ i ∈ is, ∀ j ∈ is, (0 ≤ i ↔ 0 ≤ j) := by
            intro i hi j hj
            rcases hsign with hsign | hsign
            · exact iff_of_true (hsign i hi) (hsign j hj)
            · exact iff_of_false (Int.not_le.mpr (hsign i hi)) (Int.not_le.mpr (hsign j hj))
          refine List.pairwise_filterMap.mpr (List.Pairwise.imp_of_mem ?_ hnodup)
          intro i j hi hj hne k hk k' hk' heq
          subst heq
          exact hne (eq_of_elementPosition? (hsame i hi j hj) hk hk')
      | _ => exact List.nodup_nil
  | span s =>
      cases d with
      | seq items => exact List.nodup_range.filter _
      | _ => exact List.nodup_nil
  | names ks =>
      cases d with
      | map entries =>
          refine List.Nodup.filterMap ?_ h
          intro a b i ha hb
          exact (names_of_memberPosition? ha).name_unique (names_of_memberPosition? hb)
      | _ => exact List.nodup_nil

/-! ### Going on -/

theorem exists_of_mem_elim {d : Doc} {l x : List Nat} {f : Doc → List (List Nat)}
    (h : x ∈ (d.at? l).elim [] fun n => (f n).map (l ++ ·)) : ∃ n, ∃ k ∈ f n, l ++ k = x := by
  cases hn : d.at? l with
  | none =>
      rw [hn] at h
      cases h
  | some n =>
      rw [hn] at h
      exact ⟨n, List.mem_map.mp h⟩

/-- If what is found from different locations never coincides, nothing is found twice. -/
theorem nodup_descend {d : Doc} {ls : List (List Nat)} {f : Doc → List (List Nat)}
    (hls : ls.Nodup) (hf : ∀ n, (f n).Nodup)
    (hapart : ∀ l ∈ ls, ∀ l' ∈ ls, ∀ n n', ∀ k ∈ f n, ∀ k' ∈ f n', l ++ k = l' ++ k' → l = l') :
    (d.descend ls f).Nodup := by
  refine List.nodup_flatMap.mpr ⟨?_, List.Pairwise.imp_of_mem ?_ hls⟩
  · intro l _
    cases d.at? l with
    | none => exact List.nodup_nil
    | some n => exact (hf n).map (List.append_right_injective l)
  · intro l l' hl hl' hne x hx hx'
    obtain ⟨n, k, hk, rfl⟩ := exists_of_mem_elim hx
    obtain ⟨n', k', hk', heq⟩ := exists_of_mem_elim hx'
    exact hne (hapart l hl l' hl' n n' k hk k' hk' heq.symm)

theorem exists_of_mem_descend {d : Doc} {ls : List (List Nat)} {f : Doc → List (List Nat)}
    {x : List Nat} (h : x ∈ d.descend ls f) : ∃ l ∈ ls, ∃ n, ∃ k ∈ f n, l ++ k = x := by
  obtain ⟨l, hl, hx⟩ := List.mem_flatMap.mp h
  exact ⟨l, hl, exists_of_mem_elim hx⟩

namespace Step

theorem nodup_stations (s : Step) (d : Doc) : (s.stations d).Nodup := by
  unfold stations
  cases s.isDeep with
  | true =>
      refine d.pairwise_locations.imp ?_
      rintro l _ hlt rfl
      exact List.lt_irrefl l hlt
  | false => exact List.nodup_singleton []

theorem NamesOnce.nodup_locate {s : Step} (h : s.NamesOnce) (d : Doc) : (s.locate d).Nodup := by
  refine nodup_descend (s.nodup_stations d) ?_ ?_
  · intro n
    exact (h.toPick.nodup_places n).map fun i j heq => (List.cons.inj heq).1
  · intro l _ l' _ n n' k hk k' hk' heq
    obtain ⟨i, -, rfl⟩ := List.mem_map.mp hk
    obtain ⟨i', -, rfl⟩ := List.mem_map.mp hk'
    exact (List.append_inj' heq rfl).1

theorem length_of_mem_locate {s : Step} (h : s.isDeep = false) {d : Doc} {l : List Nat}
    (hl : l ∈ s.locate d) : l.length = 1 := by
  obtain ⟨l', hl', n, k, hk, rfl⟩ := exists_of_mem_descend hl
  rw [stations, h] at hl'
  obtain ⟨i, -, rfl⟩ := List.mem_map.mp hk
  cases List.mem_singleton.mp hl'
  rfl

/-- Steps without a scan find all nodes at one depth. -/
theorem length_of_mem_locateAll {steps : List Step} (h : ∀ s ∈ steps, s.isDeep = false) {d : Doc}
    {l : List Nat} (hl : l ∈ locateAll steps d) : l.length = steps.length := by
  induction steps generalizing d l with
  | nil => exact congrArg List.length (List.mem_singleton.mp hl)
  | cons s steps ih =>
      obtain ⟨hs, hsteps⟩ := List.forall_mem_cons.mp h
      obtain ⟨l', hl', n, k, hk, rfl⟩ := exists_of_mem_descend hl
      rw [List.length_append, length_of_mem_locate hs hl', ih hsteps hk, List.length_cons,
        Nat.add_comm]

/-- Steps with at most one scan that name nothing twice find nothing twice. -/
theorem nodup_locateAll {steps : List Step} (hscans : steps.countP isDeep ≤ 1)
    (honce : ∀ s ∈ steps, s.NamesOnce) (d : Doc) : (locateAll steps d).Nodup := by
  induction steps generalizing d with
  | nil => exact List.nodup_singleton []
  | cons s steps ih =>
      obtain ⟨hs, hsteps⟩ := List.forall_mem_cons.mp honce
      have hrest : steps.countP isDeep ≤ 1 := by
        rw [List.countP_cons] at hscans
        omega
      refine nodup_descend (hs.nodup_locate d) (ih hrest hsteps) ?_
      intro l hl l' hl' n n' k hk k' hk' heq
      cases hdeep : s.isDeep with
      | false =>
          have hlength : l.length = l'.length := by
            rw [length_of_mem_locate hdeep hl, length_of_mem_locate hdeep hl']
          exact (List.append_inj heq hlength).1
      | true =>
          -- The one scan is this step, and the steps behind it all go down alike.
          have hno : ∀ t ∈ steps, t.isDeep = false := by
            rw [List.countP_cons_of_pos hdeep] at hscans
            have hzero : steps.countP isDeep = 0 := by omega
            intro t ht
            exact Bool.eq_false_iff.mpr (List.countP_eq_zero.mp hzero t ht)
          have hlength : k.length = k'.length := by
            rw [length_of_mem_locateAll hno hk, length_of_mem_locateAll hno hk']
          exact (List.append_inj' heq hlength).1

end Step

/-- **No node twice.**  If a path has at most one scan and its steps name no child twice, its
results are the nodes at different locations of the document. -/
theorem exists_nodup_locations {p : Path} (hscans : p.steps.countP Step.isDeep ≤ 1)
    (honce : ∀ s ∈ p.steps, s.NamesOnce) (d : Doc) :
    ∃ ls : List (List Nat), ls.Nodup ∧ (∀ l ∈ ls, l ∈ d.locations) ∧
      ls.map d.at? = (p.eval d).map some := by
  have hnodes := map_at?_locate p d
  refine ⟨p.locate d, Step.nodup_locateAll hscans honce d, ?_, hnodes⟩
  intro l hl
  exact (d.mem_locations_iff l).mpr (isSome_at?_of_map hnodes l hl)

/-- Nested mappings in which equal nodes stand at different places. -/
def nestedItems : Doc :=
  .map [(.string "a", .map [(.int 1, .seq [.null, .null]), (.string "a", .seq [.null, .null])])]

/-- A scan for two names, one of them a number, and two items from the end: four equal results at
four places. -/
theorem exists_nodup_locations_nestedItems :
    Path.eval ⟨[.scan (.names ["a", "1"]), .pick (.positions [-1, -2])]⟩ nestedItems =
      [.null, .null, .null, .null] ∧
    ∃ ls : List (List Nat), ls.Nodup ∧ (∀ l ∈ ls, l ∈ nestedItems.locations) ∧
      ls.map nestedItems.at? = [some .null, some .null, some .null, some .null] := by
  have honce : ∀ s ∈ [Step.scan (.names ["a", "1"]), .pick (.positions [-1, -2])],
      s.NamesOnce := by
    simp [Step.NamesOnce, Pick.NamesOnce]
  have heval : Path.eval ⟨[.scan (.names ["a", "1"]), .pick (.positions [-1, -2])]⟩ nestedItems =
      [.null, .null, .null, .null] := rfl
  obtain ⟨ls, hnodup, hmem, hnodes⟩ := exists_nodup_locations
    (p := ⟨[.scan (.names ["a", "1"]), .pick (.positions [-1, -2])]⟩) (by decide) honce nestedItems
  rw [heval] at hnodes
  exact ⟨heval, ls, hnodup, hmem, hnodes⟩

/-- A second scan finds the innermost node again. -/
example : ¬ (Path.locate ⟨[.scan (.names ["a"]), .scan (.names ["a"])]⟩
    (.map [(.string "a", .map [(.string "a", .map [(.string "a", .null)])])])).Nodup := by
  decide

end PathQuery
