import PathQuery.Proofs.Doc.Reordering
import PathQuery.Proofs.Query.Locate

/-! # Evaluation of reordered documents

The order of the entries of mappings has no part in what a path finds: on a reordered document it
finds the same nodes, at the locations to which the reordering takes them (`locate_reordered`).
Only a scan visits the nodes in the order of the document, so that the results may come in another
order; paths without scans keep it.

The steps agree because the picks do (`Reordering.places`), and these because a name finds the
entry that it names wherever it stands (`memberPosition?_of_positions`).  Lists are compared by
`UpToOrder`, which is equality as long as nothing was scanned. -/

namespace PathQuery

/-- Two lists agree up to the order of their elements, and also in the order if nothing was
scanned. -/
structure UpToOrder {α : Type} (scanned : Bool) (as bs : List α) : Prop where
  perm : as.Perm bs
  eq : scanned = false → as = bs

namespace UpToOrder

variable {α β : Type} {scanned : Bool}

theorem of_eq {as bs : List α} (h : as = bs) : UpToOrder scanned as bs :=
  ⟨.of_eq h, fun _ => h⟩

theorem trans {as bs cs : List α} (h : UpToOrder scanned as bs) (h' : UpToOrder scanned bs cs) :
    UpToOrder scanned as cs :=
  ⟨h.perm.trans h'.perm, fun hno => (h.eq hno).trans (h'.eq hno)⟩

theorem or_right {as bs : List α} (h : UpToOrder scanned as bs) (scanned' : Bool) :
    UpToOrder (scanned || scanned') as bs :=
  ⟨h.perm, fun hno => h.eq (Bool.or_eq_false_iff.mp hno).1⟩

theorem or_left {as bs : List α} (h : UpToOrder scanned as bs) (scanned' : Bool) :
    UpToOrder (scanned' || scanned) as bs :=
  ⟨h.perm, fun hno => h.eq (Bool.or_eq_false_iff.mp hno).2⟩

theorem map {as bs : List α} (h : UpToOrder scanned as bs) (f : α → β) :
    UpToOrder scanned (as.map f) (bs.map f) :=
  ⟨h.perm.map f, fun hno => congrArg _ (h.eq hno)⟩

theorem flatMap {as bs : List α} {f g : α → List β} (h : UpToOrder scanned as bs)
    (hfg : ∀ a ∈ as, UpToOrder scanned (f a) (g a)) :
    UpToOrder scanned (as.flatMap f) (bs.flatMap g) := by
  constructor
  · exact h.perm.flatMap fun a ha => (hfg a ha).perm
  · intro hno
    rw [← h.eq hno]
    exact List.flatMap_congr fun a ha => (hfg a ha).eq hno

end UpToOrder

namespace Doc

/-! ### Names -/

section entries
variable {π : Nat → Nat} {κ : Nat → List Nat → List Nat} {es fs : List (Doc × Doc)}
  (hπ : ((List.range es.length).map π).Perm (List.range fs.length))
  (hkeys : ∀ i e f, es[i]? = some e → fs[π i]? = some f → Reordering (κ i) e.1 f.1)
include hπ hkeys

theorem exists_entry_of_positions {i : Nat} {e : Doc × Doc} (he : es[i]? = some e) :
    ∃ f, fs[π i]? = some f ∧ Reordering (κ i) e.1 f.1 := by
  have hf : fs[π i]? = some _ :=
    List.getElem?_eq_getElem (lt_of_positions hπ (List.getElem?_eq_some_iff.mp he).1)
  exact ⟨_, hf, hkeys i e _ he hf⟩

theorem exists_entry_at_positions {j : Nat} {f : Doc × Doc} (hf : fs[j]? = some f) :
    ∃ i e, π i = j ∧ es[i]? = some e ∧ Reordering (κ i) e.1 f.1 := by
  obtain ⟨i, hi, rfl⟩ := exists_of_positions hπ (List.getElem?_eq_some_iff.mp hf).1
  have he : es[i]? = some _ := List.getElem?_eq_getElem hi
  exact ⟨i, _, rfl, he, hkeys i _ f he hf⟩

theorem forall_ne_string_iff (name : String) :
    (∀ e ∈ es, e.1 ≠ .string name) ↔ ∀ f ∈ fs, f.1 ≠ .string name := by
  constructor
  · intro hno f hf hname
    obtain ⟨j, hj⟩ := List.mem_iff_getElem?.mp hf
    obtain ⟨i, e, -, he, hkey⟩ := exists_entry_at_positions hπ hkeys hj
    exact hno e (List.mem_of_getElem? he) ((hkey.eq_string_iff name).mpr hname)
  · intro hno e he hname
    obtain ⟨i, hi⟩ := List.mem_iff_getElem?.mp he
    obtain ⟨f, hf, hkey⟩ := exists_entry_of_positions hπ hkeys hi
    exact hno f (List.mem_of_getElem? hf) ((hkey.eq_string_iff name).mp hname)

theorem Names.of_positions {name : String} {i : Nat} (h : Names es name i) :
    Names fs name (π i) := by
  cases h with
  | text hi =>
      obtain ⟨⟨k, v⟩, hf, hkey⟩ := exists_entry_of_positions hπ hkeys hi
      cases (hkey.eq_string_iff name).mp rfl
      exact .text hf
  | scalar hi ht hno =>
      obtain ⟨⟨k, v⟩, hf, hkey⟩ := exists_entry_of_positions hπ hkeys hi
      exact .scalar hf (hkey.numberText?.trans ht)
        ((forall_ne_string_iff hπ hkeys name).mp hno)

theorem Names.exists_of_positions {name : String} {j : Nat} (h : Names fs name j) :
    ∃ i, π i = j ∧ Names es name i := by
  cases h with
  | text hj =>
      obtain ⟨i, ⟨k, v⟩, hij, he, hkey⟩ := exists_entry_at_positions hπ hkeys hj
      cases (hkey.eq_string_iff name).mpr rfl
      exact ⟨i, hij, .text he⟩
  | scalar hj ht hno =>
      obtain ⟨i, ⟨k, v⟩, hij, he, hkey⟩ := exists_entry_at_positions hπ hkeys hj
      exact ⟨i, hij, .scalar he (hkey.numberText?.symm.trans ht)
        ((forall_ne_string_iff hπ hkeys name).mpr hno)⟩

/-- Where a name has one entry, it is found at its other position. -/
theorem memberPosition?_of_positions {name : String}
    (unique : ∀ i j, Names es name i → Names es name j → i = j) :
    memberPosition? fs name = (memberPosition? es name).map π := by
  cases hfs : memberPosition? fs name with
  | some j =>
      obtain ⟨i, rfl, hi⟩ :=
        Names.exists_of_positions hπ hkeys (names_of_memberPosition? hfs)
      rw [(memberPosition?_eq_some_iff unique i).mpr hi]
      rfl
  | none =>
      cases hes : memberPosition? es name with
      | none => rfl
      | some i =>
          have hnames := Names.of_positions hπ hkeys (names_of_memberPosition? hes)
          obtain ⟨j, hj⟩ := hnames.exists_memberPosition?
          rw [hfs] at hj
          cases hj

end entries

/-! ### Places -/

theorem lt_of_mem_places {p : Pick} {d : Doc} {i : Nat} (h : i ∈ p.places d) :
    i < d.children.length := by
  have hmem : d.children[i]? ∈ (p.select d).map some := by
    rw [← map_getElem?_places]
    exact List.mem_map_of_mem h
  obtain ⟨c, -, hc⟩ := List.mem_map.mp hmem
  exact (List.getElem?_eq_some_iff.mp hc.symm).1

theorem Reordering.carry_singleton {π : Nat → Nat} {τ : Nat → List Nat → List Nat} {d d' : Doc}
    (h : Reordering (carry π τ) d d') {i : Nat} (hi : i < d.children.length) :
    carry π τ [i] = [π i] := by
  obtain ⟨π', τ', hcarry, -, hchildren⟩ := h.children
  obtain ⟨c', -, hc⟩ := hchildren i _ (List.getElem?_eq_getElem hi)
  obtain ⟨hπ, hτ⟩ := List.cons.inj (congrFun hcarry [i])
  show π i :: τ i [] = [π i]
  rw [hτ, hc.nil]

theorem Reordering.map_places {π : Nat → Nat} {τ : Nat → List Nat → List Nat} {d d' : Doc}
    (h : Reordering (carry π τ) d d') {p : Pick} (hplaces : p.places d' = (p.places d).map π) :
    (p.places d').map (fun i => [i]) = (p.places d).map fun i => carry π τ [i] := by
  rw [hplaces, List.map_map]
  exact List.map_congr_left fun i hi => (h.carry_singleton (lt_of_mem_places hi)).symm

/-- A pick takes the counterparts of the same children. -/
theorem Reordering.places {σ : List Nat → List Nat} {d d' : Doc} (h : Reordering σ d d')
    (hkeys : d.DistinctKeys) (hnumerals : d.DistinctNumerals) (p : Pick) :
    (p.places d').map (fun i => [i]) = (p.places d).map fun i => σ [i] := by
  cases h with
  | leaf _ => rfl
  | @seq τ xs ys hlen hitems =>
      refine map_places (.seq hlen hitems) ?_
      rw [List.map_id]
      cases p with
      | positions is => rw [Pick.places, Pick.places, hlen]
      | span s => rw [Pick.places, Pick.places, hlen]
      | names ks => rfl
  | @map π κ τ es fs hπ hentries hvalues =>
      refine map_places (.map hπ hentries hvalues) ?_
      cases p with
      | positions is => rfl
      | span s => rfl
      | names ks =>
          rw [Pick.places, Pick.places, List.map_filterMap]
          refine List.filterMap_congr ?_
          intro k _
          exact memberPosition?_of_positions hπ hentries fun _ _ => Names.unique hkeys hnumerals
  | @tagged τ tag v w hvalue =>
      refine map_places (.tagged hvalue) ?_
      cases p <;> rfl

/-! ### Steps -/

theorem Reordering.descend {σ : List Nat → List Nat} {d d' : Doc} (h : Reordering σ d d')
    {scanned : Bool} {ls ls' : List (List Nat)} {f : Doc → List (List Nat)}
    (hls : UpToOrder scanned ls' (ls.map σ)) (hnodes : ∀ l ∈ ls, (d.at? l).isSome)
    (hf : ∀ n n' τ, n ∈ d.nodes → Reordering τ n n' → UpToOrder scanned (f n') ((f n).map τ)) :
    UpToOrder scanned (d'.descend ls' f) ((d.descend ls f).map σ) := by
  have himages : UpToOrder scanned (d'.descend ls' f) (d'.descend (ls.map σ) f) :=
    hls.flatMap fun l _ => .of_eq rfl
  refine himages.trans ?_
  unfold Doc.descend
  rw [List.flatMap_map, List.map_flatMap]
  refine UpToOrder.flatMap (.of_eq rfl) ?_
  intro l hl
  obtain ⟨n, hn⟩ := Option.isSome_iff_exists.mp (hnodes l hl)
  obtain ⟨n', τ, hn', hτ, hσ⟩ := h.at? hn
  have hbehind : ((f n).map (l ++ ·)).map σ = ((f n).map τ).map (σ l ++ ·) := by
    rw [List.map_map, List.map_map]
    exact List.map_congr_left fun k _ => hσ k
  rw [hn, hn', Option.elim_some, Option.elim_some, hbehind]
  exact (hf n n' τ (mem_nodes_iff.mpr ⟨l, hn⟩) hτ).map _

theorem Reordering.stations {σ : List Nat → List Nat} {d d' : Doc} (h : Reordering σ d d')
    (s : Step) : UpToOrder s.isDeep (s.stations d') ((s.stations d).map σ) := by
  unfold Step.stations
  cases s.isDeep with
  | true => exact ⟨h.locations, fun hno => nomatch hno⟩
  | false => exact .of_eq (congrArg (· :: []) h.nil.symm)

theorem Reordering.locate {σ : List Nat → List Nat} {d d' : Doc} (h : Reordering σ d d')
    (hkeys : d.DistinctKeys) (hnumerals : d.DistinctNumerals) (s : Step) :
    UpToOrder s.isDeep (s.locate d') ((s.locate d).map σ) := by
  refine h.descend (h.stations s) (isSome_at?_of_map (s.map_at?_stations d)) ?_
  intro n n' τ hn hτ
  refine .of_eq ?_
  rw [List.map_map]
  exact hτ.places (hkeys.of_mem_nodes hn) (hnumerals.of_mem_nodes hn) s.toPick

theorem Reordering.locateAll {σ : List Nat → List Nat} {d d' : Doc} (h : Reordering σ d d')
    (hkeys : d.DistinctKeys) (hnumerals : d.DistinctNumerals) (steps : List Step) :
    UpToOrder (steps.any Step.isDeep) (Step.locateAll steps d')
      ((Step.locateAll steps d).map σ) := by
  induction steps generalizing σ d d' with
  | nil => exact .of_eq (congrArg (· :: []) h.nil.symm)
  | cons s steps ih =>
      have hfirst := (h.locate hkeys hnumerals s).or_right (steps.any Step.isDeep)
      refine h.descend hfirst (isSome_at?_of_map (s.map_at?_locate d)) ?_
      intro n n' τ hn hτ
      exact (ih hτ (hkeys.of_mem_nodes hn) (hnumerals.of_mem_nodes hn)).or_left s.isDeep

/-! ### Paths -/

/-- **Reordered documents.**  Let the keys of a document differ, and different numbers be written
differently.  What a path selects from a reordering of this document stands at the images of the
locations of what it selects from the document, in another order at most, and in the same order if
the path has no scan; and the node at the image of a location is a reordering of the node there. -/
theorem locate_reordered {σ : List Nat → List Nat} {d d' : Doc} (h : Reordering σ d d')
    (hkeys : d.DistinctKeys) (hnumerals : d.DistinctNumerals) (p : Path) :
    (p.locate d).map d.at? = (p.eval d).map some ∧
    (p.locate d').map d'.at? = (p.eval d').map some ∧
    (p.locate d').Perm ((p.locate d).map σ) ∧
    ((∀ s ∈ p.steps, s.isDeep = false) → p.locate d' = (p.locate d).map σ) ∧
    ∀ l ∈ p.locate d, ∃ n n' τ, d.at? l = some n ∧ d'.at? (σ l) = some n' ∧
      Reordering τ n n' ∧ ∀ k, σ (l ++ k) = σ l ++ τ k := by
  have hagree := h.locateAll hkeys hnumerals p.steps
  refine ⟨map_at?_locate p d, map_at?_locate p d', hagree.perm, ?_, ?_⟩
  · intro hno
    exact hagree.eq (List.any_eq_false.mpr fun s hs => by rw [hno s hs]; exact Bool.false_ne_true)
  · intro l hl
    obtain ⟨n, hn⟩ := Option.isSome_iff_exists.mp (isSome_at?_of_map (map_at?_locate p d) l hl)
    obtain ⟨n', τ, hn', hτ, hσ⟩ := h.at? hn
    exact ⟨n, n', τ, hn, hn', hτ, hσ⟩

/-- Two entries change places. -/
def swapped (τ τ' : List Nat → List Nat) : List Nat → List Nat :=
  carry (1 - ·) fun i => if i = 0 then τ else τ'

theorem reordering_swapped {τ τ' : List Nat → List Nat} {k k' v v' w w' : Doc}
    (h : Reordering τ v w) (h' : Reordering τ' v' w') :
    Reordering (swapped τ τ') (.map [(k, v), (k', v')]) (.map [(k', w'), (k, w)]) := by
  have hpositions : ((List.range 2).map (1 - ·)).Perm (List.range 2) := by decide
  refine @Reordering.map (1 - ·) (fun _ => id) _ _ _ hpositions ?_ ?_
  · intro i e f he hf
    match i with
    | 0 =>
        cases he
        cases hf
        exact .refl k
    | 1 =>
        cases he
        cases hf
        exact .refl k'
  · intro i e f he hf
    match i with
    | 0 =>
        cases he
        cases hf
        exact h
    | 1 =>
        cases he
        cases hf
        exact h'

/-- A mapping in a mapping. -/
def shelf : Doc :=
  .map [(.string "a", .seq [.int 1]),
    (.int 7, .map [(.bool true, .null), (.string "b", .seq [.int 2])])]

/-- The same with the entries of both mappings in the other order. -/
def shelfReversed : Doc :=
  .map [(.int 7, .map [(.string "b", .seq [.int 2]), (.bool true, .null)]),
    (.string "a", .seq [.int 1])]

/-- A scan of the reversed mappings finds the first items in the other order. -/
theorem locate_reordered_shelf :
    Reordering (swapped id (swapped id id)) shelf shelfReversed ∧ shelf.DistinctKeys ∧
    shelf.DistinctNumerals ∧
    Path.eval ⟨[.scan (.positions [0])]⟩ shelf = [.int 1, .int 2] ∧
    Path.eval ⟨[.scan (.positions [0])]⟩ shelfReversed = [.int 2, .int 1] ∧
    Path.locate ⟨[.scan (.positions [0])]⟩ shelf = [[0, 0], [1, 1, 0]] ∧
    (Path.locate ⟨[.scan (.positions [0])]⟩ shelfReversed).Perm [[1, 0], [0, 0, 0]] := by
  have hreordering : Reordering (swapped id (swapped id id)) shelf shelfReversed :=
    reordering_swapped (.refl _) (reordering_swapped (.refl _) (.refl _))
  have hkeys : shelf.DistinctKeys := by
    simp [shelf, DistinctKeys, mappings, sameKey]
  have hnumerals : shelf.DistinctNumerals := by
    simp [shelf, DistinctNumerals, mappings, isNumber, numberText?, sameKey, -Prod.forall,
      -List.mem_cons, List.forall_mem_cons]
  obtain ⟨-, -, hperm, -, -⟩ :=
    locate_reordered hreordering hkeys hnumerals ⟨[.scan (.positions [0])]⟩
  exact ⟨hreordering, hkeys, hnumerals, rfl, rfl, rfl, hperm⟩

end Doc

end PathQuery
