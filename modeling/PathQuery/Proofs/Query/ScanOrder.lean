import Mathlib.Data.List.Pairwise
import PathQuery.Proofs.Query.Repetition

/-! # The order of what a scan finds

A scan goes through the nodes of a document in the order of the text, but what it finds at a node is
a child of it, and it answers this child before it goes below the node.  For a scan that takes one
child from each node, the answers are in the order of the nodes from which they are taken.  They are
in the order of the text themselves exactly if none of them lies in a child that stands before
another answer in the same node (`scan_order`).

Locations are compared lexicographically: one is before another if it is a front part of the other
one or turns off before it (`lt_cases`). -/

namespace PathQuery

open Doc

/-! ### Comparing locations -/

/-- What comes behind a location is either below it or stays behind it whatever is appended. -/
theorem lt_cases {l l' : List Nat} (h : l < l') :
    (∃ j m, l' = l ++ j :: m) ∨ ∀ x y, l ++ x < l' ++ y := by
  induction l generalizing l' with
  | nil =>
      cases l' with
      | nil => exact absurd h (List.lt_irrefl [])
      | cons j m => exact .inl ⟨j, m, rfl⟩
  | cons i l ih =>
      cases l' with
      | nil => exact absurd h (List.not_lt_nil _)
      | cons j l' =>
          rcases List.cons_lt_cons_iff.mp h with hlt | ⟨rfl, hlt⟩
          · exact .inr fun x y => List.cons_lt_cons_iff.mpr (.inl hlt)
          · rcases ih hlt with ⟨j, m, rfl⟩ | hafter
            · exact .inl ⟨j, m, rfl⟩
            · exact .inr fun x y => List.cons_lt_cons_iff.mpr (.inr ⟨rfl, hafter x y⟩)

theorem append_lt_append_iff (l x y : List Nat) : l ++ x < l ++ y ↔ x < y := by
  induction l with
  | nil => rfl
  | cons i l ih => rw [List.cons_append, List.cons_append, List.cons_lt_cons_self, ih]

/-! ### Scans for one child -/

/-- A pick takes at most one child of a node: it names one member or one position. -/
def Pick.IsSingle : Pick → Prop
  | .positions is => is.length = 1
  | .span _ => False
  | .names ks => ks.length = 1

theorem Pick.IsSingle.length_places {p : Pick} (hp : p.IsSingle) (d : Doc) :
    (p.places d).length ≤ 1 := by
  cases p with
  | positions is =>
      cases d with
      | seq items => exact (List.length_filterMap_le _ is).trans_eq hp
      | _ => exact Nat.zero_le 1
  | span s => exact hp.elim
  | names ks =>
      cases d with
      | map entries => exact (List.length_filterMap_le _ ks).trans_eq hp
      | _ => exact Nat.zero_le 1

theorem locate_single (s : Step) (d : Doc) : Path.locate ⟨[s]⟩ d = s.locate d := by
  have hnode : ∀ l ∈ s.locate d,
      ((d.at? l).elim [] fun n => (Step.locateAll [] n).map (l ++ ·)) = [l] := by
    intro l hl
    obtain ⟨n, hn⟩ :=
      Option.isSome_iff_exists.mp (isSome_at?_of_map (s.map_at?_locate d) l hl)
    rw [hn]
    show [l ++ []] = [l]
    rw [List.append_nil]
  show d.descend (s.locate d) (Step.locateAll []) = s.locate d
  unfold descend
  rw [List.flatMap_congr hnode, List.flatMap_singleton']

theorem exists_of_mem_locate {s : Step} {d : Doc} {x : List Nat} (h : x ∈ s.locate d) :
    ∃ l i, x = l ++ [i] := by
  obtain ⟨l, -, n, k, hk, rfl⟩ := exists_of_mem_descend h
  obtain ⟨i, -, rfl⟩ := List.mem_map.mp hk
  exact ⟨l, i, rfl⟩

/-- The nodes from which a scan for one child takes its answers ascend. -/
theorem pairwise_dropLast_locate {p : Pick} (hp : p.IsSingle) (d : Doc) :
    ((Step.scan p).locate d).Pairwise fun x y => x.dropLast < y.dropLast := by
  have hparent : ∀ l : List Nat, ∀ x ∈ (d.at? l).elim [] fun n =>
      ((p.places n).map fun i => [i]).map (l ++ ·), x.dropLast = l := by
    intro l x hx
    obtain ⟨n, k, hk, rfl⟩ := exists_of_mem_elim hx
    obtain ⟨i, -, rfl⟩ := List.mem_map.mp hk
    exact List.dropLast_concat
  refine List.pairwise_flatMap.mpr ⟨?_, ?_⟩
  · intro l _
    cases d.at? l with
    | none => exact List.Pairwise.nil
    | some n =>
        have hlength := hp.length_places n
        show (((p.places n).map fun i => [i]).map (l ++ ·)).Pairwise _
        generalize p.places n = is at hlength
        rcases is with _ | ⟨i, _ | ⟨j, is⟩⟩
        · exact List.Pairwise.nil
        · exact List.pairwise_singleton _ _
        · exact absurd hlength (by simp)
  · refine d.pairwise_locations.imp ?_
    intro l l' hlt x hx y hy
    rw [hparent l x hx, hparent l' y hy]
    exact hlt

/-- Of two answers in the order of the text the first one is taken from the first node. -/
theorem dropLast_lt_of_pairwise {ls : List (List Nat)} (h : ls.Pairwise (· < ·))
    (hparents : ls.Pairwise fun x y => x.dropLast < y.dropLast) {x y : List Nat} (hx : x ∈ ls)
    (hy : y ∈ ls) (hlt : x < y) : x.dropLast < y.dropLast := by
  have hboth : ls.Pairwise fun x y =>
      (x < y → x.dropLast < y.dropLast) ∧ (y < x → y.dropLast < x.dropLast) := by
    refine (h.and hparents).imp ?_
    rintro x y ⟨hxy, hparent⟩
    exact ⟨fun _ => hparent, fun hyx => absurd hyx (List.lt_asymm hxy)⟩
  have : Std.Symm fun x y : List Nat =>
      (x < y → x.dropLast < y.dropLast) ∧ (y < x → y.dropLast < x.dropLast) :=
    ⟨fun _ _ => And.symm⟩
  have hne : x ≠ y := by
    rintro rfl
    exact List.lt_irrefl x hlt
  exact (hboth.forall hx hy hne).1 hlt

/-- **The order of what a scan finds.**  A scan for one member or one position answers nodes that
are taken from different nodes of the document, in the order of these.  The answers stand in the
order of the text exactly if none of them lies in an earlier child of a node from which another one
is taken. -/
theorem scan_order {p : Pick} (hp : p.IsSingle) (d : Doc) :
    (Path.locate ⟨[.scan p]⟩ d).map d.at? = (Path.eval ⟨[.scan p]⟩ d).map some ∧
    ((Path.locate ⟨[.scan p]⟩ d).map List.dropLast).Pairwise (· < ·) ∧
    ((Path.locate ⟨[.scan p]⟩ d).Pairwise (· < ·) ↔
      ∀ l i j m, l ++ [i] ∈ Path.locate ⟨[.scan p]⟩ d → l ++ j :: m ∈ Path.locate ⟨[.scan p]⟩ d →
        i ≤ j) := by
  refine ⟨map_at?_locate _ d, ?_⟩
  rw [locate_single, List.pairwise_map]
  have hparents := pairwise_dropLast_locate hp d
  refine ⟨hparents, ?_, ?_⟩
  · intro hascending l i j m hx hy
    by_contra hlt
    -- The answer in the earlier child would be taken from a node before `l`, and this is none.
    have hbefore : l ++ j :: m < l ++ [i] :=
      (append_lt_append_iff ..).mpr (List.cons_lt_cons_iff.mpr (.inl (Nat.lt_of_not_le hlt)))
    have hnode := dropLast_lt_of_pairwise hascending hparents hy hx hbefore
    rw [List.dropLast_concat, List.dropLast_append_of_ne_nil (List.cons_ne_nil j m)] at hnode
    nth_rewrite 2 [← List.append_nil l] at hnode
    exact List.not_lt_nil _ ((append_lt_append_iff ..).mp hnode)
  · intro hsiblings
    refine hparents.imp_of_mem ?_
    intro x y hx hy hlt
    obtain ⟨l, i, rfl⟩ := exists_of_mem_locate hx
    obtain ⟨l', i', rfl⟩ := exists_of_mem_locate hy
    rw [List.dropLast_concat, List.dropLast_concat] at hlt
    rcases lt_cases hlt with ⟨j, m, rfl⟩ | hafter
    · rw [List.append_assoc, List.cons_append] at hy ⊢
      refine (append_lt_append_iff ..).mpr (List.cons_lt_cons_iff.mpr ?_)
      rcases Nat.lt_or_eq_of_le (hsiblings l i j _ hx hy) with hij | rfl
      · exact .inl hij
      · obtain ⟨k, tail, htail⟩ := List.exists_cons_of_ne_nil (List.append_ne_nil_of_right_ne_nil m
          (List.cons_ne_nil i' []))
        rw [htail]
        exact .inr ⟨rfl, List.nil_lt_cons k tail⟩
    · exact hafter [i] [i']

/-- A mapping with a member that lies behind a mapping with a member of the same name. -/
def earlierSibling : Doc :=
  .map [(.string "x", .map [(.string "a", .int 1)]), (.string "a", .int 2)]

/-- The member of the root is found first, though the other one is written before it. -/
theorem scan_order_earlierSibling :
    Path.locate ⟨[.scan (.names ["a"])]⟩ earlierSibling = [[1], [0, 0]] ∧
    ¬ (Path.locate ⟨[.scan (.names ["a"])]⟩ earlierSibling).Pairwise (· < ·) := by
  have hfound : Path.locate ⟨[.scan (.names ["a"])]⟩ earlierSibling = [[1], [0, 0]] := by decide
  obtain ⟨-, -, hiff⟩ := @scan_order (.names ["a"]) rfl earlierSibling
  refine ⟨hfound, fun hascending => ?_⟩
  have hle := hiff.mp hascending [] 1 0 [0] (by rw [hfound]; simp) (by rw [hfound]; simp)
  exact absurd hle (by decide)

/-- So there are results of a scan for one name that are at no ascending locations. -/
theorem exists_not_in_text_order :
    Path.parse "$..['a']" = .ok ⟨[.scan (.names ["a"])]⟩ ∧
    Path.eval ⟨[.scan (.names ["a"])]⟩ earlierSibling = [.int 2, .int 1] ∧
    ¬ ∃ ls : List (List Nat), ls.Pairwise (· < ·) ∧
      ls.map earlierSibling.at? =
        (Path.eval ⟨[.scan (.names ["a"])]⟩ earlierSibling).map some := by
  have hplaces : ∀ l n, earlierSibling.at? l = some n → l ∈ [[], [0], [0, 0], [1]] :=
    fun l n hl => (earlierSibling.mem_locations_iff l).mpr (Option.isSome_of_eq_some hl)
  simp only [List.mem_cons, List.not_mem_nil, or_false] at hplaces
  refine ⟨by decide +kernel, rfl, ?_⟩
  rintro ⟨ls, hascending, hnodes⟩
  change ls.map earlierSibling.at? = [some (.int 2), some (.int 1)] at hnodes
  obtain ⟨l, ls, rfl, hl, hnodes⟩ := List.map_eq_cons_iff.mp hnodes
  obtain ⟨l', ls, rfl, hl', -⟩ := List.map_eq_cons_iff.mp hnodes
  have hfirst : l = [1] := by
    rcases hplaces l _ hl with rfl | rfl | rfl | rfl
    · cases hl
    · cases hl
    · cases hl
    · rfl
  have hsecond : l' = [0, 0] := by
    rcases hplaces l' _ hl' with rfl | rfl | rfl | rfl
    · cases hl'
    · cases hl'
    · rfl
    · cases hl'
  subst hfirst hsecond
  exact absurd (List.rel_of_pairwise_cons hascending List.mem_cons_self) (by decide)

end PathQuery
