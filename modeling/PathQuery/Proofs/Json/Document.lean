import PathQuery.Proofs.Query.Member
import PathQuery.Word

/-! # Documents for JSON

`IsJson` are the documents that JSON holds as they are: no doubles, no tags, integers that are words,
signed or not, and texts as the only keys.  The children of such a document are such documents
(`IsJson.child`), and where its keys differ, they differ as texts (`DistinctKeys.pairwise_ne`).
`depth` says how deeply containers are nested in a document. -/

namespace PathQuery.Doc

mutual

/-- How deeply containers and tags are nested in a document. -/
def depth : Doc → Nat
  | .seq items => itemsDepth items + 1
  | .map entries => entriesDepth entries + 1
  | .tagged _ value => depth value + 1
  | _ => 0

def itemsDepth : List Doc → Nat
  | [] => 0
  | d :: ds => max (depth d) (itemsDepth ds)

def entriesDepth : List (Doc × Doc) → Nat
  | [] => 0
  | (_, v) :: es => max (depth v) (entriesDepth es)

end

/-- A node that JSON holds as it is, its children apart. -/
def IsJsonNode : Doc → Prop
  | .null => True
  | .bool _ => True
  | .int n => -(halfWordCount : Int) ≤ n ∧ n < wordCount
  | .float _ => False
  | .string _ => True
  | .seq _ => True
  | .map entries => ∀ e ∈ entries, ∃ s, e.1 = .string s
  | .tagged _ _ => False

/-- A document that JSON holds as it is. -/
def IsJson (d : Doc) : Prop := ∀ n ∈ d.nodes, n.IsJsonNode

/-! ### Nesting -/

theorem depth_le_itemsDepth {d : Doc} {items : List Doc} (h : d ∈ items) :
    d.depth ≤ itemsDepth items := by
  induction items with
  | nil => cases h
  | cons e items ih =>
      rw [itemsDepth]
      rcases List.mem_cons.mp h with rfl | h
      · omega
      · have := ih h
        omega

theorem entriesDepth_eq_itemsDepth (entries : List (Doc × Doc)) :
    entriesDepth entries = itemsDepth (entries.map Prod.snd) := by
  induction entries with
  | nil => rfl
  | cons e entries ih =>
      obtain ⟨k, v⟩ := e
      rw [entriesDepth, List.map_cons, itemsDepth, ih]

/-! ### Nodes -/

theorem IsJson.root {d : Doc} (h : d.IsJson) : d.IsJsonNode := by
  refine h d ?_
  rw [nodes_eq_cons_flatMap]
  exact List.mem_cons_self

theorem IsJson.child {c d : Doc} (h : d.IsJson) (hc : c ∈ d.children) : c.IsJson :=
  fun n hn => h n (nodes_subset (mem_nodes_of_mem_children hc) hn)

/-! ### Keys -/

theorem sameKey_string_iff (s : String) (k : Doc) :
    sameKey (.string s) k = true ↔ k = .string s := by
  cases k with
  | string t =>
      rw [sameKey, beq_iff_eq, string.injEq]
      exact eq_comm
  | _ => simp [sameKey]

theorem hasKey_string_eq_false {entries : List (Doc × Doc)} {s : String}
    (h : ∀ e ∈ entries, e.1 ≠ .string s) : hasKey entries (.string s) = false := by
  refine List.any_eq_false.mpr fun e he hsame => ?_
  exact h e he ((sameKey_string_iff s e.1).mp hsame)

theorem DistinctKeys.pairwise_ne {entries : List (Doc × Doc)} (h : (map entries).DistinctKeys)
    (hkeys : ∀ e ∈ entries, ∃ s, e.1 = .string s) :
    entries.Pairwise fun e f => e.1 ≠ f.1 := by
  have hdiffer := h entries (mem_mappings_iff.mpr (by simp))
  refine List.Pairwise.imp_of_mem ?_ hdiffer
  intro e f he _ hno heq
  obtain ⟨s, hs⟩ := hkeys e he
  rw [hs] at hno heq
  rw [(sameKey_string_iff s f.1).mpr heq.symm] at hno
  cases hno

end PathQuery.Doc
