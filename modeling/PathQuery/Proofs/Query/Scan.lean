import PathQuery.Proofs.Doc.Location
import PathQuery.Proofs.Path.Acceptance
import PathQuery.Query

/-! # Scans

Two dots before a bracket repeat at every node of a document, in the order of the text, what the
bracket alone selects (`parse_dots`).  The dots change nothing but the step, and the bracket alone
never stands for a scan, so that nothing is scanned twice. -/

namespace PathQuery

open Grammar

/-- A step that is no scan is repeated at every node by its scan. -/
theorem select_deepen {s : Step} (h : s.isDeep = false) (d : Doc) :
    s.deepen.select d = d.nodes.flatMap s.select := by
  cases s with
  | index i =>
      show d.nodes.flatMap (fun n => [i].flatMap n.element) = d.nodes.flatMap fun n => n.element i
      exact List.flatMap_congr fun n _ => List.flatMap_singleton n.element i
  | name k =>
      show d.nodes.flatMap (fun n => [k].flatMap n.child) = d.nodes.flatMap fun n => n.child k
      exact List.flatMap_congr fun n _ => List.flatMap_singleton n.child k
  | pick p => rfl
  | scan p => cases h

theorem Grammar.Content.isDeep_eq_false {cs : List Char} {s : Step} (h : Content cs s) :
    s.isDeep = false := by
  cases h.deep <;> rfl

theorem eval_single (s : Step) (d : Doc) : Path.eval ⟨[s]⟩ d = s.select d :=
  List.flatMap_singleton s.select d

/-- A segment that begins with a bracket is nothing but this bracket. -/
theorem exists_content_of_segment {cs : List Char} {s : Step} (h : Segment cs s)
    (hb : cs.head? = some '[') : ∃ content, Content content s ∧ cs = '[' :: content ++ [']'] := by
  cases h with
  | bracket hc => exact ⟨_, hc, rfl⟩
  | dots _ _ => cases hb

/-- **Scans.**  If a text that begins with a bracket stands for one step behind the dollar sign,
then behind the dollar sign and two dots it stands for the scan of that step.  The scan selects what
the step selects from each node of the document, taken in the order of the locations: these are all
locations at which there is a node, and they ascend. -/
theorem parse_dots {b : String} {t : Step} (hb : b.toList.head? = some '[')
    (h : Path.parse ("$" ++ b) = .ok ⟨[t]⟩) :
    Path.parse ("$.." ++ b) = .ok ⟨[t.deepen]⟩ ∧
    ∀ d : Doc, (∀ l, l ∈ d.locations ↔ (d.at? l).isSome) ∧ d.locations.Pairwise (· < ·) ∧
      Path.eval ⟨[t.deepen]⟩ d = (d.locations.filterMap d.at?).flatMap (Path.eval ⟨[t]⟩) := by
  obtain ⟨cs, hchars, hsegments⟩ := exists_segments_of_parse h
  have hcs : b.toList = cs := by
    rw [String.toList_append] at hchars
    exact (List.cons.inj hchars).2
  subst hcs
  have hsegment : Segment b.toList t := (segments_single_iff _ _).mp hsegments
  obtain ⟨content, hcontent, hbracket⟩ := exists_content_of_segment hsegment hb
  constructor
  · apply (ofChars_eq_ok_iff _ _).mpr
    rw [String.toList_append, hbracket]
    exact .mk ((segments_single_iff _ _).mpr (.dots hcontent hcontent.deep))
  · intro d
    refine ⟨d.mem_locations_iff, d.pairwise_locations, ?_⟩
    calc Path.eval ⟨[t.deepen]⟩ d = t.deepen.select d := eval_single t.deepen d
      _ = d.nodes.flatMap t.select := select_deepen hcontent.isDeep_eq_false d
      _ = (d.locations.filterMap d.at?).flatMap t.select := by rw [← d.nodes_eq_filterMap_at?]
      _ = (d.locations.filterMap d.at?).flatMap (Path.eval ⟨[t]⟩) :=
          List.flatMap_congr fun n _ => (eval_single t n).symm

/-- Both keys are found at the root before the tagged mapping below it is searched. -/
theorem parse_dots_twoKeys :
    Path.parse "$..['a','b']" = .ok ⟨[.scan (.names ["a", "b"])]⟩ ∧
    Path.eval ⟨[.scan (.names ["a", "b"])]⟩
        (.map [(.string "b", .tagged "!t" (.map [(.string "a", .int 1)])), (.string "a", .int 2)]) =
      [.int 2, .tagged "!t" (.map [(.string "a", .int 1)]), .int 1] := by
  have hbracket : Path.parse ("$" ++ "['a','b']") = .ok ⟨[.pick (.names ["a", "b"])]⟩ := by
    decide +kernel
  obtain ⟨hparse, heval⟩ := parse_dots (b := "['a','b']") rfl hbracket
  obtain ⟨-, -, hscan⟩ := heval
    (.map [(.string "b", .tagged "!t" (.map [(.string "a", .int 1)])), (.string "a", .int 2)])
  exact ⟨hparse, hscan⟩

end PathQuery
