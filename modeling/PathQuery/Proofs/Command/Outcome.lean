import PathQuery.Command.Run
import PathQuery.Proofs.Source.Input

/-! # What a query has shown when it ends

A query that has its path, its document and its format (`Options.Resolved`) shows the records of a
front of the selected nodes, the longest one that can be written (`Format.exists_longestFront`).  A
query that lacks one of them fails and shows nothing.

The records of two lists of nodes, one behind the other, are the records of the first list and then,
if these were all written, those of the second (`Format.records_append`).  This compares the query
for the first node with the query for all. -/

namespace PathQuery

/-! ### The end of a query -/

/-- The failures of a query that has not come to its records. -/
def RunError.Early : RunError → Prop
  | .notWritten _ => False
  | _ => True

/-- A query with a path, a document and a format. -/
structure Options.Resolved (o : Options) (formats : Formats) (s : Settings) (world : World Id)
    (p : Path) (d : Doc) (f : Format) : Prop where
  path : Path.parse o.expression = .ok p
  document : o.load formats world = .ok d
  format : o.outputFormat s = .ok f

section Stages

variable {o : Options} {formats : Formats} {s : Settings} {world : World Id} {p : Path} {d : Doc}

theorem run_of_parse_eq_error {cause : PathError} (hpath : Path.parse o.expression = .error cause) :
    o.run formats s world = Outcome.failed (.badExpression o.expression cause) := by
  unfold Options.run
  rw [Settings.compile_eq_parse, hpath]
  rfl

theorem run_of_load_eq_error {cause : LoadError} (hpath : Path.parse o.expression = .ok p)
    (hquery : o.showSteps = false) (hload : o.load formats world = .error cause) :
    o.run formats s world = Outcome.failed (.notLoaded cause) := by
  unfold Options.run
  rw [Settings.compile_eq_parse, hpath]
  dsimp only
  rw [hquery, if_neg Bool.false_ne_true, hload]
  rfl

theorem run_eq_show (hpath : Path.parse o.expression = .ok p) (hquery : o.showSteps = false)
    (hload : o.load formats world = .ok d) : o.run formats s world = o.show s p d := by
  unfold Options.run
  rw [Settings.compile_eq_parse, hpath]
  dsimp only
  rw [hquery, if_neg Bool.false_ne_true, hload]
  rfl

theorem run_of_outputFormat_eq_error {e : RunError} (hpath : Path.parse o.expression = .ok p)
    (hquery : o.showSteps = false) (hload : o.load formats world = .ok d)
    (hformat : o.outputFormat s = .error e) : o.run formats s world = Outcome.failed e := by
  rw [run_eq_show hpath hquery hload, Options.show, hformat]

theorem run_eq_records {f : Format} (hpath : Path.parse o.expression = .ok p)
    (hquery : o.showSteps = false) (hload : o.load formats world = .ok d)
    (hformat : o.outputFormat s = .ok f) :
    o.run formats s world = f.records (o.matched s p d) := by
  rw [run_eq_show hpath hquery hload, Options.show, hformat]

theorem early_of_outputFormat {e : RunError} (h : o.outputFormat s = .error e) : e.Early := by
  obtain ⟨name, -, -, rfl⟩ := Options.outputFormat_eq_error_iff.mp h
  trivial

/-- A query that lacks its path, its document or its format fails before its records, and in the
same way whether it asks for the first node or for all. -/
theorem exists_run_eq_failed (hquery : o.showSteps = false)
    (h : ¬ ∃ p d f, o.Resolved formats s world p d f) :
    ∃ e : RunError, e.Early ∧
      ∀ first, Options.run { o with firstOnly := first } formats s world = Outcome.failed e := by
  cases hpath : Path.parse o.expression with
  | error cause =>
      exact ⟨.badExpression o.expression cause, trivial, fun _ => run_of_parse_eq_error hpath⟩
  | ok p =>
      cases hload : o.load formats world with
      | error cause =>
          exact ⟨.notLoaded cause, trivial, fun _ => run_of_load_eq_error hpath hquery hload⟩
      | ok d =>
          cases hformat : o.outputFormat s with
          | error e =>
              exact ⟨e, early_of_outputFormat hformat,
                fun _ => run_of_outputFormat_eq_error hpath hquery hload hformat⟩
          | ok f => exact absurd ⟨p, d, f, hpath, hload, hformat⟩ h

end Stages

/-! ### Outcomes in sequence -/

namespace Outcome

theorem output_eq_join (a : Outcome) : a.output = String.join a.records := rfl

theorem status_eq_zero_iff {a : Outcome} : a.status = 0 ↔ a.failure = none := by
  unfold status
  cases a.failure with
  | none => exact iff_of_true rfl rfl
  | some e => exact iff_of_false (fun h => nomatch h) (fun h => nomatch h)

/-- An outcome and, if it is no failure, another one behind it. -/
def andThen (a b : Outcome) : Outcome :=
  match a.failure with
  | some _ => a
  | none => ⟨a.records ++ b.records, b.failure⟩

theorem exists_output_andThen (a b : Outcome) :
    ∃ more, (a.andThen b).output = a.output ++ more := by
  unfold andThen
  split
  · exact ⟨"", String.append_empty.symm⟩
  · exact ⟨b.output, String.join_append⟩

theorem status_of_andThen {a b : Outcome} (h : (a.andThen b).status = 0) : a.status = 0 := by
  rw [status_eq_zero_iff] at h ⊢
  unfold andThen at h
  split at h
  · exact h
  · assumption

end Outcome

/-! ### The records of a front -/

/-- A front of a list, the longest one with a property throughout. -/
structure LongestFront {α : Type} (P : α → Prop) (front xs : List α) : Prop where
  isFront : front <+: xs
  holds : ∀ x ∈ front, P x
  longest : ∀ ys, ys <+: xs → (∀ y ∈ ys, P y) → ys.length ≤ front.length

namespace LongestFront

variable {α : Type} {P : α → Prop} {x : α} {front xs : List α}

theorem nil : LongestFront P [] [] where
  isFront := List.prefix_rfl
  holds := fun _ h => nomatch h
  longest := fun _ h _ => h.length_le

theorem stop (hx : ¬ P x) : LongestFront P [] (x :: xs) where
  isFront := List.nil_prefix
  holds := fun _ h => nomatch h
  longest := by
    intro ys hys hholds
    cases ys with
    | nil => exact Nat.le_refl _
    | cons y ys =>
        obtain ⟨rfl, -⟩ := List.cons_prefix_cons.mp hys
        exact absurd (hholds y List.mem_cons_self) hx

theorem cons (hx : P x) (h : LongestFront P front xs) : LongestFront P (x :: front) (x :: xs) where
  isFront := List.cons_prefix_cons.mpr ⟨rfl, h.isFront⟩
  holds := List.forall_mem_cons.mpr ⟨hx, h.holds⟩
  longest := by
    intro ys hys hholds
    cases ys with
    | nil => exact Nat.zero_le _
    | cons y ys =>
        obtain ⟨-, hys⟩ := List.cons_prefix_cons.mp hys
        exact Nat.succ_le_succ (h.longest ys hys (List.forall_mem_cons.mp hholds).2)

theorem eq {front' : List α} (h : LongestFront P front xs) (h' : LongestFront P front' xs) :
    front = front' := by
  have hle : front.length ≤ front'.length := h'.longest _ h.isFront h.holds
  have hge : front'.length ≤ front.length := h.longest _ h'.isFront h'.holds
  have hfront : front <+: front' := List.prefix_of_prefix_length_le h.isFront h'.isFront hle
  exact hfront.eq_of_length (Nat.le_antisymm hle hge)

end LongestFront

namespace Format

variable (f : Format)

/-- A node that can be written. -/
def Renders (d : Doc) : Prop := ∃ r, f.record d = .ok r

variable {f} in
theorem records_cons_of_error {d : Doc} {ds : List Doc} {cause : Unwritable}
    (h : f.record d = .error cause) : f.records (d :: ds) = Outcome.failed (.notWritten cause) := by
  rw [records, h]

variable {f} in
theorem records_cons_of_ok {d : Doc} {ds : List Doc} {r : String} (h : f.record d = .ok r) :
    f.records (d :: ds) = ⟨r :: (f.records ds).records, (f.records ds).failure⟩ := by
  rw [records, h]

theorem records_append (ds es : List Doc) :
    f.records (ds ++ es) = (f.records ds).andThen (f.records es) := by
  induction ds with
  | nil => rfl
  | cons d ds ih =>
      rw [List.cons_append]
      cases hd : f.record d with
      | error cause =>
          rw [records_cons_of_error hd, records_cons_of_error hd]
          rfl
      | ok r =>
          rw [records_cons_of_ok hd, records_cons_of_ok hd, ih]
          unfold Outcome.andThen
          cases hds : (f.records ds).failure with
          | none => rfl
          | some e =>
              dsimp only
              rw [hds]

/-- The records shown are those of the longest front that can be written, and if this is not the
whole list, then the end is a failure. -/
theorem exists_longestFront (ds : List Doc) :
    ∃ shown, LongestFront f.Renders shown ds ∧
      List.Forall₂ (fun d r => f.record d = .ok r) shown (f.records ds).records ∧
      ((f.records ds).failure = none ↔ shown = ds) := by
  induction ds with
  | nil => exact ⟨[], .nil, .nil, iff_of_true rfl rfl⟩
  | cons d ds ih =>
      cases hd : f.record d with
      | error cause =>
          rw [records_cons_of_error hd]
          refine ⟨[], .stop ?_, .nil, iff_of_false (fun h => nomatch h) (fun h => nomatch h)⟩
          rintro ⟨r, hr⟩
          rw [hd] at hr
          cases hr
      | ok r =>
          rw [records_cons_of_ok hd]
          obtain ⟨shown, hfront, hrecords, hall⟩ := ih
          refine ⟨d :: shown, hfront.cons ⟨r, hd⟩, .cons hd hrecords, hall.trans ?_⟩
          exact (List.cons_inj_right d).symm

theorem not_early_of_records {ds : List Doc} {e : RunError} (h : (f.records ds).failure = some e) :
    ¬ e.Early := by
  induction ds with
  | nil => cases h
  | cons d ds ih =>
      cases hd : f.record d with
      | error cause =>
          rw [records_cons_of_error hd] at h
          cases h
          exact id
      | ok r =>
          rw [records_cons_of_ok hd] at h
          exact ih h

theorem status_take_one {ds : List Doc} (h : ∀ d ∈ ds.head?, f.Renders d) :
    (f.records (ds.take 1)).status = 0 := by
  cases ds with
  | nil => rfl
  | cons d ds =>
      obtain ⟨r, hr⟩ := h d rfl
      show (f.records [d]).status = 0
      rw [records_cons_of_ok hr]
      rfl

end Format

/-! ### Queries -/

section Queries

variable {o : Options} {formats : Formats} {s : Settings} {world : World Id}

theorem Options.Resolved.run_eq {p : Path} {d : Doc} {f : Format}
    (h : o.Resolved formats s world p d f) (hquery : o.showSteps = false) :
    o.run formats s world = f.records (o.matched s p d) :=
  run_eq_records h.path hquery h.document h.format

/-- An early failure is that of a query that lacks its path, its document or its format. -/
theorem early_failure_iff (hquery : o.showSteps = false) :
    (∃ e, (o.run formats s world).failure = some e ∧ e.Early) ↔
      ¬ ∃ p d f, o.Resolved formats s world p d f := by
  constructor
  · rintro ⟨e, hfailure, hearly⟩ ⟨p, d, f, h⟩
    rw [h.run_eq hquery] at hfailure
    exact f.not_early_of_records hfailure hearly
  · intro h
    obtain ⟨e, hearly, hrun⟩ := exists_run_eq_failed hquery h
    exact ⟨e, by rw [hrun]; rfl, hearly⟩

theorem Options.resolved_firstOnly_iff (first : Bool) {p : Path} {d : Doc} {f : Format} :
    Options.Resolved { o with firstOnly := first } formats s world p d f ↔
      o.Resolved formats s world p d f :=
  ⟨fun h => ⟨h.path, h.document, h.format⟩, fun h => ⟨h.path, h.document, h.format⟩⟩

theorem Options.exists_matched_append (o : Options) (s : Settings) (p : Path) (d : Doc) :
    ∃ more, Options.matched { o with firstOnly := false } s p d =
      Options.matched { o with firstOnly := true } s p d ++ more := by
  unfold Options.matched
  cases s.firstOnly with
  | false => exact ⟨(p.eval d).drop 1, (List.take_append_drop 1 _).symm⟩
  | true => exact ⟨[], (List.append_nil _).symm⟩

/-- The query for all nodes ends as the query for the first one does, or goes on from there. -/
theorem exists_run_eq_andThen (hquery : o.showSteps = false) :
    ∃ b, Options.run { o with firstOnly := false } formats s world =
      (Options.run { o with firstOnly := true } formats s world).andThen b := by
  by_cases h : ∃ p d f, o.Resolved formats s world p d f
  · obtain ⟨p, d, f, h⟩ := h
    obtain ⟨more, hmore⟩ := o.exists_matched_append s p d
    refine ⟨f.records more, ?_⟩
    rw [((Options.resolved_firstOnly_iff false).mpr h).run_eq hquery,
      ((Options.resolved_firstOnly_iff true).mpr h).run_eq hquery, hmore, f.records_append]
  · obtain ⟨e, -, hrun⟩ := exists_run_eq_failed hquery h
    refine ⟨Outcome.failed e, ?_⟩
    rw [hrun, hrun]
    rfl

/-- **What a query has shown when it ends.**  A query that lacks its path, its document or its
format fails before its records and shows nothing, and it is the only one that fails so.  Any other
shows the records of the longest front of the nodes selected that can be written, where the nodes
are cut to the first one if only this is asked for, and it succeeds when the front is all of them.

The query for the first node, everything else equal, shows a front of what the query for all nodes
shows.  It succeeds if this does, and also if its one node can be written. -/
theorem run_shows_longestFront (hquery : o.showSteps = false) :
    ((∃ e, (o.run formats s world).failure = some e ∧ e.Early) ↔
      ¬ ∃ p d f, o.Resolved formats s world p d f) ∧
    ((∃ e, (o.run formats s world).failure = some e ∧ e.Early) →
      (o.run formats s world).status = 1 ∧ (o.run formats s world).output = "") ∧
    (∀ p d f, o.Resolved formats s world p d f →
      ∀ ns, ns = (if o.firstOnly || s.firstOnly then (p.eval d).take 1 else p.eval d) →
        ∃ shown rs, LongestFront f.Renders shown ns ∧
          List.Forall₂ (fun n r => f.record n = .ok r) shown rs ∧
          (o.run formats s world).output = String.join rs ∧
          ((o.run formats s world).status = 0 ↔ shown = ns)) ∧
    (∃ more, (Options.run { o with firstOnly := false } formats s world).output =
      (Options.run { o with firstOnly := true } formats s world).output ++ more) ∧
    ((Options.run { o with firstOnly := false } formats s world).status = 0 →
      (Options.run { o with firstOnly := true } formats s world).status = 0) ∧
    ∀ p d f, o.Resolved formats s world p d f → (∀ n ∈ (p.eval d).head?, f.Renders n) →
      (Options.run { o with firstOnly := true } formats s world).status = 0 := by
  obtain ⟨b, hall⟩ := @exists_run_eq_andThen o formats s world hquery
  refine ⟨early_failure_iff hquery, ?_, ?_, ?_, ?_, ?_⟩
  · intro hearly
    obtain ⟨e, -, hrun⟩ := exists_run_eq_failed hquery ((early_failure_iff hquery).mp hearly)
    rw [show o.run formats s world = _ from hrun o.firstOnly]
    exact ⟨rfl, rfl⟩
  · rintro p d f h ns rfl
    obtain ⟨shown, hfront, hrecords, hend⟩ := f.exists_longestFront (o.matched s p d)
    rw [h.run_eq hquery, Outcome.status_eq_zero_iff]
    exact ⟨shown, _, hfront, hrecords, Outcome.output_eq_join _, hend⟩
  · rw [hall]
    exact Outcome.exists_output_andThen _ b
  · rw [hall]
    exact Outcome.status_of_andThen
  · intro p d f h hfirst
    rw [((Options.resolved_firstOnly_iff true).mpr h).run_eq hquery]
    exact f.status_take_one hfirst

end Queries

/-- A query for three items of the standard input as JSON. -/
def threeItems : Options := ⟨"$[0,1,2]", none, false, some "JSON", false⟩

/-- A standard input with a key that JSON cannot hold in the second item. -/
def listKeyInput : World Id := ⟨fun _ => none, some "[[],\x7b[]: []\x7d,[]]".toUTF8⟩

/-- Only the record of the first item is shown, and the query for the first item succeeds. -/
theorem run_shows_longestFront_listKey :
    threeItems.load Formats.standard listKeyInput =
      .ok (.seq [.seq [], .map [(.seq [], .seq [])], .seq []]) ∧
    (threeItems.run Formats.standard .default listKeyInput).output = "[]\n" ∧
    (threeItems.run Formats.standard .default listKeyInput).status ≠ 0 ∧
    (Options.run { threeItems with firstOnly := true } Formats.standard .default
      listKeyInput).status = 0 := by
  have htokens : Yaml.tokens? "[[],\x7b[]: []\x7d,[]]".toList =
      some [.flowSeqStart, .flowSeqStart, .flowSeqEnd, .flowEntry,
        .flowMapStart, .key, .flowSeqStart, .flowSeqEnd, .value, .flowSeqStart, .flowSeqEnd,
        .flowMapEnd, .flowEntry, .flowSeqStart, .flowSeqEnd, .flowSeqEnd] := by
    decide +kernel
  have hread : Yaml.read? "[[],\x7b[]: []\x7d,[]]" =
      some (.seq [.seq [], .map [(.seq [], .seq [])], .seq []]) := by
    rw [Yaml.read?, htokens]
    rfl
  have hload : threeItems.load Formats.standard listKeyInput =
      .ok (.seq [.seq [], .map [(.seq [], .seq [])], .seq []]) := by
    show Formats.standard.loadInput "[[],\x7b[]: []\x7d,[]]".toUTF8 = _
    rw [Formats.loadInput_toUTF8]
    exact (Formats.parse_document_eq_ok_iff _).mpr hread
  have hpath : Path.parse "$[0,1,2]" = .ok ⟨[.pick (.positions [0, 1, 2])]⟩ := by decide +kernel
  have hresolved : threeItems.Resolved Formats.standard .default listKeyInput _ _ .json :=
    ⟨hpath, hload, by decide +kernel⟩
  have hrecord : Format.json.record (.seq []) = .ok "[]\n" := by decide +kernel
  have hkey : ¬ Format.json.Renders (.map [(.seq [], .seq [])]) := by
    rintro ⟨r, hr⟩
    cases hr
  obtain ⟨-, -, hshows, -, -, hfirst⟩ :=
    @run_shows_longestFront threeItems Formats.standard .default listKeyInput rfl
  obtain ⟨shown, rs, hfront, hrecords, houtput, hstatus⟩ := hshows _ _ _ hresolved _ rfl
  obtain rfl := hfront.eq (.cons ⟨_, hrecord⟩ (.stop hkey))
  refine ⟨hload, ?_, fun h => ?_, hfirst _ _ _ hresolved ?_⟩
  · rw [houtput]
    cases hrecords with
    | cons hr hrest =>
        cases hrest
        rw [hrecord] at hr
        cases hr
        rfl
  · cases hstatus.mp h
  · rintro n ⟨rfl⟩
    exact ⟨_, hrecord⟩

end PathQuery
