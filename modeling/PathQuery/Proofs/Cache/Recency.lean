import Mathlib.Data.List.Dedup
import Mathlib.Data.List.DropRight
import PathQuery.Cache

/-! # Which expressions a cache remembers

A history of requests has its list of recent expressions: those looked up successfully since the
cache was last cleared, each once, in the order of the last such lookup (`recent`).  The list is
read off the requests and their answers alone (`trace`).  A cache that started empty remembers the
end of this list, as much of it as its capacity allows, and in the same order (`keys_run`).

A lookup succeeds exactly if its expression can be read (`exists_lookup_iff`), so that the list is
known from the requests alone (`recent_eq_dedup`).

The list changes with every request in one of three ways (`recent_concat`), and the entries follow
it: a successful lookup moves its expression to the end and cuts what is too long from the front
(`keys_lookup`).  That cutting early loses nothing is a fact about lists (`rtake_filter_append`). -/

namespace PathQuery.Cache

/-! ### Histories -/

/-- The requests of a history with their answers. -/
def trace (c : Cache) : List Request → List (Request × Answer)
  | [] => []
  | r :: rs => (r, (c.handle r).1) :: (c.handle r).2.trace rs

/-- The expression of a successful lookup. -/
def used? : Request × Answer → Option String
  | (.lookup e, .looked (.ok _)) => some e
  | _ => none

/-- The expressions looked up successfully since the last clear, in the order of their last
successful lookup, the oldest first. -/
def recent (c : Cache) (rs : List Request) : List String :=
  (((c.trace rs).rtakeWhile fun t => t.1 ≠ .clear).filterMap used?).dedup

/-- The expression of a lookup that succeeds because it can be read. -/
def accepted? : Request → Option String
  | .lookup e => if (Path.parse e).isOk then some e else none
  | _ => none

theorem run_append (c : Cache) (rs rs' : List Request) :
    c.run (rs ++ rs') = (c.run rs).run rs' := by
  unfold run
  rw [List.foldl_append]

theorem run_concat (c : Cache) (rs : List Request) (r : Request) :
    c.run (rs ++ [r]) = ((c.run rs).handle r).2 := by
  rw [run_append, run_cons, run_nil]

theorem trace_concat (c : Cache) (rs : List Request) (r : Request) :
    c.trace (rs ++ [r]) = c.trace rs ++ [(r, ((c.run rs).handle r).1)] := by
  induction rs generalizing c with
  | nil => rfl
  | cons r' rs ih =>
      rw [List.cons_append, trace, ih, trace, run_cons, List.cons_append]

@[simp] theorem capacity_handle (c : Cache) (r : Request) :
    (c.handle r).2.capacity = c.capacity := by
  cases r with
  | lookup e => exact capacity_lookup c e
  | peek e => rfl
  | clear => rfl

theorem capacity_run (c : Cache) (rs : List Request) : (c.run rs).capacity = c.capacity := by
  induction rs generalizing c with
  | nil => rfl
  | cons r rs ih => rw [run_cons, ih, capacity_handle]

/-! ### Ends of lists -/

section lists
variable {α : Type}

theorem length_rtake (l : List α) (n : Nat) : (l.rtake n).length = min n l.length := by
  unfold List.rtake
  rw [List.length_drop]
  omega

theorem rtake_of_length_le {l : List α} {n : Nat} (h : l.length ≤ n) : l.rtake n = l := by
  unfold List.rtake
  rw [Nat.sub_eq_zero_of_le h, List.drop_zero]

theorem rtake_append_of_le {l l' : List α} {n : Nat} (h : n ≤ l'.length) :
    (l ++ l').rtake n = l'.rtake n := by
  unfold List.rtake
  rw [List.length_append, Nat.add_sub_assoc h, List.drop_length_add_append]

variable [DecidableEq α]

theorem dedup_concat (l : List α) (a : α) :
    (l ++ [a]).dedup = l.dedup.filter (· != a) ++ [a] := by
  induction l with
  | nil => rfl
  | cons b l ih =>
      rw [List.cons_append]
      by_cases hb : b ∈ l
      · rw [List.dedup_cons_of_mem (List.mem_append_left [a] hb), List.dedup_cons_of_mem hb, ih]
      rw [List.dedup_cons_of_notMem hb]
      by_cases hba : b = a
      · subst hba
        have hmem : b ∈ l ++ [b] := List.mem_append_right l (List.mem_singleton_self b)
        rw [List.dedup_cons_of_mem hmem, ih, List.filter_cons_of_neg (by simp)]
      · have hmem : b ∉ l ++ [a] := by simp [hb, hba]
        rw [List.dedup_cons_of_notMem hmem, ih, List.filter_cons_of_pos (by simpa using hba),
          List.cons_append]

theorem length_le_length_filter_ne {l : List α} (h : l.Nodup) (a : α) :
    l.length ≤ (l.filter (· != a)).length + 1 := by
  rw [← h.erase_eq_filter]
  exact Nat.le_add_of_sub_le List.le_length_erase

/-- Moving an entry to the end of the last `n` entries, or to the end of the whole list, comes to
the same last `n` entries. -/
theorem rtake_filter_append {l : List α} (h : l.Nodup) (n : Nat) (a : α) :
    ((l.rtake n).filter (· != a) ++ [a]).rtake n = (l.filter (· != a) ++ [a]).rtake n := by
  cases n with
  | zero => rw [List.rtake_zero, List.rtake_zero]
  | succ n =>
      rw [List.rtake_concat_succ, List.rtake_concat_succ]
      congr 1
      rcases Nat.le_total l.length (n + 1) with hl | hl
      · rw [rtake_of_length_le hl]
      -- The filter takes at most one entry of the end, so that `n` of them are left there.
      have hend : (l.rtake (n + 1)).Nodup := h.sublist (List.drop_sublist _ _)
      have hlen := length_le_length_filter_ne hend a
      rw [length_rtake, Nat.min_eq_left hl] at hlen
      have hsplit : l.rdrop (n + 1) ++ l.rtake (n + 1) = l := List.take_append_drop _ l
      conv => rhs; rw [← hsplit, List.filter_append]
      exact (rtake_append_of_le (Nat.le_of_succ_le_succ hlen)).symm

end lists

/-! ### What one request does -/

@[simp] theorem length_keys (c : Cache) : c.keys.length = c.size := List.length_map _

theorem isSome_peek_iff (c : Cache) (e : String) : (c.peek e).isSome ↔ e ∈ c.keys := by
  unfold peek keys
  rw [Option.isSome_map, List.find?_isSome, List.mem_map]
  simp only [beq_iff_eq]

section lookup
variable {c : Cache} {e : String}

theorem mem_entries_of_peek {shared : Shared} (h : c.peek e = some shared) :
    (e, shared) ∈ c.entries := by
  unfold peek at h
  obtain ⟨a, ha, rfl⟩ := Option.map_eq_some_iff.mp h
  have he : a.1 = e := by simpa using List.find?_some ha
  rw [← he]
  exact List.mem_of_find?_eq_some ha

theorem mem_keys_of_mem {shared : Shared} (h : (e, shared) ∈ c.entries) : e ∈ c.keys :=
  List.mem_map.mpr ⟨(e, shared), h, rfl⟩

theorem peek_of_not_mem (he : e ∉ c.keys) : c.peek e = none := by
  rw [← Option.not_isSome_iff_eq_none, isSome_peek_iff]
  exact he

theorem lookup_of_mem (he : e ∈ c.keys) :
    ∃ shared, (e, shared) ∈ c.entries ∧ c.lookup e = (.ok shared, c.touch e shared) := by
  obtain ⟨shared, hp⟩ := Option.isSome_iff_exists.mp ((isSome_peek_iff c e).mpr he)
  refine ⟨shared, mem_entries_of_peek hp, ?_⟩
  unfold lookup
  rw [hp]

theorem lookup_of_not_mem {path : Path} (he : e ∉ c.keys) (ht : Path.parse e = .ok path) :
    c.lookup e = (.ok ⟨c.nextId, path⟩,
      if c.capacity = 0 then { c with nextId := c.nextId + 1 }
      else { c with nextId := c.nextId + 1 }.insertNew e ⟨c.nextId, path⟩) := by
  unfold lookup
  rw [peek_of_not_mem he, ht]

theorem lookup_of_parse_error {err : PathError} (he : e ∉ c.keys) (ht : Path.parse e = .error err) :
    c.lookup e = (.error err, c) := by
  unfold lookup
  rw [peek_of_not_mem he, ht]

theorem lookup_of_error {err : PathError} (h : (c.lookup e).1 = .error err) :
    (c.lookup e).2 = c := by
  by_cases he : e ∈ c.keys
  · obtain ⟨shared, -, hl⟩ := lookup_of_mem he
    rw [hl] at h
    cases h
  · cases ht : Path.parse e with
    | error err => rw [lookup_of_parse_error he ht]
    | ok path =>
        rw [lookup_of_not_mem he ht] at h
        cases h

end lookup

theorem keys_touch (c : Cache) (e : String) (shared : Shared) :
    (c.touch e shared).keys = c.keys.filter (· != e) ++ [e] := by
  unfold touch keys
  rw [List.map_append, List.filter_map]
  rfl

theorem keys_insertNew {c : Cache} {e : String} (he : e ∉ c.keys) (hsize : c.size ≤ c.capacity)
    (hpos : c.capacity ≠ 0) (shared : Shared) :
    (c.insertNew e shared).keys = (c.keys.filter (· != e) ++ [e]).rtake c.capacity := by
  have hfilter : c.keys.filter (· != e) = c.keys := by
    rw [List.filter_eq_self]
    intro k hk
    exact bne_iff_ne.mpr fun hke => he (hke ▸ hk)
  have hkeys : c.keys.length = c.entries.length := List.length_map _
  unfold size at hsize
  rw [hfilter]
  unfold insertNew List.rtake
  rw [List.length_append, List.length_singleton, hkeys]
  dsimp only [keys]
  split_ifs with hfull
  · have hone : c.entries.length + 1 - c.capacity = 1 := by omega
    have hle : 1 ≤ (c.entries.map Prod.fst).length := by rw [List.length_map]; omega
    rw [hone, List.drop_append_of_le_length hle, List.map_append, List.map_drop]
    rfl
  · have hzero : c.entries.length + 1 - c.capacity = 0 := by omega
    rw [hzero, List.drop_zero, List.map_append]
    rfl

/-- A lookup that succeeds moves its expression to the end, and what is too long is cut from the
front. -/
theorem keys_lookup {c : Cache} {e : String} {shared : Shared} (hsize : c.size ≤ c.capacity)
    (h : (c.lookup e).1 = .ok shared) :
    (c.lookup e).2.keys = (c.keys.filter (· != e) ++ [e]).rtake c.capacity := by
  by_cases he : e ∈ c.keys
  · obtain ⟨found, -, hl⟩ := lookup_of_mem he
    have hlt : (c.keys.filter (· != e)).length < c.keys.length :=
      List.length_filter_lt_length_iff_exists.mpr ⟨e, he, by simp⟩
    have hkeys := length_keys c
    rw [hl, keys_touch, rtake_of_length_le]
    rw [List.length_append, List.length_singleton]
    omega
  · cases ht : Path.parse e with
    | error err =>
        rw [lookup_of_parse_error he ht] at h
        cases h
    | ok path =>
        rw [lookup_of_not_mem he ht]
        dsimp only
        split_ifs with hzero
        · have hnil : c.entries = [] := by
            apply List.eq_nil_of_length_eq_zero
            exact Nat.eq_zero_of_le_zero (hzero ▸ hsize)
          rw [hzero, List.rtake_zero]
          unfold keys
          rw [hnil, List.map_nil]
        · exact keys_insertNew (c := { c with nextId := c.nextId + 1 }) he hsize hzero _

/-- A request forgets everything, changes nothing or looks up an expression successfully. -/
theorem handle_cases (c : Cache) (r : Request) :
    r = .clear ∨
    (r ≠ .clear ∧ used? (r, (c.handle r).1) = none ∧ (c.handle r).2 = c) ∨
    ∃ e shared, r = .lookup e ∧ (c.lookup e).1 = .ok shared ∧
      used? (r, (c.handle r).1) = some e := by
  cases r with
  | clear => exact .inl rfl
  | peek e => exact .inr (.inl ⟨by simp, rfl, rfl⟩)
  | lookup e =>
      rw [handle]
      cases hl : (c.lookup e).1 with
      | error err => exact .inr (.inl ⟨by simp, rfl, lookup_of_error hl⟩)
      | ok shared => exact .inr (.inr ⟨e, shared, rfl, hl, rfl⟩)

/-! ### Whole histories -/

variable {c : Cache} {rs : List Request}

theorem recent_concat_clear : c.recent (rs ++ [.clear]) = [] := by
  unfold recent
  rw [trace_concat, List.rtakeWhile_concat_neg _ _ _ (by simp)]
  rfl

theorem recent_concat_of_used {r : Request} {e : String} (hr : r ≠ .clear)
    (h : used? (r, ((c.run rs).handle r).1) = some e) :
    c.recent (rs ++ [r]) = (c.recent rs).filter (· != e) ++ [e] := by
  unfold recent
  rw [trace_concat, List.rtakeWhile_concat_pos _ _ _ (by simpa using hr), List.filterMap_append,
    List.filterMap_cons_some h, List.filterMap_nil]
  exact dedup_concat _ e

theorem recent_concat_of_not_used {r : Request} (hr : r ≠ .clear)
    (h : used? (r, ((c.run rs).handle r).1) = none) :
    c.recent (rs ++ [r]) = c.recent rs := by
  unfold recent
  rw [trace_concat, List.rtakeWhile_concat_pos _ _ _ (by simpa using hr), List.filterMap_append,
    List.filterMap_cons_none h, List.filterMap_nil, List.append_nil]

theorem nodup_recent : (c.recent rs).Nodup := List.nodup_dedup _

/-- The cache remembers the end of the list of recent expressions. -/
theorem keys_run (capacity : Nat) (rs : List Request) :
    ((empty capacity).run rs).keys = ((empty capacity).recent rs).rtake capacity := by
  induction rs using List.reverseRecOn with
  | nil => exact (List.rtake_nil capacity).symm
  | append_singleton rs r ih =>
      rw [run_concat]
      rcases handle_cases ((empty capacity).run rs) r with
        rfl | ⟨hr, hu, hsame⟩ | ⟨e, shared, rfl, hok, hu⟩
      · rw [recent_concat_clear, List.rtake_nil]
        rfl
      · rw [hsame, ih, recent_concat_of_not_used hr hu]
      · have hcap : ((empty capacity).run rs).capacity = capacity := capacity_run _ rs
        have hsize : ((empty capacity).run rs).size ≤ ((empty capacity).run rs).capacity := by
          rw [← length_keys, ih, length_rtake, hcap]
          exact Nat.min_le_left _ _
        rw [recent_concat_of_used (by simp) hu, handle]
        dsimp only
        rw [keys_lookup hsize hok, hcap, ih, rtake_filter_append nodup_recent]

theorem parse_of_mem_recent {capacity : Nat} {e : String}
    (h : e ∈ (empty capacity).recent rs) : ∃ path, Path.parse e = .ok path := by
  induction rs using List.reverseRecOn with
  | nil => cases h
  | append_singleton rs r ih =>
      rcases handle_cases ((empty capacity).run rs) r with
        rfl | ⟨hr, hu, -⟩ | ⟨k, shared, rfl, hok, hu⟩
      · rw [recent_concat_clear] at h
        cases h
      · rw [recent_concat_of_not_used hr hu] at h
        exact ih h
      · rw [recent_concat_of_used (by simp) hu, List.mem_append, List.mem_singleton] at h
        rcases h with h | rfl
        · exact ih (List.mem_of_mem_filter h)
        by_cases he : e ∈ ((empty capacity).run rs).keys
        · rw [keys_run] at he
          exact ih (List.mem_of_mem_drop he)
        · cases ht : Path.parse e with
          | error err =>
              rw [lookup_of_parse_error he ht] at hok
              cases hok
          | ok path => exact ⟨path, rfl⟩

/-- After every history a lookup succeeds exactly if its expression can be read. -/
theorem exists_lookup_iff (capacity : Nat) (rs : List Request) (e : String) :
    (∃ shared, (((empty capacity).run rs).lookup e).1 = .ok shared) ↔
      ∃ path, Path.parse e = .ok path := by
  by_cases he : e ∈ ((empty capacity).run rs).keys
  · obtain ⟨shared, -, hl⟩ := lookup_of_mem he
    rw [keys_run] at he
    exact iff_of_true ⟨shared, by rw [hl]⟩ (parse_of_mem_recent (List.mem_of_mem_drop he))
  · cases ht : Path.parse e with
    | error err => simp [lookup_of_parse_error he ht]
    | ok path => exact iff_of_true ⟨_, by rw [lookup_of_not_mem he ht]⟩ ⟨path, rfl⟩

theorem used?_handle (capacity : Nat) (rs : List Request) (r : Request) :
    used? (r, (((empty capacity).run rs).handle r).1) = accepted? r := by
  cases r with
  | clear => rfl
  | peek e => rfl
  | lookup e =>
      have hiff := exists_lookup_iff capacity rs e
      rw [handle]
      dsimp only
      cases hl : (((empty capacity).run rs).lookup e).1 with
      | error err =>
          cases ht : Path.parse e with
          | error err' => simp [used?, accepted?, ht, Except.isOk, Except.toBool]
          | ok path =>
              obtain ⟨shared, hok⟩ := hiff.mpr ⟨path, ht⟩
              rw [hl] at hok
              cases hok
      | ok shared =>
          obtain ⟨path, ht⟩ := hiff.mp ⟨shared, hl⟩
          simp [used?, accepted?, ht, Except.isOk, Except.toBool]

/-- The recent expressions, from the requests without their answers. -/
theorem recent_eq_dedup (capacity : Nat) (rs : List Request) :
    (empty capacity).recent rs =
      ((rs.rtakeWhile (· ≠ .clear)).filterMap accepted?).dedup := by
  induction rs using List.reverseRecOn with
  | nil => rfl
  | append_singleton rs r ih =>
      by_cases hr : r = .clear
      · rw [hr, recent_concat_clear, List.rtakeWhile_concat_neg _ _ _ (by simp)]
        rfl
      have hused := used?_handle capacity rs r
      rw [List.rtakeWhile_concat_pos _ _ _ (by simpa using hr), List.filterMap_append]
      cases haccepted : accepted? r with
      | none =>
          rw [haccepted] at hused
          rw [recent_concat_of_not_used hr hused, ih, List.filterMap_cons_none haccepted,
            List.filterMap_nil, List.append_nil]
      | some e =>
          rw [haccepted] at hused
          rw [recent_concat_of_used hr hused, ih, List.filterMap_cons_some haccepted,
            List.filterMap_nil, dedup_concat]

/-- **Least recently used.**  After every history of a cache that started empty, the remembered
expressions are the last ones of the recent expressions, as many as the capacity allows and in the
same order; so their number is known, and only they are found.  Requests that are peeks or failed
lookups could be left out anywhere in a history. -/
theorem remembers_recent (capacity : Nat) (rs : List Request) :
    ((empty capacity).run rs).keys = ((empty capacity).recent rs).rtake capacity ∧
    ((empty capacity).run rs).size = min capacity ((empty capacity).recent rs).length ∧
    (∀ e, (((empty capacity).run rs).peek e).isSome ↔
      e ∈ ((empty capacity).recent rs).rtake capacity) ∧
    (∀ e later, (empty capacity).run (rs ++ .peek e :: later) =
      (empty capacity).run (rs ++ later)) ∧
    ∀ e err later, (((empty capacity).run rs).lookup e).1 = .error err →
      (empty capacity).run (rs ++ .lookup e :: later) = (empty capacity).run (rs ++ later) := by
  have hkeys := keys_run capacity rs
  refine ⟨hkeys, ?_, ?_, ?_, ?_⟩
  · rw [← length_keys, hkeys, length_rtake]
  · intro e
    rw [isSome_peek_iff, hkeys]
  · intro e later
    rw [run_append, run_append, run_cons, handle]
  · intro e err later herr
    rw [run_append, run_append, run_cons, handle]
    dsimp only
    rw [lookup_of_error herr]

end PathQuery.Cache
