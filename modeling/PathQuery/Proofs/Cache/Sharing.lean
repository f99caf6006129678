import PathQuery.Proofs.Cache.Recency

/-! # Which lookups share a path

A cache answers for every expression what reading the expression answers, and the number of the
answered path tells whether the path is one that was answered before.  It is, exactly if the cache
still remembers it: the expression was looked up before, since its latest lookup nothing was
cleared, and fewer other expressions than the capacity were looked up (`Retained`).  Otherwise the
number is new (`shares_retained`).

Two facts about whole histories carry this.  Every remembered path was answered before for the
expression it is remembered for, and the numbers of answered paths tell them apart and are smaller
than the next number (`Owned`, `owned_run`).  And a remembered path is the answer of the latest
lookup of its expression (`exists_latestLookup`), whose age decides whether it is remembered
(`mem_keys_iff_retained`). -/

namespace PathQuery.Cache

/-! ### Answered paths -/

/-- The path that a request is answered with, and the expression it is answered for. -/
def answered? : Request × Answer → Option (String × Shared)
  | (.lookup e, .looked (.ok shared)) => some (e, shared)
  | (.peek e, .peeked (some shared)) => some (e, shared)
  | _ => none

/-- The paths that the requests of a history are answered with, with their expressions. -/
def answers (c : Cache) (rs : List Request) : List (String × Shared) :=
  (c.trace rs).filterMap answered?

theorem answers_concat (c : Cache) (rs : List Request) (r : Request) :
    c.answers (rs ++ [r]) =
      c.answers rs ++ (answered? (r, ((c.run rs).handle r).1)).toList := by
  unfold answers
  rw [trace_concat, List.filterMap_append]
  cases h : answered? (r, ((c.run rs).handle r).1) with
  | none =>
      rw [List.filterMap_cons_none h]
      rfl
  | some a =>
      rw [List.filterMap_cons_some h]
      rfl

/-! ### What a lookup answers -/

section lookup
variable {c : Cache} {e : String}

theorem mem_entries_insertNew {shared : Shared} {a : String × Shared}
    (ha : a ∈ (c.insertNew e shared).entries) : a ∈ c.entries ∨ a = (e, shared) := by
  unfold insertNew at ha
  rcases List.mem_append.mp ha with ha | ha
  · left
    split_ifs at ha with hfull
    · exact List.mem_of_mem_drop ha
    · exact ha
  · right
    exact List.mem_singleton.mp ha

theorem mem_entries_lookup {shared : Shared} (h : (c.lookup e).1 = .ok shared)
    {a : String × Shared} (ha : a ∈ (c.lookup e).2.entries) :
    a = (e, shared) ∨ a ∈ c.entries ∧ a.1 ≠ e := by
  by_cases he : e ∈ c.keys
  · obtain ⟨found, -, hl⟩ := lookup_of_mem he
    rw [hl] at h ha
    cases h
    rcases List.mem_append.mp ha with ha | ha
    · obtain ⟨hmem, hne⟩ := List.mem_filter.mp ha
      exact .inr ⟨hmem, by simpa using hne⟩
    · exact .inl (List.mem_singleton.mp ha)
  · have hold : a ∈ c.entries → a = (e, shared) ∨ a ∈ c.entries ∧ a.1 ≠ e := by
      intro hmem
      refine .inr ⟨hmem, ?_⟩
      rintro rfl
      exact he (mem_keys_of_mem hmem)
    cases ht : Path.parse e with
    | error err =>
        rw [lookup_of_parse_error he ht] at h
        cases h
    | ok path =>
        rw [lookup_of_not_mem he ht] at h ha
        cases h
        dsimp only at ha
        split_ifs at ha with hzero
        · exact hold ha
        · rcases mem_entries_insertNew ha with ha | ha
          · exact hold ha
          · exact .inl ha

end lookup

/-! ### Numbers tell paths apart -/

/-- What a cache remembers was answered before, every answered path is the one of its expression
and has a number below the next one, and no two answered paths share a number. -/
structure Owned (c : Cache) (given : List (String × Shared)) : Prop where
  remembered : ∀ a ∈ c.entries, a ∈ given
  compiled : ∀ a ∈ given, Path.parse a.1 = .ok a.2.path
  numbered : ∀ a ∈ given, a.2.id < c.nextId
  apart : ∀ a ∈ given, ∀ b ∈ given, a.2.id = b.2.id → a = b

section owned
variable {c c' : Cache} {given given' : List (String × Shared)}

theorem Owned.of_subset (h : Owned c given) (hid : c'.nextId = c.nextId)
    (hgiven : ∀ a, a ∈ given' ↔ a ∈ given) (hentries : ∀ a ∈ c'.entries, a ∈ given) :
    Owned c' given' where
  remembered a ha := (hgiven a).mpr (hentries a ha)
  compiled a ha := h.compiled a ((hgiven a).mp ha)
  numbered a ha := hid ▸ h.numbered a ((hgiven a).mp ha)
  apart a ha b hb := h.apart a ((hgiven a).mp ha) b ((hgiven b).mp hb)

theorem Owned.concat_new (h : Owned c given) {e : String} {path : Path}
    (ht : Path.parse e = .ok path) (hid : c'.nextId = c.nextId + 1)
    (hentries : ∀ a ∈ c'.entries, a ∈ given ∨ a = (e, ⟨c.nextId, path⟩)) :
    Owned c' (given ++ [(e, ⟨c.nextId, path⟩)]) where
  remembered a ha := by
    rw [List.mem_append, List.mem_singleton]
    exact hentries a ha
  compiled a ha := by
    rcases List.mem_append.mp ha with ha | ha
    · exact h.compiled a ha
    · rw [List.mem_singleton.mp ha]
      exact ht
  numbered a ha := by
    rw [hid]
    rcases List.mem_append.mp ha with ha | ha
    · exact Nat.lt_succ_of_lt (h.numbered a ha)
    · rw [List.mem_singleton.mp ha]
      exact Nat.lt_succ_self c.nextId
  apart a ha b hb hab := by
    rcases List.mem_append.mp ha with ha | ha <;> rcases List.mem_append.mp hb with hb | hb
    · exact h.apart a ha b hb hab
    · have hlt := h.numbered a ha
      rw [hab, List.mem_singleton.mp hb] at hlt
      exact absurd hlt (Nat.lt_irrefl _)
    · have hlt := h.numbered b hb
      rw [← hab, List.mem_singleton.mp ha] at hlt
      exact absurd hlt (Nat.lt_irrefl _)
    · rw [List.mem_singleton.mp ha, List.mem_singleton.mp hb]

theorem mem_concat_of_mem {a : String × Shared} (ha : a ∈ given) (b : String × Shared) :
    b ∈ given ++ [a] ↔ b ∈ given := by
  rw [List.mem_append, List.mem_singleton]
  constructor
  · rintro (hb | rfl)
    · exact hb
    · exact ha
  · exact .inl

theorem Owned.lookup (h : Owned c given) (e : String) :
    Owned (c.lookup e).2 (given ++ (answered? (.lookup e, .looked (c.lookup e).1)).toList) := by
  by_cases he : e ∈ c.keys
  · obtain ⟨shared, hmem, hl⟩ := lookup_of_mem he
    have hgiven : (e, shared) ∈ given := h.remembered _ hmem
    have hok : (c.lookup e).1 = .ok shared := by rw [hl]
    have hid : (c.lookup e).2.nextId = c.nextId := by rw [hl]; rfl
    rw [hok]
    refine h.of_subset hid (mem_concat_of_mem hgiven) ?_
    intro a ha
    rcases mem_entries_lookup hok ha with rfl | ⟨ha, -⟩
    · exact hgiven
    · exact h.remembered a ha
  · cases ht : Path.parse e with
    | error err =>
        rw [lookup_of_parse_error he ht]
        show Owned c (given ++ [])
        rw [List.append_nil]
        exact h
    | ok path =>
        have hok : (c.lookup e).1 = .ok ⟨c.nextId, path⟩ := by rw [lookup_of_not_mem he ht]
        have hid : (c.lookup e).2.nextId = c.nextId + 1 := by
          rw [lookup_of_not_mem he ht]
          dsimp only
          split_ifs <;> rfl
        rw [hok]
        refine h.concat_new ht hid ?_
        intro a ha
        rcases mem_entries_lookup hok ha with rfl | ⟨ha, -⟩
        · exact .inr rfl
        · exact .inl (h.remembered a ha)

theorem Owned.handle (h : Owned c given) (r : Request) :
    Owned (c.handle r).2 (given ++ (answered? (r, (c.handle r).1)).toList) := by
  cases r with
  | lookup e => exact h.lookup e
  | peek e =>
      show Owned c (given ++ (answered? (.peek e, .peeked (c.peek e))).toList)
      cases hp : c.peek e with
      | none =>
          show Owned c (given ++ [])
          rw [List.append_nil]
          exact h
      | some shared =>
          have hgiven := h.remembered _ (mem_entries_of_peek hp)
          exact h.of_subset rfl (mem_concat_of_mem hgiven) h.remembered
  | clear =>
      show Owned c.clear (given ++ [])
      rw [List.append_nil]
      refine h.of_subset rfl (fun _ => Iff.rfl) ?_
      intro a ha
      cases ha

end owned

/-- Whole histories keep the paths apart. -/
theorem owned_run (capacity : Nat) (rs : List Request) :
    Owned ((empty capacity).run rs) ((empty capacity).answers rs) := by
  induction rs using List.reverseRecOn with
  | nil =>
      constructor <;>
      · intro a ha
        cases ha
  | append_singleton rs r ih =>
      rw [run_concat, answers_concat]
      exact ih.handle r

/-! ### The latest lookup of an expression -/

/-- The past ends in a successful lookup of an expression with this answer, and in later requests
with no other such lookup. -/
structure LatestLookup (past : List (Request × Answer)) (e : String) (shared : Shared)
    (since : List (Request × Answer)) : Prop where
  suffix : (.lookup e, .looked (.ok shared)) :: since <:+ past
  not_used : e ∉ since.filterMap used?

/-- What is requested in the meantime leaves an entry in a cache: nothing is cleared, and there is
room for the entry beside the other expressions that are looked up. -/
structure Retained (capacity : Nat) (since : List (Request × Answer)) : Prop where
  pos : 1 ≤ capacity
  not_cleared : ∀ t ∈ since, t.1 ≠ .clear
  few : (since.filterMap used?).dedup.length < capacity

section latest
variable {c : Cache} {rs : List Request} {e : String} {shared : Shared}
  {past since : List (Request × Answer)}

theorem mem_used (h : (.lookup e, .looked (.ok shared)) ∈ past) : e ∈ past.filterMap used? :=
  List.mem_filterMap.mpr ⟨_, h, rfl⟩

theorem LatestLookup.mem_answers (h : LatestLookup (c.trace rs) e shared since) :
    (e, shared) ∈ c.answers rs :=
  List.mem_filterMap.mpr ⟨_, h.suffix.mem List.mem_cons_self, rfl⟩

theorem LatestLookup.unique {since' : List (Request × Answer)} {shared' : Shared}
    (h : LatestLookup past e shared since) (h' : LatestLookup past e shared' since') :
    shared = shared' := by
  rcases List.suffix_or_suffix_of_suffix h.suffix h'.suffix with hs | hs
  · rcases List.suffix_cons_iff.mp hs with heq | hlater
    · cases heq
      rfl
    · exact absurd (mem_used (hlater.mem List.mem_cons_self)) h'.not_used
  · rcases List.suffix_cons_iff.mp hs with heq | hlater
    · cases heq
      rfl
    · exact absurd (mem_used (hlater.mem List.mem_cons_self)) h.not_used

theorem LatestLookup.of_concat {r : Request} {answer : Answer}
    (h : LatestLookup (past ++ [(r, answer)]) e shared since) :
    (since = [] ∧ r = .lookup e ∧ answer = .looked (.ok shared)) ∨
    ∃ between, since = between ++ [(r, answer)] ∧ LatestLookup past e shared between ∧
      used? (r, answer) ≠ some e := by
  obtain ⟨hsuffix, hused⟩ := h
  rcases List.suffix_concat_iff.mp hsuffix with hnil | ⟨t, ht, hpast⟩
  · cases hnil
  · rcases t with _ | ⟨first, between⟩
    · cases ht
      exact .inl ⟨rfl, rfl, rfl⟩
    · rw [List.cons_append] at ht
      obtain ⟨rfl, rfl⟩ := List.cons.inj ht
      rw [List.filterMap_append, List.mem_append, not_or] at hused
      refine .inr ⟨between, rfl, ⟨hpast, hused.1⟩, ?_⟩
      intro hlast
      apply hused.2
      rw [List.filterMap_cons_some hlast]
      exact List.mem_cons_self

theorem LatestLookup.concat {t : Request × Answer} (h : LatestLookup past e shared since)
    (ht : used? t ≠ some e) : LatestLookup (past ++ [t]) e shared (since ++ [t]) where
  suffix := by
    obtain ⟨before, hpast⟩ := h.suffix
    exact ⟨before, by rw [← hpast]; simp⟩
  not_used := by
    rw [List.filterMap_append, List.mem_append, not_or]
    refine ⟨h.not_used, ?_⟩
    intro hmem
    obtain ⟨t', ht', hused⟩ := List.mem_filterMap.mp hmem
    rw [List.mem_singleton.mp ht'] at hused
    exact ht hused

/-- **What is remembered is the answer of the latest lookup.** -/
theorem exists_latestLookup {capacity : Nat}
    (h : (e, shared) ∈ ((empty capacity).run rs).entries) :
    ∃ since, LatestLookup ((empty capacity).trace rs) e shared since := by
  induction rs using List.reverseRecOn with
  | nil => cases h
  | append_singleton rs r ih =>
      rw [run_concat] at h
      rw [trace_concat]
      rcases handle_cases ((empty capacity).run rs) r with
        rfl | ⟨-, hu, hsame⟩ | ⟨k, found, rfl, hok, hu⟩
      · cases h
      · rw [hsame] at h
        obtain ⟨since, hs⟩ := ih h
        refine ⟨_, hs.concat ?_⟩
        rw [hu]
        simp
      · rcases mem_entries_lookup hok h with heq | ⟨hold, hne⟩
        · cases heq
          refine ⟨[], ?_, List.not_mem_nil⟩
          rw [handle, hok]
          exact List.suffix_append _ _
        · obtain ⟨since, hs⟩ := ih hold
          refine ⟨_, hs.concat ?_⟩
          rw [hu]
          intro hk
          exact hne (Option.some.inj hk).symm

/-! ### How long an expression is remembered -/

/-- Between two clears the expressions that were looked up after another one are the end of the
list of recent expressions. -/
theorem LatestLookup.recent (h : LatestLookup (c.trace rs) e shared since)
    (hclear : ∀ t ∈ since, t.1 ≠ .clear) :
    ∃ front, c.recent rs = front ++ e :: (since.filterMap used?).dedup := by
  induction rs using List.reverseRecOn generalizing since with
  | nil => cases h.suffix.mem List.mem_cons_self
  | append_singleton rs r ih =>
      rw [trace_concat] at h
      rcases h.of_concat with ⟨rfl, rfl, hanswer⟩ | ⟨between, rfl, hb, hne⟩
      · refine ⟨(c.recent rs).filter (· != e), ?_⟩
        rw [recent_concat_of_used (by simp) (by rw [hanswer]; rfl)]
        rfl
      · obtain ⟨front, hf⟩ := ih hb fun t ht => hclear t (List.mem_append_left _ ht)
        have hr : r ≠ .clear := hclear _ (List.mem_append_right _ (List.mem_singleton_self _))
        rw [List.filterMap_append]
        cases hu : used? (r, ((c.run rs).handle r).1) with
        | none =>
            refine ⟨front, ?_⟩
            rw [recent_concat_of_not_used hr hu, hf, List.filterMap_cons_none hu,
              List.filterMap_nil, List.append_nil]
        | some k =>
            have hek : e ≠ k := by
              rintro rfl
              exact hne hu
            refine ⟨front.filter (· != k), ?_⟩
            rw [recent_concat_of_used hr hu, hf, List.filterMap_cons_some hu, List.filterMap_nil,
              dedup_concat, List.filter_append, List.filter_cons_of_pos (by simpa using hek),
              List.append_assoc, List.cons_append]

theorem LatestLookup.not_mem_recent (h : LatestLookup (c.trace rs) e shared since)
    (hclear : ¬ ∀ t ∈ since, t.1 ≠ .clear) : e ∉ c.recent rs := by
  induction rs using List.reverseRecOn generalizing since with
  | nil => cases h.suffix.mem List.mem_cons_self
  | append_singleton rs r ih =>
      rw [trace_concat] at h
      rcases h.of_concat with ⟨rfl, -, -⟩ | ⟨between, rfl, hb, hne⟩
      · exact absurd (fun t ht => absurd ht List.not_mem_nil) hclear
      · by_cases hr : r = .clear
        · subst hr
          rw [recent_concat_clear]
          exact List.not_mem_nil
        have hmem : e ∉ c.recent rs := by
          apply ih hb
          intro hall
          apply hclear
          intro t ht
          rcases List.mem_append.mp ht with ht | ht
          · exact hall t ht
          · rw [List.mem_singleton.mp ht]
            exact hr
        cases hu : used? (r, ((c.run rs).handle r).1) with
        | none =>
            rw [recent_concat_of_not_used hr hu]
            exact hmem
        | some k =>
            rw [recent_concat_of_used hr hu, List.mem_append, List.mem_singleton, not_or]
            refine ⟨fun hf => hmem (List.mem_of_mem_filter hf), ?_⟩
            rintro rfl
            exact hne hu

theorem mem_rtake_append_cons_iff {α : Type} {front back : List α} {a : α}
    (h : (front ++ a :: back).Nodup) (n : Nat) :
    a ∈ (front ++ a :: back).rtake n ↔ back.length < n := by
  obtain ⟨-, hback, hfront⟩ := List.nodup_append.mp h
  constructor
  · intro hmem
    by_contra hle
    rw [List.append_cons, rtake_append_of_le (Nat.not_lt.mp hle)] at hmem
    exact (List.nodup_cons.mp hback).1 (List.mem_of_mem_drop hmem)
  · intro hlt
    have hlen : front.length + (a :: back).length - n ≤ front.length := by
      rw [List.length_cons]
      omega
    unfold List.rtake
    rw [List.length_append, List.drop_append_of_le_length hlen]
    exact List.mem_append_right _ List.mem_cons_self

/-- **An expression is remembered exactly as long as its entry is retained.** -/
theorem mem_keys_iff_retained {capacity : Nat}
    (h : LatestLookup ((empty capacity).trace rs) e shared since) :
    e ∈ ((empty capacity).run rs).keys ↔ Retained capacity since := by
  rw [keys_run]
  constructor
  · intro hmem
    have hclear : ∀ t ∈ since, t.1 ≠ .clear := by
      by_contra hclear
      exact h.not_mem_recent hclear (List.mem_of_mem_drop hmem)
    obtain ⟨front, hrecent⟩ := h.recent hclear
    have hnodup : ((empty capacity).recent rs).Nodup := nodup_recent
    rw [hrecent] at hmem hnodup
    have hfew := (mem_rtake_append_cons_iff hnodup capacity).mp hmem
    exact ⟨Nat.one_le_of_lt hfew, hclear, hfew⟩
  · intro hr
    obtain ⟨front, hrecent⟩ := h.recent hr.not_cleared
    have hnodup : ((empty capacity).recent rs).Nodup := nodup_recent
    rw [hrecent] at hnodup ⊢
    exact (mem_rtake_append_cons_iff hnodup capacity).mpr hr.few

end latest

/-! ### Sharing -/

/-- A lookup of a remembered expression answers the path of its latest lookup, and any other
successful lookup a path that was never answered before. -/
theorem id_of_lookup {capacity : Nat} {rs : List Request} {e : String} {shared : Shared}
    (h : (((empty capacity).run rs).lookup e).1 = .ok shared) :
    (e ∈ ((empty capacity).run rs).keys ∧
      ∃ since, LatestLookup ((empty capacity).trace rs) e shared since) ∨
    (e ∉ ((empty capacity).run rs).keys ∧
      ∀ a ∈ (empty capacity).answers rs, a.2.id ≠ shared.id) := by
  by_cases he : e ∈ ((empty capacity).run rs).keys
  · obtain ⟨found, hmem, hl⟩ := lookup_of_mem he
    rw [hl] at h
    cases h
    exact .inl ⟨he, exists_latestLookup hmem⟩
  · refine .inr ⟨he, ?_⟩
    intro a ha
    cases ht : Path.parse e with
    | error err =>
        rw [lookup_of_parse_error he ht] at h
        cases h
    | ok path =>
        rw [lookup_of_not_mem he ht] at h
        cases h
        exact Nat.ne_of_lt ((owned_run capacity rs).numbered a ha)

theorem path_of_lookup (capacity : Nat) (rs : List Request) (e : String) :
    (((empty capacity).run rs).lookup e).1.map Shared.path = Path.parse e := by
  by_cases he : e ∈ ((empty capacity).run rs).keys
  · obtain ⟨shared, hmem, hl⟩ := lookup_of_mem he
    have howned := owned_run capacity rs
    rw [hl, howned.compiled _ (howned.remembered _ hmem)]
    rfl
  · cases ht : Path.parse e with
    | error err =>
        rw [lookup_of_parse_error he ht]
        rfl
    | ok path =>
        rw [lookup_of_not_mem he ht]
        rfl

/-- **Transparency and sharing.**  After every history of a cache that started empty, a lookup
answers the path or the error that reading the expression answers, and a peek only this path.
A successful lookup shares the path of the latest successful lookup of the expression exactly if
the entry of that lookup was retained since; if there is no such lookup, or its entry was not
retained, the path is one that was never answered before.  Paths that were answered for different
expressions are never shared. -/
theorem shares_retained (capacity : Nat) (rs : List Request) (e : String) :
    (((empty capacity).run rs).lookup e).1.map Shared.path = Path.parse e ∧
    (∀ shared, ((empty capacity).run rs).peek e = some shared →
      Path.parse e = .ok shared.path) ∧
    (∀ shared, (((empty capacity).run rs).lookup e).1 = .ok shared →
      (∀ latest since, LatestLookup ((empty capacity).trace rs) e latest since →
        (shared.id = latest.id ↔ Retained capacity since)) ∧
      ((∀ latest since, LatestLookup ((empty capacity).trace rs) e latest since →
          ¬ Retained capacity since) →
        ∀ a ∈ (empty capacity).answers rs, a.2.id ≠ shared.id)) ∧
    ∀ a ∈ (empty capacity).answers rs, ∀ b ∈ (empty capacity).answers rs,
      a.2.id = b.2.id → a.1 = b.1 := by
  have howned := owned_run capacity rs
  refine ⟨path_of_lookup capacity rs e, ?_, ?_, ?_⟩
  · intro shared hp
    exact howned.compiled _ (howned.remembered _ (mem_entries_of_peek hp))
  · intro shared hok
    rcases id_of_lookup hok with ⟨he, since', hshared⟩ | ⟨he, hnew⟩
    · refine ⟨?_, ?_⟩
      · intro latest since hlatest
        have hsame : shared = latest := hshared.unique hlatest
        exact iff_of_true (by rw [hsame]) ((mem_keys_iff_retained hlatest).mp he)
      · intro hnone
        exact absurd ((mem_keys_iff_retained hshared).mp he) (hnone shared since' hshared)
    · refine ⟨?_, fun _ => hnew⟩
      intro latest since hlatest
      have hne := hnew _ hlatest.mem_answers
      exact iff_of_false (Ne.symm hne) (mt (mem_keys_iff_retained hlatest).mpr he)
  · intro a ha b hb hab
    rw [howned.apart a ha b hb hab]

example : ((empty 1).answers [.lookup "$", .lookup "$", .lookup "$[0]", .lookup "$"]).map
    (fun a => a.2.id) = [0, 0, 1, 2] := by
  decide +kernel

end PathQuery.Cache
