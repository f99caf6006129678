import PathQuery.Proofs.Doc.KeyText
import PathQuery.Proofs.Doc.Location
import PathQuery.Query

/-! # The entry that a name finds

A name finds an entry of a mapping in two ways: by a key that is this text, and else by a number or
a truth value that is written like this (`Names`).  The reader of a mapping goes through the entries
in their order, twice if need be, and answers the first one that fits (`memberPosition?`).

Where all keys differ and different numbers are written differently, at most one entry fits
(`Names.unique`), so that the order of the entries has no part in the answer
(`memberPosition?_eq_some_iff`). -/

namespace PathQuery.Doc

/-- The entry at a position is the one of a name: its key is the name, or no key is the name and
its key is a number or a truth value written like the name. -/
inductive Names (entries : List (Doc × Doc)) (name : String) : Nat → Prop
  | text {i : Nat} {v : Doc} : entries[i]? = some (.string name, v) → Names entries name i
  | scalar {i : Nat} {k v : Doc} : entries[i]? = some (k, v) → k.numberText? = some name →
      (∀ e ∈ entries, e.1 ≠ .string name) → Names entries name i

/-- Whether the key of an entry is a text. -/
def hasText (name : String) (e : Doc × Doc) : Bool :=
  match e.1 with
  | .string s => s == name
  | _ => false

/-- Whether the key of an entry is a number or a truth value with a text. -/
def hasNumeral (name : String) (e : Doc × Doc) : Bool := e.1.numberText? == some name

/-- The position of the entry that is found for a name. -/
def memberPosition? (entries : List (Doc × Doc)) (name : String) : Option Nat :=
  (entries.findIdx? (hasText name)).or (entries.findIdx? (hasNumeral name))

/-! ### The search -/

theorem hasText_iff (name : String) (e : Doc × Doc) : hasText name e = true ↔ e.1 = .string name := by
  obtain ⟨k, v⟩ := e
  cases k <;> simp [hasText]

theorem member?_eq_find? (entries : List (Doc × Doc)) (name : String) :
    member? entries name =
      ((entries.find? (hasText name)).or (entries.find? (hasNumeral name))).map Prod.snd := by
  have hfind : ∀ p : Doc × Doc → Bool, (∀ k v, p (k, v) = hasText name (k, v)) →
      entries.find? p = entries.find? (hasText name) := by
    intro p hp
    exact congrArg (entries.find? ·) (funext fun e => hp e.1 e.2)
  unfold member?
  dsimp only
  rw [hfind _ fun k v => by cases k <;> rfl]
  cases entries.find? (hasText name) <;> rfl

theorem member?_eq_bind (entries : List (Doc × Doc)) (name : String) :
    member? entries name =
      (memberPosition? entries name).bind fun i => (children (.map entries))[i]? := by
  rw [member?_eq_find?, List.find?_eq_bind_findIdx?_getElem?, List.find?_eq_bind_findIdx?_getElem?]
  unfold memberPosition?
  simp only [getElem?_children_map]
  cases htext : entries.findIdx? (hasText name) with
  | none =>
      rw [Option.bind_none, Option.none_or, Option.none_or, Option.map_bind]
      rfl
  | some i =>
      obtain ⟨hi, -, -⟩ := List.findIdx?_eq_some_iff_getElem.mp htext
      simp [List.getElem?_eq_getElem hi]

theorem names_of_memberPosition? {entries : List (Doc × Doc)} {name : String} {i : Nat}
    (h : memberPosition? entries name = some i) : Names entries name i := by
  unfold memberPosition? at h
  cases htext : entries.findIdx? (hasText name) with
  | some j =>
      rw [htext] at h
      cases h
      obtain ⟨hi, hkey, -⟩ := List.findIdx?_eq_some_iff_getElem.mp htext
      have hget : entries[i]? = some (entries[i].1, entries[i].2) := List.getElem?_eq_getElem hi
      rw [(hasText_iff name _).mp hkey] at hget
      exact .text hget
  | none =>
      rw [htext, Option.none_or] at h
      obtain ⟨hi, hkey, -⟩ := List.findIdx?_eq_some_iff_getElem.mp h
      refine .scalar (List.getElem?_eq_getElem hi) (eq_of_beq hkey) ?_
      intro e he hname
      have hno := List.findIdx?_eq_none_iff.mp htext e he
      rw [(hasText_iff name e).mpr hname] at hno
      cases hno

theorem Names.exists_memberPosition? {entries : List (Doc × Doc)} {name : String} {i : Nat}
    (h : Names entries name i) : ∃ j, memberPosition? entries name = some j := by
  unfold memberPosition?
  cases htext : entries.findIdx? (hasText name) with
  | some j => exact ⟨j, rfl⟩
  | none =>
      have hno := List.findIdx?_eq_none_iff.mp htext
      cases h with
      | text hi =>
          have hkey := hno _ (List.mem_of_getElem? hi)
          rw [(hasText_iff name _).mpr rfl] at hkey
          cases hkey
      | scalar hi hnumeral _ =>
          apply Option.isSome_iff_exists.mp
          rw [Option.none_or, List.findIdx?_isSome, List.any_eq_true]
          exact ⟨_, List.mem_of_getElem? hi, beq_iff_eq.mpr hnumeral⟩

/-- Where a name has one entry, this is the one that is found. -/
theorem memberPosition?_eq_some_iff {entries : List (Doc × Doc)} {name : String}
    (unique : ∀ i j, Names entries name i → Names entries name j → i = j) (i : Nat) :
    memberPosition? entries name = some i ↔ Names entries name i := by
  constructor
  · exact names_of_memberPosition?
  · intro h
    obtain ⟨j, hj⟩ := h.exists_memberPosition?
    rw [hj, unique i j h (names_of_memberPosition? hj)]

/-! ### Documents in which a name has one entry -/

/-- The entries of the mappings among the nodes of a document. -/
def mappings (d : Doc) : List (List (Doc × Doc)) :=
  d.nodes.filterMap fun
    | .map entries => some entries
    | _ => none

/-- The keys of each mapping differ. -/
def DistinctKeys (d : Doc) : Prop :=
  ∀ entries ∈ d.mappings, entries.Pairwise fun e f => sameKey e.1 f.1 = false

/-- In each mapping, keys that are different numbers are written differently. -/
def DistinctNumerals (d : Doc) : Prop :=
  ∀ entries ∈ d.mappings, ∀ e ∈ entries, ∀ f ∈ entries, e.1.isNumber = true →
    f.1.isNumber = true → e.1.numberText? = f.1.numberText? → sameKey e.1 f.1 = true

instance (d : Doc) : Decidable d.DistinctKeys :=
  inferInstanceAs (Decidable (∀ entries ∈ d.mappings, List.Pairwise _ entries))

instance (d : Doc) : Decidable d.DistinctNumerals :=
  inferInstanceAs (Decidable (∀ entries ∈ d.mappings, ∀ e ∈ entries, ∀ f ∈ entries,
    e.1.isNumber = true → f.1.isNumber = true → e.1.numberText? = f.1.numberText? →
      sameKey e.1 f.1 = true))

theorem mem_mappings_iff {d : Doc} {entries : List (Doc × Doc)} :
    entries ∈ d.mappings ↔ .map entries ∈ d.nodes := by
  unfold mappings
  rw [List.mem_filterMap]
  constructor
  · rintro ⟨n, hn, he⟩
    split at he
    · cases he
      exact hn
    · cases he
  · intro h
    exact ⟨_, h, rfl⟩

theorem mappings_subset {d n : Doc} (h : n ∈ d.nodes) : n.mappings ⊆ d.mappings := by
  intro entries he
  exact mem_mappings_iff.mpr (nodes_subset h (mem_mappings_iff.mp he))

theorem DistinctKeys.of_mem_nodes {d n : Doc} (hd : d.DistinctKeys) (h : n ∈ d.nodes) :
    n.DistinctKeys :=
  fun entries he => hd entries (mappings_subset h he)

theorem DistinctNumerals.of_mem_nodes {d n : Doc} (hd : d.DistinctNumerals) (h : n ∈ d.nodes) :
    n.DistinctNumerals :=
  fun entries he => hd entries (mappings_subset h he)

section distinct
variable {entries : List (Doc × Doc)} {i j : Nat}

theorem position_eq_of_sameKey (hkeys : (map entries).DistinctKeys) {e f : Doc × Doc}
    (hi : entries[i]? = some e) (hj : entries[j]? = some f)
    (hsame : sameKey e.1 f.1 = true) (hsame' : sameKey f.1 e.1 = true) : i = j := by
  have hroot : entries ∈ (map entries).mappings := mem_mappings_iff.mpr (by simp)
  have hdiffer := List.pairwise_iff_getElem.mp (hkeys entries hroot)
  obtain ⟨hilt, rfl⟩ := List.getElem?_eq_some_iff.mp hi
  obtain ⟨hjlt, rfl⟩ := List.getElem?_eq_some_iff.mp hj
  rcases Nat.lt_trichotomy i j with hlt | heq | hlt
  · rw [hdiffer i j hilt hjlt hlt] at hsame
    cases hsame
  · exact heq
  · rw [hdiffer j i hjlt hilt hlt] at hsame'
    cases hsame'

/-- Keys with one text are the same key: numbers because they are written differently else, and a
number is not written like a truth value. -/
theorem sameKey_of_numberText? (hnumerals : (map entries).DistinctNumerals) {e f : Doc × Doc}
    (he : e ∈ entries) (hf : f ∈ entries) {t : String} (het : e.1.numberText? = some t)
    (hft : f.1.numberText? = some t) : sameKey e.1 f.1 = true := by
  have hroot : entries ∈ (map entries).mappings := mem_mappings_iff.mpr (by simp)
  have htext : e.1.numberText? = f.1.numberText? := het.trans hft.symm
  cases hek : e.1.isNumber with
  | true =>
      cases hfk : f.1.isNumber with
      | true => exact hnumerals entries hroot e he f hf hek hfk htext
      | false =>
          obtain ⟨b, hb⟩ := exists_bool_of_numberText? hft hfk
          rw [hb] at htext
          exact absurd htext (isNumber_ne_bool hek b)
  | false =>
      obtain ⟨a, ha⟩ := exists_bool_of_numberText? het hek
      rw [ha] at htext ⊢
      cases hfk : f.1.isNumber with
      | true => exact absurd htext.symm (isNumber_ne_bool hfk a)
      | false =>
          obtain ⟨b, hb⟩ := exists_bool_of_numberText? hft hfk
          rw [hb] at htext ⊢
          rw [numberText?_bool_inj htext, sameKey]
          exact beq_self_eq_true b

theorem Names.unique (hkeys : (map entries).DistinctKeys)
    (hnumerals : (map entries).DistinctNumerals) {name : String} (hi : Names entries name i)
    (hj : Names entries name j) : i = j := by
  have htext : sameKey (.string name) (.string name) = true := by
    rw [sameKey]
    exact beq_self_eq_true name
  cases hi with
  | text hi =>
      cases hj with
      | text hj => exact position_eq_of_sameKey hkeys hi hj htext htext
      | scalar _ _ hno => exact absurd rfl (hno _ (List.mem_of_getElem? hi))
  | scalar hi hit hno =>
      cases hj with
      | text hj => exact absurd rfl (hno _ (List.mem_of_getElem? hj))
      | scalar hj hjt _ =>
          have hmi := List.mem_of_getElem? hi
          have hmj := List.mem_of_getElem? hj
          exact position_eq_of_sameKey hkeys hi hj
            (sameKey_of_numberText? hnumerals hmi hmj hit hjt)
            (sameKey_of_numberText? hnumerals hmj hmi hjt hit)

end distinct

end PathQuery.Doc
