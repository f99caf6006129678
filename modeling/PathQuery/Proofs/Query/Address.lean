import PathQuery.Proofs.Path.Canonical
import PathQuery.Proofs.Query.Member
import PathQuery.Proofs.Query.Slice

/-! # Addresses

A node that is reached through items and through entries with ordinary keys has a path of its own:
the index of each item and the name of each entry on the way (`Address`).  The keys that have a name
are texts that are not empty, and numbers and truth values if no other key is their text
(`KeyName`).

The path of a node is read back from its expression and selects this node and no other
(`parse_address`).  For each step this says that a name finds the entry it was taken from
(`child_of_names`). -/

namespace PathQuery.Doc

/-- The name of a key among entries. -/
inductive KeyName (entries : List (Doc × Doc)) : Doc → String → Prop
  | text {s : String} : s ≠ "" → KeyName entries (.string s) s
  | scalar {k : Doc} {t : String} : k.numberText? = some t → (∀ e ∈ entries, e.1 ≠ .string t) →
      KeyName entries k t

/-- The steps that lead to a location through the items of sequences and the named entries of
mappings. -/
inductive Address : Doc → List Nat → List Step → Prop
  | root {d : Doc} : Address d [] []
  | item {items : List Doc} {i : Nat} {c : Doc} {l : List Nat} {steps : List Step} :
      items[i]? = some c → Address c l steps →
      Address (.seq items) (i :: l) (.index i :: steps)
  | entry {entries : List (Doc × Doc)} {i : Nat} {k v : Doc} {name : String} {l : List Nat}
      {steps : List Step} :
      entries[i]? = some (k, v) → KeyName entries k name → Address v l steps →
      Address (.map entries) (i :: l) (.name name :: steps)

/-! ### Steps to a child -/

theorem KeyName.ne_empty {entries : List (Doc × Doc)} {k : Doc} {name : String}
    (h : KeyName entries k name) : name ≠ "" := by
  cases h with
  | text hs => exact hs
  | scalar ht _ => exact ne_empty_of_numberText? ht

theorem KeyName.names {entries : List (Doc × Doc)} {i : Nat} {k v : Doc} {name : String}
    (h : KeyName entries k name) (hi : entries[i]? = some (k, v)) : Names entries name i := by
  cases h with
  | text _ => exact .text hi
  | scalar ht hno => exact .scalar hi ht hno

theorem element_of_getElem? {items : List Doc} {i : Nat} {c : Doc} (h : items[i]? = some c) :
    element (.seq items) i = [c] := by
  have hget : elementAt? items i = some c := by
    rw [elementAt?_of_nonneg items (Int.natCast_nonneg i)]
    exact h
  show (elementAt? items i).toList = [c]
  rw [hget]
  rfl

theorem child_of_names {entries : List (Doc × Doc)} (hkeys : (map entries).DistinctKeys)
    (hnumerals : (map entries).DistinctNumerals) {i : Nat} {k v : Doc} {name : String}
    (hi : entries[i]? = some (k, v)) (h : Names entries name i) :
    child (.map entries) name = [v] := by
  have hposition : memberPosition? entries name = some i :=
    (memberPosition?_eq_some_iff (fun _ _ => Names.unique hkeys hnumerals) i).mpr h
  show (member? entries name).toList = [v]
  rw [member?_eq_bind, hposition, Option.bind_some, getElem?_children_map, hi]
  rfl

/-! ### Addresses -/

theorem Address.canonical {d : Doc} {l : List Nat} {steps : List Step} (h : Address d l steps) :
    ∀ s ∈ steps, s.IsCanonical := by
  induction h with
  | root =>
      intro s hs
      cases hs
  | item _ _ ih => exact List.forall_mem_cons.mpr ⟨trivial, ih⟩
  | entry _ hname _ ih => exact List.forall_mem_cons.mpr ⟨hname.ne_empty, ih⟩

/-- A step that selects one node hands this node to the other steps. -/
theorem eval_cons_of_select {s : Step} {d c : Doc} (h : s.select d = [c]) (steps : List Step) :
    Path.eval ⟨s :: steps⟩ d = Path.eval ⟨steps⟩ c := by
  unfold Path.eval
  rw [Step.applyAll_cons, List.flatMap_singleton, h]

theorem Address.eval_eq {d : Doc} {l : List Nat} {steps : List Step} (h : Address d l steps)
    (hkeys : d.DistinctKeys) (hnumerals : d.DistinctNumerals) :
    ∃ n, d.at? l = some n ∧ Path.eval ⟨steps⟩ d = [n] := by
  induction h with
  | @root d => exact ⟨d, rfl, rfl⟩
  | @item items i c l steps hc _ ih =>
      have hchild : (children (.seq items))[i]? = some c := hc
      have hmem := mem_nodes_of_child hchild
      obtain ⟨n, hn, heval⟩ := ih (hkeys.of_mem_nodes hmem) (hnumerals.of_mem_nodes hmem)
      have hselect : (Step.index i).select (.seq items) = [c] := element_of_getElem? hc
      refine ⟨n, ?_, ?_⟩
      · rw [at?_cons hchild]
        exact hn
      · rw [eval_cons_of_select hselect]
        exact heval
  | @entry entries i k v name l steps hi hname _ ih =>
      have hchild : (children (.map entries))[i]? = some v := by
        rw [getElem?_children_map, hi, Option.map_some]
      have hmem := mem_nodes_of_child hchild
      obtain ⟨n, hn, heval⟩ := ih (hkeys.of_mem_nodes hmem) (hnumerals.of_mem_nodes hmem)
      have hselect : (Step.name name).select (.map entries) = [v] :=
        child_of_names hkeys hnumerals hi (hname.names hi)
      refine ⟨n, ?_, ?_⟩
      · rw [at?_cons hchild]
        exact hn
      · rw [eval_cons_of_select hselect]
        exact heval

/-- **Addresses.**  In a document whose keys differ, where different numbers are written
differently, the steps of an address are read back from their expression, and they select the node
at the location of the address and nothing else.  The positions on the way are words, as they are in
any sequence that fits into memory. -/
theorem parse_address {d : Doc} {l : List Nat} {steps : List Step} (hkeys : d.DistinctKeys)
    (hnumerals : d.DistinctNumerals) (hwords : ∀ s ∈ steps, s.InWords) (h : Address d l steps) :
    Path.parse (Path.text ⟨steps⟩) = .ok ⟨steps⟩ ∧
    ∃ n, d.at? l = some n ∧ Path.eval ⟨steps⟩ d = [n] :=
  ⟨parse_of_segments (segments_of_canonical hwords h.canonical), h.eval_eq hkeys hnumerals⟩

/-- A key that is also the text of a number, and below it a double and a truth value as keys. -/
def numeralKeys : Doc :=
  .map [(.int 1, .null), (.string "1", .seq [.null, .map [(.int 15, .int 0),
    (.float ⟨0x3FF8000000000000⟩, .map [(.string "it's", .null), (.bool true, .int 7)])]])]

/-- The text `1` is found before the number, and the double 1.5 by its digits. -/
theorem parse_address_numeralKeys : numeralKeys.DistinctKeys ∧ numeralKeys.DistinctNumerals ∧
    numeralKeys.at? [1, 1, 1, 1] = some (.int 7) ∧
    Path.parse "$['1'][1]['1.5']['true']" =
      .ok ⟨[.name "1", .index 1, .name "1.5", .name "true"]⟩ ∧
    Path.eval ⟨[.name "1", .index 1, .name "1.5", .name "true"]⟩ numeralKeys = [.int 7] := by
  have hfloat : floatText ⟨0x3FF8000000000000⟩ = "1.5" := by decide +kernel
  have hsame : Binary64.same ⟨0x3FF8000000000000⟩ ⟨0x3FF8000000000000⟩ = true := by decide +kernel
  have hkeys : numeralKeys.DistinctKeys := by
    simp [numeralKeys, DistinctKeys, mappings, sameKey]
  have hnumerals : numeralKeys.DistinctNumerals := by
    have hint : Int.repr 15 = "15" := by decide
    simp [numeralKeys, DistinctNumerals, mappings, isNumber, numberText?, sameKey, hfloat, hint,
      hsame, -Prod.forall, -List.mem_cons, List.forall_mem_cons]
  have haddress : Address numeralKeys [1, 1, 1, 1]
      [.name "1", .index 1, .name "1.5", .name "true"] := by
    refine .entry rfl (.text (by decide)) (.item rfl ?_)
    refine .entry rfl (.scalar (congrArg some hfloat) ?_) (.entry rfl (.scalar rfl ?_) .root)
    · simp
    · simp
  obtain ⟨hparse, n, hn, heval⟩ := parse_address hkeys hnumerals (by decide) haddress
  cases hn
  exact ⟨hkeys, hnumerals, rfl, hparse, heval⟩

end PathQuery.Doc
