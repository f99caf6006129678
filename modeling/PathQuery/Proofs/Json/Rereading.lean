import Mathlib.Data.List.Forall2
import PathQuery.Json.Reader
import PathQuery.Proofs.Json.Document
import PathQuery.Proofs.Json.Scalar

/-! # Reading back documents in JSON

A document for JSON is written, and it is read back as itself if the keys of each mapping differ and
the containers are not nested too deeply (`read?_write`).

The reader is a machine that takes tokens one by one, so the statement about the text of one
document is about any state in which a value is due: the machine goes on behind the text as if it had
been given the document itself (`Written`).  Sequences and mappings repeat this for their contents
(`read_items`, `read_entries`). -/

namespace PathQuery.Json

open Doc

/-! ### The machine on texts -/

/-- The state after the tokens of a text. -/
def State.read (s : State) (cs : List Char) : Option State := (tokens? cs).bind s.run

theorem State.read_nil (s : State) : s.read [] = some s := by
  unfold read
  rw [tokens?, Option.bind_some, run_nil]

theorem State.read_cons {s : State} {c : Char} {cs rest : List Char} {t : Token}
    (hspace : isSpace c = false) (htoken : token? c cs = some (t, rest)) :
    s.read (c :: cs) = (s.next t).bind fun s' => s'.read rest := by
  unfold read
  rw [tokens?_cons hspace htoken]
  cases tokens? rest with
  | none => cases s.next t <;> rfl
  | some ts => exact s.run_cons t ts

/-- The states in which a value is due inside the containers of a stack. -/
inductive State.AwaitsValue : State → List Frame → Prop
  | value {stack : List Frame} : AwaitsValue (.value stack) stack
  | firstItem {stack : List Frame} : AwaitsValue (.firstItem stack) (.seq [] :: stack)

/-- The states in which a key is due behind some entries of a mapping. -/
inductive State.AwaitsKey : State → List (Doc × Doc) → List Frame → Prop
  | firstKey {stack : List Frame} : AwaitsKey (.firstKey stack) [] stack
  | nextKey {entries : List (Doc × Doc)} {stack : List Frame} :
      AwaitsKey (.nextKey entries stack) entries stack

theorem State.AwaitsValue.next {s : State} {stack : List Frame} (h : AwaitsValue s stack) {t : Token}
    (ht : t ≠ .closeSeq) : s.next t = beginValue stack t := by
  cases h with
  | value => rfl
  | firstItem =>
      cases t with
      | closeSeq => exact absurd rfl ht
      | _ => rfl

theorem State.AwaitsKey.next {s : State} {entries : List (Doc × Doc)} {stack : List Frame}
    (h : AwaitsKey s entries stack) {k : String} (hk : ∀ e ∈ entries, e.1 ≠ .string k) :
    s.next (.scalar (.string k)) = some (.colon entries (.string k) stack) := by
  have hkey : afterKey entries stack (.scalar (.string k)) =
      some (.colon entries (.string k) stack) := by
    rw [afterKey, hasKey_string_eq_false hk, if_neg Bool.false_ne_true]
  cases h with
  | firstKey => exact hkey
  | nextKey => exact hkey

/-! ### Written documents -/

/-- A text of a document: it is one line that is not blank, and where a value is due, the machine
takes it for the document. -/
structure Written (cs : List Char) (d : Doc) : Prop where
  printable : ∀ c ∈ cs, 0x20 ≤ c.toNat
  not_blank : ∃ c ∈ cs, Text.isBlank c = false
  read : ∀ {s : State} {stack : List Frame} {rest : List Char}, s.AwaitsValue stack →
    stack.length + d.depth ≤ maxDepth → Ends rest →
      s.read (cs ++ rest) = (State.afterValue d stack).read rest

theorem Written.scalar {c : Char} {cs : List Char} {d : Doc}
    (hprintable : ∀ x ∈ c :: cs, 0x20 ≤ x.toNat) (hspace : isSpace c = false)
    (hblank : Text.isBlank c = false)
    (h : ∀ rest, Ends rest → token? c (cs ++ rest) = some (.scalar d, rest)) :
    Written (c :: cs) d where
  printable := hprintable
  not_blank := ⟨c, List.mem_cons_self, hblank⟩
  read {s stack rest} hs _ hrest := by
    rw [List.cons_append, State.read_cons hspace (h rest hrest), hs.next (by intro e; cases e)]
    rfl

theorem printable_escapeChar (c : Char) : ∀ x ∈ escapeChar c, 0x20 ≤ x.toNat := by
  unfold escapeChar
  split_ifs with h1 h2 h3 h4 h5 h6 h7 hcontrol
  -- Seven escapes are two fixed characters; what is left are the escape by digits and no escape.
  iterate 7 simp
  · have hdigit : ∀ n < 16, 0x20 ≤ (Nat.digitChar n).toNat := by decide
    have hhigh := hdigit (c.toNat / 16) (by omega)
    have hlow := hdigit (c.toNat % 16) (by omega)
    simp [hhigh, hlow]
  · simpa using hcontrol

theorem printable_quote (s : String) : ∀ c ∈ quote s, 0x20 ≤ c.toNat := by
  unfold quote
  rw [List.forall_mem_append, List.forall_mem_cons, List.forall_mem_flatMap]
  exact ⟨⟨by decide, fun c _ => printable_escapeChar c⟩, by simp⟩

theorem written_string (s : String) : Written (quote s) (.string s) := by
  refine .scalar (printable_quote s) (by decide) (by decide) ?_
  intro rest _
  show token? '"' (s.toList.flatMap escapeChar ++ ['"'] ++ rest) = _
  rw [List.append_assoc]
  exact token?_quote s rest

theorem isBlank_of_isSpace {c : Char} (h : isSpace c = true) : Text.isBlank c = true := by
  simp only [isSpace, Bool.or_eq_true, beq_iff_eq] at h
  rcases h with ((rfl | rfl) | rfl) | rfl <;> decide

theorem written_int {n : Int} (hlow : -(halfWordCount : Int) ≤ n) (hhigh : n < wordCount) :
    Written (decimal n) (.int n) := by
  have hliteral := literal_decimal n
  have hprintable : ∀ c ∈ decimal n, 0x20 ≤ c.toNat := by
    intro c hc
    rcases hliteral.chars c hc with hdigit | rfl
    · simp only [Char.isDigit, Bool.and_eq_true, decide_eq_true_eq] at hdigit
      have h48 : 48 ≤ c.toNat := UInt32.le_iff_toNat_le.mp hdigit.1
      omega
    · decide
  obtain ⟨c, cs, hcs⟩ := List.exists_cons_of_ne_nil hliteral.ne_nil
  have hblank : Text.isBlank c = false := hliteral.not_blank c (hcs ▸ List.mem_cons_self)
  have hspace : isSpace c = false := by
    apply Bool.eq_false_iff.mpr
    intro h
    rw [isBlank_of_isSpace h] at hblank
    cases hblank
  rw [hcs] at hprintable ⊢
  exact .scalar hprintable hspace hblank fun rest hrest => token?_decimal hlow hhigh hcs hrest

theorem written_null : Written "null".toList .null := by
  show Written ['n', 'u', 'l', 'l'] .null
  exact .scalar (by simp) (by decide) (by decide) fun _ _ => rfl

theorem written_bool (b : Bool) : Written (boolText b).toList (.bool b) := by
  cases b with
  | true =>
      show Written ['t', 'r', 'u', 'e'] (.bool true)
      exact .scalar (by simp) (by decide) (by decide) fun _ _ => rfl
  | false =>
      show Written ['f', 'a', 'l', 's', 'e'] (.bool false)
      exact .scalar (by simp) (by decide) (by decide) fun _ _ => rfl

/-! ### Containers -/

/-- The texts of items, separated by commas, are read up to the end of the sequence. -/
theorem read_items {parts : List (List Char)} {items : List Doc}
    (h : List.Forall₂ Written parts items) (hne : items ≠ []) {s : State} {done : List Doc}
    {stack : List Frame} {rest : List Char} (hs : s.AwaitsValue (.seq done :: stack))
    (hdepth : ∀ d ∈ items, stack.length + 1 + d.depth ≤ maxDepth) :
    s.read (joinWith [','] parts ++ ']' :: rest) =
      (State.afterValue (.seq (done.reverse ++ items)) stack).read rest := by
  -- Each item read is one more in front of `done`, and the comma leaves the machine awaiting a value.
  induction h generalizing s done with
  | nil => exact absurd rfl hne
  | @cons cs d parts items hcs hparts ih =>
      have hd : (Frame.seq done :: stack).length + d.depth ≤ maxDepth :=
        hdepth d List.mem_cons_self
      cases hparts with
      | nil =>
          rw [joinWith_singleton, hcs.read hs hd (ends_cons (by decide) rest)]
          show (State.separator (.seq (d :: done) :: stack)).read (']' :: rest) = _
          rw [State.read_cons (t := .closeSeq) (by decide) rfl]
          show (State.afterValue (.seq (d :: done).reverse) stack).read rest = _
          rw [List.reverse_cons]
      | @cons cs' d' parts items hcs' hparts =>
          rw [joinWith_cons_cons, List.append_assoc, List.append_assoc, List.singleton_append,
            hcs.read hs hd (ends_cons (by decide) _)]
          show (State.separator (.seq (d :: done) :: stack)).read (',' :: _) = _
          rw [State.read_cons (t := .comma) (by decide) rfl]
          show (State.value (.seq (d :: done) :: stack)).read _ = _
          rw [ih (by simp) .value fun e he => hdepth e (List.mem_cons_of_mem d he),
            List.reverse_cons, List.append_assoc, List.singleton_append]

/-- A text of an entry: the text of its key, a colon and a text of its value. -/
def WrittenEntry (part : List Char) (e : Doc × Doc) : Prop :=
  ∃ k cs, e.1 = .string k ∧ Written cs e.2 ∧ part = quote k ++ ':' :: cs

theorem WrittenEntry.printable {part : List Char} {e : Doc × Doc} (h : WrittenEntry part e) :
    ∀ c ∈ part, 0x20 ≤ c.toNat := by
  obtain ⟨k, cs, -, hcs, rfl⟩ := h
  rw [List.forall_mem_append, List.forall_mem_cons]
  exact ⟨printable_quote k, by decide, hcs.printable⟩

/-- The text of an entry is read where a key is due that the mapping does not have yet. -/
theorem WrittenEntry.read {part : List Char} {e : Doc × Doc} (h : WrittenEntry part e) {s : State}
    {done : List (Doc × Doc)} {stack : List Frame} {rest : List Char}
    (hs : s.AwaitsKey done stack) (hnew : ∀ f ∈ done, f.1 ≠ e.1)
    (hdepth : stack.length + 1 + e.2.depth ≤ maxDepth) (hrest : Ends rest) :
    s.read (part ++ rest) = (State.separator (.map (e :: done) .null :: stack)).read rest := by
  obtain ⟨k, v⟩ := e
  obtain ⟨k, cs, rfl, hcs, rfl⟩ := h
  have hkey : s.read (quote k ++ ':' :: cs ++ rest) =
      (State.colon done (.string k) stack).read (':' :: (cs ++ rest)) := by
    show s.read ('"' :: (k.toList.flatMap escapeChar ++ ['"'] ++ ':' :: cs ++ rest)) = _
    rw [List.append_assoc, List.append_assoc, List.singleton_append,
      State.read_cons (by decide) (token?_quote k (':' :: cs ++ rest)), hs.next hnew]
    rfl
  rw [hkey, State.read_cons (t := .colon) (by decide) rfl]
  exact hcs.read .value hdepth hrest

theorem read_entries {parts : List (List Char)} {entries : List (Doc × Doc)}
    (h : List.Forall₂ WrittenEntry parts entries) (hne : entries ≠ []) {s : State}
    {done : List (Doc × Doc)} {stack : List Frame} {rest : List Char}
    (hs : s.AwaitsKey done stack) (hnew : ∀ e ∈ entries, ∀ f ∈ done, f.1 ≠ e.1)
    (hkeys : entries.Pairwise fun e f => e.1 ≠ f.1)
    (hdepth : ∀ e ∈ entries, stack.length + 1 + e.2.depth ≤ maxDepth) :
    s.read (joinWith [','] parts ++ '\x7d' :: rest) =
      (State.afterValue (.map (done.reverse ++ entries)) stack).read rest := by
  induction h generalizing s done with
  | nil => exact absurd rfl hne
  | @cons part e parts entries hpart hparts ih =>
      have he := hdepth e List.mem_cons_self
      have hfirst := hnew e List.mem_cons_self
      cases hparts with
      | nil =>
          rw [joinWith_singleton, hpart.read hs hfirst he (ends_cons (by decide) rest),
            State.read_cons (t := .closeMap) (by decide) rfl]
          show (State.afterValue (.map (e :: done).reverse) stack).read rest = _
          rw [List.reverse_cons]
      | @cons part' e' parts entries hpart' hparts =>
          obtain ⟨hdiffer, hrest⟩ := List.pairwise_cons.mp hkeys
          rw [joinWith_cons_cons, List.append_assoc, List.append_assoc, List.singleton_append,
            hpart.read hs hfirst he (ends_cons (by decide) _),
            State.read_cons (t := .comma) (by decide) rfl]
          show (State.nextKey (e :: done) stack).read _ = _
          have hnewRest : ∀ f ∈ e' :: entries, ∀ g ∈ e :: done, g.1 ≠ f.1 := by
            intro f hf g hg
            rcases List.mem_cons.mp hg with rfl | hg
            · exact hdiffer f hf
            · exact hnew f (List.mem_cons_of_mem e hf) g hg
          rw [ih (by simp) .nextKey hnewRest hrest fun f hf => hdepth f (List.mem_cons_of_mem e hf),
            List.reverse_cons, List.append_assoc, List.singleton_append]

theorem forall_mem_joinWith {P : Char → Prop} {separator : Char} (hseparator : P separator)
    {parts : List (List Char)} (h : ∀ part ∈ parts, ∀ c ∈ part, P c) :
    ∀ c ∈ joinWith [separator] parts, P c := by
  induction parts with
  | nil => simp
  | cons part parts ih =>
      obtain ⟨hpart, hparts⟩ := List.forall_mem_cons.mp h
      cases parts with
      | nil => exact hpart
      | cons part' parts =>
          rw [joinWith_cons_cons, List.forall_mem_append, List.forall_mem_append]
          exact ⟨⟨hpart, List.forall_mem_singleton.mpr hseparator⟩, ih hparts⟩

theorem written_seq {parts : List (List Char)} {items : List Doc}
    (h : List.Forall₂ Written parts items) :
    Written ('[' :: joinWith [','] parts ++ [']']) (.seq items) where
  printable := by
    obtain ⟨hparts, -⟩ :=
      (List.forall₂_and_left parts items).mp (h.imp fun _ _ hcs => ⟨hcs.printable, hcs⟩)
    rw [List.forall_mem_append, List.forall_mem_cons]
    exact ⟨⟨by decide, forall_mem_joinWith (by decide) hparts⟩, by simp⟩
  not_blank := ⟨'[', List.mem_cons_self, by decide⟩
  read {s stack rest} hs hdepth hrest := by
    rw [depth] at hdepth
    have hopen : s.next .openSeq = some (.firstItem stack) := by
      rw [hs.next (by intro e; cases e), State.beginValue, if_pos (by omega)]
    rw [List.append_assoc, List.singleton_append, List.cons_append,
      State.read_cons (t := .openSeq) (by decide) rfl, hopen, Option.bind_some]
    by_cases hne : items = []
    · subst hne
      cases h
      rw [joinWith_nil, List.nil_append, State.read_cons (t := .closeSeq) (by decide) rfl]
      rfl
    · refine read_items h hne .firstItem fun d hd => ?_
      have := depth_le_itemsDepth hd
      omega

theorem written_map {parts : List (List Char)} {entries : List (Doc × Doc)}
    (h : List.Forall₂ WrittenEntry parts entries)
    (hkeys : entries.Pairwise fun e f => e.1 ≠ f.1) :
    Written ('\x7b' :: joinWith [','] parts ++ ['\x7d']) (.map entries) where
  printable := by
    obtain ⟨hparts, -⟩ :=
      (List.forall₂_and_left parts entries).mp (h.imp fun _ _ hpart => ⟨hpart.printable, hpart⟩)
    rw [List.forall_mem_append, List.forall_mem_cons]
    exact ⟨⟨by decide, forall_mem_joinWith (by decide) hparts⟩, by simp⟩
  not_blank := ⟨'\x7b', List.mem_cons_self, by decide⟩
  read {s stack rest} hs hdepth hrest := by
    rw [depth, entriesDepth_eq_itemsDepth] at hdepth
    have hopen : s.next .openMap = some (.firstKey stack) := by
      rw [hs.next (by intro e; cases e), State.beginValue, if_pos (by omega)]
    rw [List.append_assoc, List.singleton_append, List.cons_append,
      State.read_cons (t := .openMap) (by decide) rfl, hopen, Option.bind_some]
    by_cases hne : entries = []
    · subst hne
      cases h
      rw [joinWith_nil, List.nil_append, State.read_cons (t := .closeMap) (by decide) rfl]
      rfl
    · have hnew : ∀ e ∈ entries, ∀ f ∈ ([] : List (Doc × Doc)), f.1 ≠ e.1 := by simp
      refine read_entries h hne .firstKey hnew hkeys fun e he => ?_
      have := depth_le_itemsDepth (List.mem_map_of_mem (f := Prod.snd) he)
      omega

/-! ### Writing and reading -/

theorem exists_itemChars {items : List Doc}
    (h : ∀ d ∈ items, ∃ cs, chars d = .ok cs ∧ Written cs d) :
    ∃ parts, itemChars items = .ok parts ∧ List.Forall₂ Written parts items := by
  induction items with
  | nil => exact ⟨[], by rw [itemChars], .nil⟩
  | cons d items ih =>
      obtain ⟨hd, hitems⟩ := List.forall_mem_cons.mp h
      obtain ⟨cs, hchars, hcs⟩ := hd
      obtain ⟨parts, hitemChars, hparts⟩ := ih hitems
      refine ⟨cs :: parts, ?_, .cons hcs hparts⟩
      rw [itemChars, hchars, hitemChars]
      rfl

theorem exists_entryChars {entries : List (Doc × Doc)}
    (hkeys : ∀ e ∈ entries, ∃ s, e.1 = .string s)
    (h : ∀ e ∈ entries, ∃ cs, chars e.2 = .ok cs ∧ Written cs e.2) :
    ∃ parts, entryChars entries = .ok parts ∧ List.Forall₂ WrittenEntry parts entries := by
  induction entries with
  | nil => exact ⟨[], by rw [entryChars], .nil⟩
  | cons e entries ih =>
      obtain ⟨k, v⟩ := e
      obtain ⟨⟨s, rfl⟩, hrestKeys⟩ := List.forall_mem_cons.mp hkeys
      obtain ⟨⟨cs, hchars, hcs⟩, hrest⟩ := List.forall_mem_cons.mp h
      obtain ⟨parts, hentryChars, hparts⟩ := ih hrestKeys hrest
      refine ⟨(quote s ++ ':' :: cs) :: parts, ?_, .cons ⟨s, cs, rfl, hcs, rfl⟩ hparts⟩
      rw [entryChars, keyText, hchars, hentryChars]
      rfl

theorem exists_written {d : Doc} (hjson : d.IsJson) (hkeys : d.DistinctKeys) :
    ∃ cs, chars d = .ok cs ∧ Written cs d := by
  induction d using childrenInduction with
  | node d ih =>
      have hchild : ∀ c ∈ d.children, ∃ cs, chars c = .ok cs ∧ Written cs c := by
        intro c hc
        exact ih c hc (hjson.child hc) (hkeys.of_mem_nodes (mem_nodes_of_mem_children hc))
      have hroot := hjson.root
      cases d with
      | null => exact ⟨_, by rw [chars], written_null⟩
      | bool b => exact ⟨_, by rw [chars], written_bool b⟩
      | int n => exact ⟨_, by rw [chars], written_int hroot.1 hroot.2⟩
      | float x => exact hroot.elim
      | string s => exact ⟨_, by rw [chars], written_string s⟩
      | seq items =>
          obtain ⟨parts, hitemChars, hparts⟩ := @exists_itemChars items hchild
          exact ⟨_, by rw [chars, hitemChars]; rfl, written_seq hparts⟩
      | map entries =>
          have hvalues : ∀ e ∈ entries, ∃ cs, chars e.2 = .ok cs ∧ Written cs e.2 :=
            fun e he => hchild e.2 (List.mem_map_of_mem he)
          obtain ⟨parts, hentryChars, hparts⟩ := exists_entryChars hroot hvalues
          exact ⟨_, by rw [chars, hentryChars]; rfl, written_map hparts (hkeys.pairwise_ne hroot)⟩
      | tagged tag value => exact hroot.elim

/-- A text of a document that is not nested too deeply is read as the document. -/
theorem Written.read? {cs : List Char} {d : Doc} (h : Written cs d) (hdepth : d.depth ≤ maxDepth) :
    read? (String.ofList cs) = some d := by
  have hread : (State.value []).read cs = some (.finished d) := by
    have hall : (State.value []).read (cs ++ []) = (State.finished d).read [] :=
      h.read .value (by rwa [List.length_nil, Nat.zero_add]) ends_nil
    rwa [List.append_nil, State.read_nil] at hall
  obtain ⟨ts, htokens, hrun⟩ := Option.bind_eq_some_iff.mp hread
  unfold Json.read?
  rw [String.toList_ofList, htokens, Option.bind_some, ofTokens?, hrun]

/-- Documents for JSON are read back from what is written. -/
theorem read?_write {d : Doc} (hjson : d.IsJson) (hkeys : d.DistinctKeys)
    (hdepth : d.depth ≤ maxDepth) : ∃ text, write d = .ok text ∧ read? text = some d := by
  obtain ⟨cs, hchars, hcs⟩ := exists_written hjson hkeys
  refine ⟨String.ofList cs, ?_, hcs.read? hdepth⟩
  rw [write, hchars]
  rfl

end PathQuery.Json
