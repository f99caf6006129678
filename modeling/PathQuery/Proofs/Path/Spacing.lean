import Mathlib.Logic.Relation
import PathQuery.Proofs.Path.Element
import PathQuery.Proofs.Path.Quoting

/-! # Blanks around separators

Blanks behind an opening bracket, before the bracket that closes it and on either side of a comma or
a colon outside quotes have no meaning: an expression has the same steps with them and without them,
or it is none in both cases (`parse_spaced_iff`).

The grammar has blanks at the ends of elements and not around separators.  But a separator outside
quotes ends one element and begins the next in every reading, so that the blanks next to it are
blanks at their ends (`Spaced.separated_iff`), in each of the three kinds of lists
(`Spaced.content_iff`). -/

namespace PathQuery

open Grammar

variable {α : Type}

/-! ### Where blanks are put in -/

/-- A text and the same with blanks put in at one place: in front, behind, or on one side of a
separator outside quotes, which is one that an enclosed text stands before. -/
inductive Spaced : List Char → List Char → Prop
  | front {ws cs : List Char} : Blanks ws → Spaced cs (ws ++ cs)
  | back {ws cs : List Char} : Blanks ws → Spaced cs (cs ++ ws)
  | before {a b ws : List Char} {c : Char} :
      Enclosed a → IsSeparator c → Blanks ws → Spaced (a ++ c :: b) (a ++ ws ++ c :: b)
  | behind {a b ws : List Char} {c : Char} :
      Enclosed a → IsSeparator c → Blanks ws → Spaced (a ++ c :: b) (a ++ c :: (ws ++ b))

theorem Spaced.enclosed {cs cs' : List Char} (h : Spaced cs cs') (hcs : Enclosed cs) :
    Enclosed cs' := by
  cases h with
  | front hws => exact (enclosed_of_blanks hws).append hcs
  | back hws => exact hcs.append (enclosed_of_blanks hws)
  | before ha _ hws =>
      exact (ha.append (enclosed_of_blanks hws)).append (ha.of_enclosed_append hcs)
  | behind ha hc hws =>
      have hb := (ha.of_enclosed_append hcs).of_cons hc.ne_quote
      exact ha.append (.plain hc.ne_quote hc.ne_bracket ((enclosed_of_blanks hws).append hb))

/-! ### Lists and contents -/

/-- Blanks put in at one place change no text of elements. -/
theorem Spaced.separated_iff {H : List Char → α → Prop} (hH : Element H) {sep : Char}
    (hsep : IsSeparator sep) {cs cs' : List Char} {as : List α} (h : Spaced cs cs') :
    Separated sep H cs' as ↔ Separated sep H cs as := by
  cases h with
  | front hws => exact separated_front_iff hH hsep hws
  | back hws => exact separated_back_iff hH hsep hws
  | before ha hc hws =>
      have haws := ha.append (enclosed_of_blanks hws)
      rw [separated_append_iff hH hsep hc haws, separated_append_iff hH hsep hc ha]
      simp only [separated_back_iff hH hsep hws]
  | behind ha hc hws =>
      rw [separated_append_iff hH hsep hc ha, separated_append_iff hH hsep hc ha]
      simp only [separated_front_iff hH hsep hws]

theorem Spaced.content_iff {cs cs' : List Char} (h : Spaced cs cs') (s : Step) :
    Content cs' s ↔ Content cs s := by
  have hcomma : IsSeparator ',' := .inl rfl
  have hcolon : IsSeparator ':' := .inr rfl
  rw [PathQuery.content_iff, PathQuery.content_iff]
  simp only [h.separated_iff element_integer hcomma, h.separated_iff element_bound hcolon,
    h.separated_iff element_key hcomma]

/-! ### Expressions -/

theorem segments_append_iff {a b : List Char} {ss ts : List Step} (ha : Segments a ss) :
    Segments (a ++ b) ts ↔ ∃ us, Segments b us ∧ ts = ss ++ us := by
  rw [← readSegments_eq_ok_iff 0, readSegments_append ha, map_eq_ok_iff]
  simp only [readSegments_eq_ok_iff, @eq_comm _ ts]

/-- A bracket, perhaps with two dots in front of it, is a content and the segments behind it. -/
theorem segments_bracket_iff {dots content rest : List Char} {ts : List Step}
    (hdots : dots = [] ∨ dots = ['.', '.']) (henc : Enclosed content) :
    Segments (dots ++ '[' :: (content ++ ']' :: rest)) ts ↔ ∃ s us, Content content s ∧
      Segments rest us ∧ ts = (if dots = [] then s else s.deepen) :: us := by
  have hseg : ∃ opening next, readSegment 0 (dots ++ '[' :: (content ++ ']' :: rest)) =
      (Step.ofContent opening content).map
        fun s => (if dots = [] then s else s.deepen, next, rest) := by
    rcases hdots with rfl | rfl
    · exact ⟨_, _, readOpened_of_enclosed henc 0 rest⟩
    · refine ⟨2, 2 + 2 + Text.byteSize content, ?_⟩
      show (readOpened (0 + 2) _).map _ = _
      rw [readOpened_of_enclosed henc]
      cases Step.ofContent (0 + 2) content <;> rfl
  obtain ⟨opening, next, hseg⟩ := hseg
  rw [← readSegments_eq_ok_iff 0, readSegments_of_ne_nil 0 (by simp), hseg]
  constructor
  · intro h
    cases hs : Step.ofContent opening content with
    | error e =>
        rw [hs] at h
        cases h
    | ok s =>
        rw [hs] at h
        obtain ⟨us, hus, rfl⟩ := map_eq_ok_iff.mp h
        exact ⟨s, us, content_of_ofContent hs, segments_of_readSegments hus, rfl⟩
  · rintro ⟨s, us, hs, hus, rfl⟩
    rw [ofContent_of_content opening hs]
    exact map_eq_ok_iff.mpr ⟨us, readSegments_of_segments hus next, rfl⟩

theorem enclosed_of_findClose {front content back : String}
    (h : findClose (front ++ "[" ++ content ++ "]" ++ back) front.utf8ByteSize =
      .ok (front ++ "[" ++ content).utf8ByteSize) : Enclosed content.toList := by
  obtain ⟨a, m, b, hpath, henc, ha, hm⟩ := (findClose_eq_ok_iff _ _ _).mp h
  have hchars : front.toList ++ '[' :: (content.toList ++ ']' :: back.toList) =
      a ++ '[' :: (m ++ ']' :: b) := by
    rw [← hpath]
    simp [String.toList_append]
  have hfront : Text.byteSize front.toList = Text.byteSize a := by
    rw [ha, Text.byteSize_toList]
  obtain ⟨-, hrest⟩ := Text.front_eq_of_byteSize_eq hchars hfront
  have hsize : Text.byteSize content.toList = Text.byteSize m := by
    rw [Text.byteSize_toList]
    rw [String.utf8ByteSize_append, String.utf8ByteSize_append] at hm
    exact Nat.add_left_cancel hm
  obtain ⟨hcontent, -⟩ := Text.front_eq_of_byteSize_eq (List.cons.inj hrest).2 hsize
  rw [hcontent]
  exact henc

/-- An accepted expression with a bracket behind it, as its content and what follows. -/
theorem parse_bracket_iff {p dots content rest : String} {qs ts : List Step}
    (hp : Path.parse p = .ok ⟨qs⟩) (hdots : dots = "" ∨ dots = "..")
    (henc : Enclosed content.toList) :
    Path.parse (p ++ dots ++ "[" ++ content ++ "]" ++ rest) = .ok ⟨ts⟩ ↔
      ∃ s us, Content content.toList s ∧ Segments rest.toList us ∧
        ts = qs ++ (if dots.toList = [] then s else s.deepen) :: us := by
  obtain ⟨cs, hchars, hsegments⟩ := exists_segments_of_parse hp
  have hpath : (p ++ dots ++ "[" ++ content ++ "]" ++ rest).toList =
      '$' :: (cs ++ (dots.toList ++ '[' :: (content.toList ++ ']' :: rest.toList))) := by
    simp [String.toList_append, hchars]
  have hdots' : dots.toList = [] ∨ dots.toList = ['.', '.'] := by
    rcases hdots with rfl | rfl
    · exact .inl rfl
    · exact .inr rfl
  have hexpr : ∀ tail, Expression ('$' :: tail) ts ↔ Segments tail ts := fun tail =>
    ⟨fun ⟨h⟩ => h, .mk⟩
  rw [parse_eq_ok_iff, hpath, hexpr, segments_append_iff hsegments]
  simp only [segments_bracket_iff hdots' henc]
  constructor
  · rintro ⟨_, ⟨s, us, hs, hus, rfl⟩, rfl⟩
    exact ⟨s, us, hs, hus, rfl⟩
  · rintro ⟨s, us, hs, hus, rfl⟩
    exact ⟨_, ⟨s, us, hs, hus, rfl⟩, rfl⟩

/-- **Blanks around separators.**  Let a bracket, perhaps with two dots in front of it, follow an
accepted expression, and let it be closed where it is shown to be.  Blanks behind its opening
bracket, before its closing bracket and on either side of commas and colons outside quotes change
nothing: with them or without them, the whole expression has the same steps, or is none. -/
theorem parse_spaced_iff {p dots content content' rest : String}
    (hp : ∃ q, Path.parse p = .ok q) (hdots : dots = "" ∨ dots = "..")
    (hclose : findClose (p ++ dots ++ "[" ++ content ++ "]" ++ rest) (p ++ dots).utf8ByteSize =
      .ok (p ++ dots ++ "[" ++ content).utf8ByteSize)
    (hspaced : Relation.ReflTransGen Spaced content.toList content'.toList) (ts : List Step) :
    Path.parse (p ++ dots ++ "[" ++ content' ++ "]" ++ rest) = .ok ⟨ts⟩ ↔
      Path.parse (p ++ dots ++ "[" ++ content ++ "]" ++ rest) = .ok ⟨ts⟩ := by
  obtain ⟨⟨qs⟩, hp⟩ := hp
  have henc : Enclosed content.toList := enclosed_of_findClose hclose
  have hsame : Enclosed content'.toList ∧
      ∀ s, Content content'.toList s ↔ Content content.toList s := by
    generalize content'.toList = cs at hspaced
    induction hspaced with
    | refl => exact ⟨henc, fun _ => Iff.rfl⟩
    | tail _ hstep ih => exact ⟨hstep.enclosed ih.1, fun s => (hstep.content_iff s).trans (ih.2 s)⟩
  rw [parse_bracket_iff hp hdots henc, parse_bracket_iff hp hdots hsame.1]
  simp only [hsame.2]

/-- The inside of quotes stays as it is; blanks are put in around the key and behind the comma. -/
theorem parse_spaced_iff_quotedSeparators :
    Relation.ReflTransGen Spaced "'x, ]',7".toList " 'x, ]',\u2003 7".toList ∧
    Path.parse ("$[0]" ++ ".." ++ "[" ++ "'x, ]',7" ++ "]" ++ "[1]") =
      .ok ⟨[.index 0, .scan (.names ["x, ]", "7"]), .index 1]⟩ ∧
    Path.parse ("$[0]" ++ ".." ++ "[" ++ " 'x, ]',\u2003 7" ++ "]" ++ "[1]") =
      .ok ⟨[.index 0, .scan (.names ["x, ]", "7"]), .index 1]⟩ := by
  have hkey : Enclosed " 'x, ]'".toList :=
    .plain (by decide) (by decide) (.quoted (.plain (by decide) (by decide) (.plain (by decide)
      (by decide) (.plain (by decide) (by decide) (.plain (by decide) (by decide) .nil)))) .nil)
  have hspaced : Relation.ReflTransGen Spaced "'x, ]',7".toList " 'x, ]',\u2003 7".toList := by
    have hone : Blanks [' '] := (blanks_iff_allBlank _).mpr (by decide)
    have htwo : Blanks ['\u2003', ' '] := (blanks_iff_allBlank _).mpr (by decide)
    exact .tail (.single (.front hone)) (@Spaced.behind _ ['7'] _ ',' hkey (.inl rfl) htwo)
  have hp : Path.parse "$[0]" = .ok ⟨[.index 0]⟩ := by decide +kernel
  have hparse : Path.parse ("$[0]" ++ ".." ++ "[" ++ "'x, ]',7" ++ "]" ++ "[1]") =
      .ok ⟨[.index 0, .scan (.names ["x, ]", "7"]), .index 1]⟩ := by decide +kernel
  exact ⟨hspaced, hparse,
    (parse_spaced_iff ⟨_, hp⟩ (.inr rfl) (by decide +kernel) hspaced _).mpr hparse⟩

end PathQuery
