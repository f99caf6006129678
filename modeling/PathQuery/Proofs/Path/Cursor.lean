import PathQuery.Proofs.Path.Offence
import PathQuery.Proofs.Path.Unclosed
import PathQuery.Proofs.Text.Bytes

/-! # A cursor over an expression

`Path.parse` goes through the characters of an expression.  A cursor does the same reading and knows
nothing but the byte at which it stands: for every look at the text it cuts the expression at this
byte, it tells a bracket by its byte, and it moves on by one byte, by two, or to the byte behind a
closing bracket.  A cut inside a character would break it (`Move.broken`).

No cut is.  The text behind a cursor has the answer of the whole expression, and a move keeps this
or gives the answer (`Cursor.Sound.proceeds`).  So every cursor that is visited stands between two
characters, and the last one has the answer of `Path.parse` (`cuts_at_boundaries`). -/

namespace PathQuery

/-! ### Moves -/

/-- The search for the closing bracket, from the byte at `opening`.  If this is an opening bracket,
the expression is cut behind it, and there is no answer if the cut is inside a character. -/
def findCloseByByte? (expression : String) (opening : Nat) : Option (Except PathError Nat) :=
  let cs := expression.toList
  match Text.byteAt? cs opening with
  | none => some (.error (.ended .openBracket))
  | some byte =>
    if byte = '['.toUInt8 then
      (Text.dropBytes? (opening + 1) cs).map fun rest =>
        (splitClose opening false (opening + 1) rest).map fun r => opening + 1 + Text.byteSize r.1
    else
      match Text.dropBytes? opening cs with
      | some (found :: _) => some (.error (.unexpected opening found .openBracket))
      | _ => some (.error (.invalid (.insideCharacter opening byte)))

/-- Where a cursor is: in front of the dollar sign, between segments, or behind the two dots of a
segment. -/
inductive Place where
  | front
  | between
  | behindDots
  deriving DecidableEq, Repr

/-- The step of a bracket at a place. -/
def Place.stepOf : Place → Step → Step
  | .behindDots, s => s.deepen
  | _, s => s

/-- The byte at which the reader stands, the place that this is, and the steps read so far. -/
structure Cursor where
  position : Nat
  place : Place
  steps : List Step
  deriving DecidableEq, Repr

/-- What a move comes to: the next cursor, the answer for the expression, or a cut inside a
character. -/
inductive Move where
  | on (next : Cursor)
  | done (answer : Except PathError Path)
  | broken
  deriving DecidableEq, Repr

namespace Cursor

def start : Cursor := ⟨0, .front, []⟩

/-- The move over the bracket at the cursor. -/
def overBracket (expression : String) (c : Cursor) : Move :=
  match findCloseByByte? expression c.position with
  | none => .broken
  | some (.error e) => .done (.error e)
  | some (.ok close) =>
    match readBracket expression c.position close with
    | .error e => .done (.error e)
    | .ok step => .on ⟨close + 1, .between, c.steps ++ [c.place.stepOf step]⟩

/-- The move from a place, by the text that the cursor stands before. -/
def moveFrom (expression : String) (c : Cursor) : Place → List Char → Move
  | .front, [] => .done (.error (.invalid .emptyPath))
  | .front, found :: _ =>
    if found = '$' then .on ⟨c.position + 1, .between, c.steps⟩
    else .done (.error (.unexpected 0 found .pathStart))
  | .between, [] => .done (.ok ⟨c.steps⟩)
  | .between, '.' :: '.' :: _ => .on ⟨c.position + 2, .behindDots, c.steps⟩
  | .between, '[' :: _ => c.overBracket expression
  | .between, found :: _ => .done (.error (.unexpected c.position found .segmentStart))
  | .behindDots, [] => .done (.error (.ended .bracketAfterDots))
  | .behindDots, '[' :: _ => c.overBracket expression
  | .behindDots, found :: _ => .done (.error (.unexpected c.position found .bracketAfterDots))

def move (expression : String) (c : Cursor) : Move :=
  match Text.dropBytes? c.position expression.toList with
  | none => .broken
  | some rest => c.moveFrom expression c.place rest

/-- The cursors that come one after another from the one that begins. -/
inductive Visited (expression : String) : Cursor → Prop
  | start : Visited expression start
  | move {c next : Cursor} :
      Visited expression c → c.move expression = .on next → Visited expression next

end Cursor

/-! ### The search by bytes -/

/-- From a bracket, the search cuts behind a character of one byte. -/
theorem findCloseByByte?_of_charAt {expression : String} {opening : Nat}
    (h : Text.CharAt expression.toList opening '[') :
    findCloseByByte? expression opening = some (findClose expression opening) := by
  have hbyte := (Text.byteAt?_eq_some_iff rfl _ _).mpr h
  obtain ⟨rest, hdrop⟩ := (Text.charAt_iff_dropBytes? _ _ _).mp h
  have hbehind : Text.dropBytes? (opening + 1) expression.toList = some rest :=
    @Text.dropBytes?_add _ _ ['['] rest hdrop
  obtain ⟨front, hpath, hfront⟩ := (Text.dropBytes?_eq_some_iff _ _ _).mp hdrop
  unfold findCloseByByte?
  dsimp only
  rw [findClose_of_split hpath hfront, hbyte, hbehind]
  rfl

theorem findClose_of_ne {expression : String} {opening : Nat} {found : Char} {back : List Char}
    (h : Text.dropBytes? opening expression.toList = some (found :: back)) (hne : found ≠ '[') :
    findClose expression opening = .error (.unexpected opening found .openBracket) := by
  unfold findClose
  dsimp only
  rw [h]
  split
  · rename_i heq
    cases heq
    exact absurd rfl hne
  · rename_i heq
    cases heq
    rfl
  · rename_i heq
    cases heq
  · rename_i heq
    cases heq

/-- **The search by bytes has the answer of the search**, whatever stands at the offset. -/
theorem findCloseByByte?_eq (expression : String) (opening : Nat) :
    findCloseByByte? expression opening = some (findClose expression opening) := by
  by_cases hopen : Text.CharAt expression.toList opening '['
  · exact findCloseByByte?_of_charAt hopen
  have hbyte : ∀ byte, Text.byteAt? expression.toList opening = some byte → byte ≠ '['.toUInt8 := by
    rintro _ hat rfl
    exact hopen ((Text.byteAt?_eq_some_iff rfl _ _).mp hat)
  cases hdrop : Text.dropBytes? opening expression.toList with
  | none =>
      unfold findCloseByByte? findClose
      dsimp only
      rw [hdrop]
      cases hat : Text.byteAt? expression.toList opening with
      | none => rfl
      | some byte => exact if_neg (hbyte byte hat)
  | some rest =>
      have hend := Text.byteAt?_eq_none_iff_of_dropBytes? hdrop
      cases rest with
      | nil =>
          unfold findCloseByByte? findClose
          dsimp only
          rw [hdrop, hend.mpr rfl]
      | cons found back =>
          have hfound : found ≠ '[' := by
            rintro rfl
            exact hopen ((Text.charAt_iff_dropBytes? _ _ _).mpr ⟨back, hdrop⟩)
          obtain ⟨byte, hat⟩ := Option.ne_none_iff_exists'.mp
            (mt hend.mp (List.cons_ne_nil found back))
          unfold findCloseByByte?
          dsimp only
          rw [findClose_of_ne hdrop hfound, hat, hdrop]
          exact if_neg (hbyte byte hat)

/-! ### One move -/

/-- The answer for the text at byte `position`, behind segments with the given steps. -/
def answerFrom (position : Nat) (steps : List Step) (rest : List Char) : Except PathError Path :=
  (readSegments position rest).map fun ss => ⟨steps ++ ss⟩

theorem answerFrom_nil (position : Nat) (steps : List Step) :
    answerFrom position steps [] = .ok ⟨steps⟩ := by
  unfold answerFrom
  rw [readSegments_nil]
  show Except.ok (⟨steps ++ []⟩ : Path) = _
  rw [List.append_nil]

theorem answerFrom_of_error {position : Nat} {rest : List Char} {e : PathError}
    (h : readSegment position rest = .error e) (hne : rest ≠ []) (steps : List Step) :
    answerFrom position steps rest = .error e := by
  unfold answerFrom
  rw [readSegments_of_ne_nil position hne, h]
  rfl

theorem answerFrom_of_ok {position next : Nat} {rest back : List Char} {step : Step}
    (h : readSegment position rest = .ok (step, next, back)) (hne : rest ≠ [])
    (steps : List Step) :
    answerFrom position steps rest = answerFrom next (steps ++ [step]) back := by
  unfold answerFrom
  rw [readSegments_of_ne_nil position hne, h]
  dsimp only
  cases readSegments next back with
  | error e => rfl
  | ok ss =>
      show Except.ok (⟨steps ++ step :: ss⟩ : Path) = Except.ok ⟨steps ++ [step] ++ ss⟩
      rw [List.append_assoc]
      rfl

theorem answerFrom_of_readOpened {position opening : Nat} {text rest : List Char} {f : Step → Step}
    (h : readSegment position text = (readOpened opening rest).map (Prod.map f id))
    (hne : text ≠ []) (steps : List Step) :
    answerFrom position steps text =
      match readOpened opening rest with
      | .error e => .error e
      | .ok (step, next, back) => answerFrom next (steps ++ [f step]) back := by
  cases hread : readOpened opening rest with
  | error e =>
      rw [hread] at h
      exact answerFrom_of_error h hne steps
  | ok r =>
      rw [hread] at h
      exact answerFrom_of_ok h hne steps

namespace Cursor

variable {expression : String} {c : Cursor} {rest : List Char}

/-- The answer for the text from a cursor on.  The dots in front of it belong to the segment. -/
def answer (c : Cursor) (rest : List Char) : Except PathError Path :=
  match c.place with
  | .front => Path.ofChars rest
  | .between => answerFrom c.position c.steps rest
  | .behindDots => answerFrom (c.position - 2) c.steps ('.' :: '.' :: rest)

/-- A cursor stands before a text that has the answer of the whole expression. -/
structure Sound (expression : String) (c : Cursor) (rest : List Char) : Prop where
  behind : Text.dropBytes? c.position expression.toList = some rest
  answer_eq : c.answer rest = Path.parse expression
  front_eq : c.place = .front → c = start
  two_le : c.place = .behindDots → 2 ≤ c.position

theorem sound_start (expression : String) : Sound expression start expression.toList where
  behind := Text.dropBytes?_zero _
  answer_eq := rfl
  front_eq _ := rfl
  two_le := nofun

/-- What comes of a move: the answer for the expression, or a cursor further on. -/
def Proceeds (expression : String) (c : Cursor) : Prop :=
  c.move expression = .done (Path.parse expression) ∨
    ∃ next rest, c.move expression = .on next ∧ next.Sound expression rest ∧
      c.position < next.position

theorem overBracket_cases
    (h : Text.dropBytes? c.position expression.toList = some ('[' :: rest)) :
    (∃ e, readOpened c.position rest = .error e ∧ c.overBracket expression = .done (.error e)) ∨
      ∃ step next back, readOpened c.position rest = .ok (step, next, back) ∧
        c.overBracket expression = .on ⟨next, .between, c.steps ++ [c.place.stepOf step]⟩ ∧
        Text.dropBytes? next expression.toList = some back ∧ c.position < next := by
  obtain ⟨front, hpath, hfront⟩ := (Text.dropBytes?_eq_some_iff _ _ _).mp h
  unfold overBracket
  rw [findCloseByByte?_eq, findClose_of_split hpath hfront]
  cases hcut : splitClose c.position false (c.position + 1) rest with
  | error e =>
      refine .inl ⟨e, ?_, rfl⟩
      unfold readOpened
      rw [hcut]
      rfl
  | ok r =>
      obtain ⟨content, back⟩ := r
      obtain ⟨henc, rfl⟩ := (splitClose_eq_ok_iff _ _ _ _).mp hcut
      have hcontent : Text.dropBytes? (c.position + 1) expression.toList =
          some (content ++ ']' :: back) := @Text.dropBytes?_add _ _ ['['] (content ++ ']' :: back) h
      have hback : Text.dropBytes? (c.position + 1 + Text.byteSize content + 1)
          expression.toList = some back :=
        @Text.dropBytes?_add _ _ [']'] back (Text.dropBytes?_add hcontent)
      have hnext : c.position + 2 + Text.byteSize content =
          c.position + 1 + Text.byteSize content + 1 := by omega
      dsimp only [Except.map]
      rw [readOpened_of_enclosed henc, readBracket_of_split hpath hfront rfl, hnext]
      cases Step.ofContent c.position content with
      | error e => exact .inl ⟨e, rfl, rfl⟩
      | ok step => exact .inr ⟨step, _, back, rfl, rfl, hback, by omega⟩

theorem moveFrom_bracket {place : Place} (h : place ≠ .front) (rest : List Char) :
    c.moveFrom expression place ('[' :: rest) = c.overBracket expression := by
  cases place with
  | front => exact absurd rfl h
  | between => rfl
  | behindDots => rfl

theorem moveFrom_between_of_stray {found : Char} {tail : List Char} {expected : Expected}
    (h : Stray [] found tail expected) :
    c.moveFrom expression .between (found :: tail) =
      .done (.error (.unexpected c.position found expected)) := by
  cases h with
  | start hb hnext => exact moveFrom.eq_6 expression c found tail (fun more hd => hnext hd more) hb

theorem moveFrom_behindDots_of_ne {found : Char} (h : found ≠ '[') (tail : List Char) :
    c.moveFrom expression .behindDots (found :: tail) =
      .done (.error (.unexpected c.position found .bracketAfterDots)) :=
  moveFrom.eq_9 expression c found tail h

theorem Sound.move_eq (h : c.Sound expression rest) :
    c.move expression = c.moveFrom expression c.place rest := by
  unfold move
  rw [h.behind]

theorem Sound.proceeds_front (h : c.Sound expression rest) (hplace : c.place = .front) :
    c.Proceeds expression := by
  obtain rfl := h.front_eq hplace
  have hanswer : Path.ofChars rest = Path.parse expression := h.answer_eq
  unfold Proceeds
  rw [h.move_eq, ← hanswer]
  rcases rest with _ | ⟨found, rest⟩
  · exact .inl rfl
  by_cases hd : found = '$'
  · subst hd
    refine .inr ⟨⟨1, .between, []⟩, rest, rfl, ⟨?_, hanswer, nofun, nofun⟩, Nat.one_pos⟩
    exact @Text.dropBytes?_add _ _ ['$'] rest h.behind
  · refine .inl ?_
    show (if found = '$' then _ else _) = Move.done (if found = '$' then _ else _)
    rw [if_neg hd, if_neg hd]

theorem answer_of_between (hplace : c.place = .between) (rest : List Char) :
    c.answer rest = answerFrom c.position c.steps rest := by
  unfold answer
  rw [hplace]

theorem answer_of_behindDots {dots : Nat} (hplace : c.place = .behindDots)
    (hdots : c.position = dots + 2) (rest : List Char) :
    c.answer rest = answerFrom dots c.steps ('.' :: '.' :: rest) := by
  unfold answer
  rw [hplace, hdots]
  rfl

theorem Sound.answer_bracket (h : c.Sound expression ('[' :: rest)) (hplace : c.place ≠ .front) :
    c.answer ('[' :: rest) =
      match readOpened c.position rest with
      | .error e => .error e
      | .ok (step, next, back) => answerFrom next (c.steps ++ [c.place.stepOf step]) back := by
  cases hp : c.place with
  | front => exact absurd hp hplace
  | between =>
      have hseg : readSegment c.position ('[' :: rest) =
          (readOpened c.position rest).map (Prod.map id id) := by
        show readOpened c.position rest = _
        cases readOpened c.position rest <;> rfl
      rw [answer_of_between hp]
      exact answerFrom_of_readOpened hseg (List.cons_ne_nil _ _) c.steps
  | behindDots =>
      obtain ⟨dots, hdots⟩ := Nat.exists_eq_add_of_le' (h.two_le hp)
      have hseg : readSegment dots ('.' :: '.' :: '[' :: rest) =
          (readOpened (dots + 2) rest).map (Prod.map Step.deepen id) := rfl
      rw [answer_of_behindDots hp hdots, hdots]
      exact answerFrom_of_readOpened hseg (List.cons_ne_nil _ _) c.steps

theorem Sound.proceeds_bracket (h : c.Sound expression ('[' :: rest)) (hplace : c.place ≠ .front) :
    c.Proceeds expression := by
  have hanswer := (h.answer_bracket hplace).symm.trans h.answer_eq
  unfold Proceeds
  rw [h.move_eq, moveFrom_bracket hplace]
  rcases overBracket_cases h.behind with
    ⟨e, hread, hmove⟩ | ⟨step, next, back, hread, hmove, hback, hlt⟩
  · rw [hread] at hanswer
    rw [hmove, ← hanswer]
    exact .inl rfl
  · rw [hread] at hanswer
    exact .inr ⟨_, back, hmove, ⟨hback, hanswer, nofun, nofun⟩, hlt⟩

theorem Sound.proceeds_between (h : c.Sound expression rest) (hplace : c.place = .between) :
    c.Proceeds expression := by
  have hanswer := h.answer_eq
  have hmove := h.move_eq
  rw [answer_of_between hplace] at hanswer
  rw [hplace] at hmove
  unfold Proceeds
  rcases rest with _ | ⟨found, tail⟩
  · rw [hmove, ← hanswer, answerFrom_nil]
    exact .inl rfl
  by_cases hb : found = '['
  · subst hb
    exact h.proceeds_bracket (hplace ▸ nofun)
  by_cases hdots : found = '.' ∧ ∃ more, tail = '.' :: more
  · obtain ⟨rfl, more, rfl⟩ := hdots
    refine .inr ⟨⟨c.position + 2, .behindDots, c.steps⟩, more, hmove, ?_, by simp⟩
    exact ⟨@Text.dropBytes?_add _ _ ['.', '.'] more h.behind, hanswer, nofun, fun _ => by simp⟩
  · have hstray : Stray [] found tail .segmentStart :=
      .start hb fun hd more heq => hdots ⟨hd, more, heq⟩
    have hseg : readSegment c.position (found :: tail) = _ :=
      readSegment_of_stray c.position hstray
    rw [hmove, ← hanswer, answerFrom_of_error hseg (List.cons_ne_nil _ _)]
    exact .inl (moveFrom_between_of_stray hstray)

theorem Sound.proceeds_behindDots (h : c.Sound expression rest) (hplace : c.place = .behindDots) :
    c.Proceeds expression := by
  obtain ⟨dots, hdots⟩ := Nat.exists_eq_add_of_le' (h.two_le hplace)
  have hanswer := h.answer_eq
  have hmove := h.move_eq
  rw [answer_of_behindDots hplace hdots] at hanswer
  rw [hplace] at hmove
  unfold Proceeds
  rcases rest with _ | ⟨found, tail⟩
  · have hseg : readSegment dots ['.', '.'] = .error (.ended .bracketAfterDots) := rfl
    rw [hmove, ← hanswer, answerFrom_of_error hseg (List.cons_ne_nil _ _)]
    exact .inl rfl
  by_cases hb : found = '['
  · subst hb
    exact h.proceeds_bracket (hplace ▸ nofun)
  · have hseg : readSegment dots ('.' :: '.' :: found :: tail) = _ :=
      readSegment_of_stray dots (.behindDots hb)
    rw [hmove, ← hanswer, answerFrom_of_error hseg (List.cons_ne_nil _ _),
      moveFrom_behindDots_of_ne hb, hdots]
    exact .inl rfl

/-- **A move of a sound cursor gives the answer or goes on to a sound cursor.** -/
theorem Sound.proceeds (h : c.Sound expression rest) : c.Proceeds expression := by
  cases hplace : c.place with
  | front => exact h.proceeds_front hplace
  | between => exact h.proceeds_between hplace
  | behindDots => exact h.proceeds_behindDots hplace

/-! ### All moves -/

theorem Sound.isBoundary (h : c.Sound expression rest) : Text.IsBoundary expression c.position :=
  (Text.exists_dropBytes?_iff _ _).mp ⟨rest, h.behind⟩

theorem Visited.exists_sound (h : Visited expression c) : ∃ rest, c.Sound expression rest := by
  induction h with
  | start => exact ⟨_, sound_start expression⟩
  | @move c next _ hmove ih =>
      obtain ⟨rest, hc⟩ := ih
      rcases hc.proceeds with hdone | ⟨next', rest', hon, hnext, -⟩
      · rw [hmove] at hdone
        cases hdone
      · rw [hmove] at hon
        cases hon
        exact ⟨rest', hnext⟩

theorem Visited.isBoundary (h : Visited expression c) : Text.IsBoundary expression c.position := by
  obtain ⟨rest, hc⟩ := h.exists_sound
  exact hc.isBoundary

theorem Visited.proceeds (h : Visited expression c) : c.Proceeds expression := by
  obtain ⟨rest, hc⟩ := h.exists_sound
  exact hc.proceeds

theorem Visited.move_ne_broken (h : Visited expression c) : c.move expression ≠ .broken := by
  rcases h.proceeds with hmove | ⟨next, rest, hmove, -⟩ <;> rw [hmove] <;> exact nofun

theorem Visited.position_lt {next : Cursor} (h : Visited expression c)
    (hmove : c.move expression = .on next) : c.position < next.position := by
  rcases h.proceeds with hdone | ⟨next', rest, hon, -, hlt⟩
  · rw [hmove] at hdone
    cases hdone
  · rw [hmove] at hon
    cases hon
    exact hlt

theorem Visited.exists_done (h : Visited expression c) :
    ∃ last, Visited expression last ∧ last.move expression = .done (Path.parse expression) := by
  induction hn : expression.utf8ByteSize - c.position using Nat.strong_induction_on
    generalizing c with
  | h n ih =>
      subst hn
      rcases h.proceeds with hdone | ⟨next, rest, hon, hnext, hlt⟩
      · exact ⟨c, h, hdone⟩
      · have hle := hnext.isBoundary.le
        exact ih _ (by omega) (h.move hon) rfl

/-- **The cursor comes to the answer of the reader**, and to no other. -/
theorem exists_visited_done_iff (expression : String) (answer : Except PathError Path) :
    (∃ c, Visited expression c ∧ c.move expression = .done answer) ↔
      Path.parse expression = answer := by
  constructor
  · rintro ⟨c, hc, hanswer⟩
    rcases hc.proceeds with hdone | ⟨next, rest, hon, -⟩
    · rw [hanswer] at hdone
      cases hdone
      rfl
    · rw [hanswer] at hon
      cases hon
  · rintro rfl
    exact Visited.start.exists_done

end Cursor

/-! ### Brackets between two offsets -/

theorem boundaries_of_findClose {expression : String} {opening close : Nat}
    (h : findClose expression opening = .ok close) :
    Text.IsBoundary expression (opening + 1) ∧ Text.IsBoundary expression close ∧
      opening < close ∧ close < expression.utf8ByteSize ∧
      Text.CharAt expression.toList close ']' := by
  have hclosed := (findClose_eq_ok_iff_closedAt _ _ _).mp h
  obtain ⟨content, hslice, -⟩ := hclosed.enclosed
  obtain ⟨-, hfirst, hlast⟩ := (Text.exists_sliceBytes?_iff _ _ _).mp ⟨content, hslice⟩
  refine ⟨hfirst, hlast, hclosed.lt, ?_, hclosed.closes⟩
  rw [← Text.byteSize_toList]
  exact hclosed.closes.lt_byteSize

theorem ofContent_ne_noContent (opening : Nat) (content : List Char) (a b : Nat) :
    Step.ofContent opening content ≠ .error (.invalid (.noContent a b)) := by
  intro h
  by_cases hb : Text.allBlank content = true
  · rw [ofContent_of_allBlank hb] at h
    cases h
  · rcases failsWith_ofContent hb opening _ h with h | ⟨h, -⟩ <;> cases h

/-- A bracket has no content exactly if the text between its offsets cannot be cut out. -/
theorem readBracket_eq_noContent_iff (expression : String) (opening close a b : Nat) :
    readBracket expression opening close = .error (.invalid (.noContent a b)) ↔
      Text.sliceBytes? expression.toList (opening + 1) close = none ∧ opening = a ∧ close = b := by
  unfold readBracket
  cases Text.sliceBytes? expression.toList (opening + 1) close with
  | none => simp
  | some content => simp [ofContent_ne_noContent]

/-- **An expression is cut between two characters only.**  Every cursor that is visited stands at a
character boundary and not beyond the end, no cut there is inside a character, and each move but the
last goes further on; the last one has the answer of `Path.parse`.  The search for a closing bracket
has an answer from every offset, and where it finds one, the content begins and ends at boundaries.
A bracket between two offsets has no content exactly if the offsets are not in order, the second one
is beyond the end, or one of them is inside a character. -/
theorem cuts_at_boundaries (expression : String) :
    (∀ c, Cursor.Visited expression c → Text.IsBoundary expression c.position ∧
      c.position ≤ expression.utf8ByteSize ∧ c.move expression ≠ .broken ∧
      ∀ next, c.move expression = .on next → c.position < next.position) ∧
    (∀ answer, (∃ c, Cursor.Visited expression c ∧ c.move expression = .done answer) ↔
      Path.parse expression = answer) ∧
    (∀ opening, findCloseByByte? expression opening = some (findClose expression opening) ∧
      ∀ close, findClose expression opening = .ok close →
        Text.IsBoundary expression (opening + 1) ∧ Text.IsBoundary expression close ∧
        opening < close ∧ close < expression.utf8ByteSize ∧
        Text.CharAt expression.toList close ']') ∧
    ∀ opening close a b, readBracket expression opening close = .error (.invalid (.noContent a b)) ↔
      (close < opening + 1 ∨ expression.utf8ByteSize < close ∨
        ¬ Text.IsBoundary expression (opening + 1) ∨ ¬ Text.IsBoundary expression close) ∧
      opening = a ∧ close = b := by
  refine ⟨?_, Cursor.exists_visited_done_iff expression, ?_, ?_⟩
  · intro c hc
    exact ⟨hc.isBoundary, hc.isBoundary.le, hc.move_ne_broken, fun _ => hc.position_lt⟩
  · intro opening
    exact ⟨findCloseByByte?_eq expression opening, fun _ => boundaries_of_findClose⟩
  · intro opening close a b
    rw [readBracket_eq_noContent_iff, Text.sliceBytes?_eq_none_iff]

/-- A key with a letter of two bytes, a search from inside the letter and a bracket that ends there. -/
theorem cuts_at_boundaries_twoByteKey :
    (Cursor.Visited "$['é']" ⟨1, .between, []⟩ ∧ Text.IsBoundary "$['é']" 1) ∧
    (Path.parse "$['é']" = .ok ⟨[.name "é"]⟩ ∧
      ∃ c, Cursor.Visited "$['é']" c ∧ c.move "$['é']" = .done (.ok ⟨[.name "é"]⟩)) ∧
    (findClose "$['é']" 1 = .ok 6 ∧ Text.IsBoundary "$['é']" 2 ∧ Text.IsBoundary "$['é']" 6) ∧
    findCloseByByte? "$['é']" 4 = some (.error (.invalid (.insideCharacter 4 0xA9))) ∧
    readBracket "$['é']" 2 4 = .error (.invalid (.noContent 2 4)) := by
  obtain ⟨hvisited, hanswer, hfind, hcontent⟩ := cuts_at_boundaries "$['é']"
  have hfirst : Cursor.Visited "$['é']" ⟨1, .between, []⟩ := .move .start (by decide +kernel)
  have hparse : Path.parse "$['é']" = .ok ⟨[.name "é"]⟩ := by decide +kernel
  have hclose : findClose "$['é']" 1 = .ok 6 := by decide +kernel
  have hinside : findClose "$['é']" 4 = .error (.invalid (.insideCharacter 4 0xA9)) := by
    decide +kernel
  obtain ⟨hopens, hcloses, -⟩ := (hfind 1).2 6 hclose
  refine ⟨⟨hfirst, (hvisited _ hfirst).1⟩, ⟨hparse, (hanswer _).mpr hparse⟩,
    ⟨hclose, hopens, hcloses⟩, ?_, ?_⟩
  · rw [(hfind 4).1, hinside]
  · have hinner : ¬ Text.IsBoundary "$['é']" 4 := by decide
    exact (hcontent 2 4 2 4).mpr ⟨.inr (.inr (.inr hinner)), rfl, rfl⟩

end PathQuery
