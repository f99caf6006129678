import PathQuery.Path.Fault
import PathQuery.Path.Step
import PathQuery.Result
import PathQuery.Text.Blank
import PathQuery.Word

/-! # What a bracket says

The content of a bracket is one of four things, told apart by the characters in it: a list of keys
if it holds a quote, else a slice if it holds a colon, else a list of indices if it holds a comma,
else one index.  Blanks around indices, keys and separators have no meaning.

`Step.ofContent` reads a content.  Its parts are `readIndex` for one integer, `readSlice` with
`Step.ofBounds` for slices, and `readKeys` for lists of keys, where an integer may stand without
quotes and is the key with its digits. -/

namespace PathQuery

/-! ### Integers -/

/-- The number that decimal digits write. -/
def natOfDigits (ds : List Char) : Nat := ds.foldl (fun n c => 10 * n + (c.toNat - 48)) 0

/-- The integer that a text without blanks writes: digits, possibly after one minus sign. -/
def intOfDigits? (cs : List Char) : Option Int :=
  match cs with
  | '-' :: ds => if ds ≠ [] ∧ ds.all Char.isDigit then some (-(natOfDigits ds : Int)) else none
  | ds => if ds ≠ [] ∧ ds.all Char.isDigit then some (natOfDigits ds : Int) else none

/-- Reads one integer between blanks. -/
def readIndex (cs : List Char) : Except PathError Int :=
  let text := Text.trim cs
  match intOfDigits? text with
  | none => .error (.invalid (.invalidIndex (String.ofList text)))
  | some n =>
    if InWord n then .ok n else .error (.invalid (.indexOutOfRange (String.ofList text)))

/-! ### Slices -/

/-- The widest slice that is written out as a list of positions. -/
def widestListed : Int := 1024

/-- The integers from `start` to before `stop`, in ascending order. -/
def listedSlice (start stop : Int) : List Int :=
  (List.range (stop - start).toNat).map fun k : Nat => start + (k : Int)

/-- The step of a slice.  Bounds that are known and not negative give a list of positions, unless
the list would be wider than `widestListed`; all others wait for the length of the sequence. -/
def Step.ofBounds (start : Int) : (stop : Option Int) → Except PathError Step
  | none => .ok (.pick (.span ⟨start, none, 0⟩))
  | some stop =>
    if stop < 0 then .ok (.pick (.span ⟨start, none, stop⟩))
    else if start < 0 then .ok (.pick (.span ⟨start, some stop, 0⟩))
    else if stop ≤ start then .error (.invalid (.emptySlice start stop))
    else if widestListed < stop - start then .ok (.pick (.span ⟨start, some stop, 0⟩))
    else .ok (.pick (.positions (listedSlice start stop)))

/-- Reads a bound of a slice, where blanks alone stand for no bound. -/
def readBound (cs : List Char) : Except PathError (Option Int) :=
  if Text.allBlank cs then .ok none else (readIndex cs).map some

/-- Reads a slice, two bounds with one colon between them.  An absent start is 0. -/
def readSlice (content : List Char) : Except PathError Step :=
  match content.splitOn ':' with
  | [first, second] => do
    let start ← readBound first
    let stop ← readBound second
    Step.ofBounds (start.getD 0) stop
  | _ => .error (.invalid (.invalidSlice (String.ofList (Text.trim content))))

/-! ### Keys -/

/-- Reads a key after its opening quote: the key and what follows the closing quote. -/
def unquoteKey : List Char → Except PathError (List Char × List Char)
  | [] => .error (.ended .closingQuote)
  | c :: cs =>
    if c = '\'' then .ok ([], cs)
    else if c = '\\' then
      match cs with
      | [] => .error (.invalid .danglingEscape)
      | d :: ds => (unquoteKey ds).map (Prod.map (d :: ·) id)
    else (unquoteKey cs).map (Prod.map (c :: ·) id)

/-- The characters that end a key without quotes. -/
def endsBareKey (c : Char) : Bool := c == ',' || c == '\''

/-- Reads one key and the blanks before it: the key and what follows it. -/
def readKey (cs : List Char) : Except PathError (String × List Char) :=
  match Text.trimStart cs with
  | [] => .error (.ended .keyAfterComma)
  | c :: rest =>
    if c = '\'' then do
      let (key, rest) ← unquoteKey rest
      if key.isEmpty then .error (.invalid .emptyKey) else .ok (String.ofList key, rest)
    else do
      let bare := (c :: rest).takeWhile fun c => !endsBareKey c
      let _ ← readIndex bare
      .ok (String.ofList (Text.trim bare), (c :: rest).dropWhile fun c => !endsBareKey c)

theorem length_le_of_unquoteKey {cs key rest : List Char} (h : unquoteKey cs = .ok (key, rest)) :
    rest.length ≤ cs.length := by
  fun_induction unquoteKey cs generalizing key rest with
  | case1 => simp at h
  | case2 => simp_all
  | case3 => simp at h
  | case4 d ds _ ih =>
    obtain ⟨⟨u, v⟩, hr, hu⟩ := map_eq_ok_iff.1 h
    simp at hu
    have := ih hr
    simp [← hu.2]
    omega
  | case5 c cs _ _ ih =>
    obtain ⟨⟨u, v⟩, hr, hu⟩ := map_eq_ok_iff.1 h
    simp at hu
    have := ih hr
    simp [← hu.2]
    omega

theorem length_le_of_readKey {cs : List Char} {key : String} {rest : List Char}
    (h : readKey cs = .ok (key, rest)) : rest.length ≤ cs.length := by
  have hle := Text.trimStart_length_le cs
  unfold readKey at h
  split at h
  · simp at h
  · rename_i c tail heq
    rw [heq] at hle
    split at h
    · obtain ⟨⟨u, v⟩, hr, hu⟩ := bind_eq_ok_iff.1 h
      have hv := length_le_of_unquoteKey hr
      simp at hu hle
      split at hu
      · simp at hu
      · simp at hu
        rw [← hu.2]
        omega
    · obtain ⟨_, _, hu⟩ := bind_eq_ok_iff.1 h
      simp only [Except.ok.injEq, Prod.mk.injEq] at hu
      have := (List.dropWhile_sublist (l := c :: tail) fun c => !endsBareKey c).length_le
      rw [← hu.2]
      omega

/-- Reads a list of keys with commas between them. -/
def readKeys (cs : List Char) : Except PathError (List String) :=
  match _h : readKey cs with
  | .error e => .error e
  | .ok (key, rest) =>
    match _h' : Text.trimStart rest with
    | [] => .ok [key]
    | c :: more =>
      if c = ',' then (readKeys more).map (key :: ·)
      else .error (.invalid (.strayAfterKey c))
termination_by cs.length
decreasing_by
  have h1 := length_le_of_readKey _h
  have h2 := Text.trimStart_length_le rest
  rw [_h'] at h2
  simp at h2
  omega

/-! ### Contents -/

/-- The step of a list of keys: one key is a single member. -/
def Step.ofKeys : List String → Step
  | [key] => .name key
  | keys => .pick (.names keys)

/-- Reads the content of the bracket opened at byte `opening`. -/
def Step.ofContent (opening : Nat) (content : List Char) : Except PathError Step :=
  if Text.allBlank content then .error (.invalid (.emptyBrackets opening))
  else if content.contains '\'' then (readKeys content).map Step.ofKeys
  else if content.contains ':' then readSlice content
  else if content.contains ',' then
    ((content.splitOn ',').mapM readIndex).map fun is => .pick (.positions is)
  else (readIndex content).map Step.index

end PathQuery
