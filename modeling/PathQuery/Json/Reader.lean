import PathQuery.Json.Token

/-! # Reading JSON

`read?` builds the document of a JSON text from its tokens.  The reader is a stack of the
containers that are open (`Frame`) and a place in the innermost of them (`State`); every token
takes it to another state or refuses the text.

At most `maxDepth` containers may be open at once, and no mapping may have a key twice. -/

namespace PathQuery.Json

/-- The number of containers that may be open at once. -/
def maxDepth : Nat := 127

/-- An open container with its contents so far, the last one first.  In a mapping a key waits for
its value. -/
inductive Frame where
  | seq (items : List Doc)
  | map (entries : List (Doc × Doc)) (key : Doc)
  deriving Repr

/-- What has to follow. -/
inductive State where
  /-- A value. -/
  | value (stack : List Frame)
  /-- The first item of a sequence or its end. -/
  | firstItem (stack : List Frame)
  /-- The first key of a mapping or its end. -/
  | firstKey (stack : List Frame)
  /-- A key. -/
  | nextKey (entries : List (Doc × Doc)) (stack : List Frame)
  /-- The colon after a key. -/
  | colon (entries : List (Doc × Doc)) (key : Doc) (stack : List Frame)
  /-- A comma, or the end of the innermost container. -/
  | separator (stack : List Frame)
  /-- Nothing. -/
  | finished (d : Doc)
  deriving Repr

namespace State

/-- The state after a value. -/
def afterValue (d : Doc) : List Frame → State
  | [] => .finished d
  | .seq items :: stack => .separator (.seq (d :: items) :: stack)
  | .map entries key :: stack => .separator (.map ((key, d) :: entries) .null :: stack)

/-- The state after the first token of a value. -/
def beginValue (stack : List Frame) : Token → Option State
  | .scalar d => some (afterValue d stack)
  | .openSeq => if stack.length < maxDepth then some (.firstItem stack) else none
  | .openMap => if stack.length < maxDepth then some (.firstKey stack) else none
  | _ => none

def afterKey (entries : List (Doc × Doc)) (stack : List Frame) : Token → Option State
  | .scalar (.string s) =>
    if Doc.hasKey entries (.string s) then none else some (.colon entries (.string s) stack)
  | _ => none

/-- The state after one more token. -/
def next : State → Token → Option State
  | .value stack, t => beginValue stack t
  | .firstItem stack, .closeSeq => some (afterValue (.seq []) stack)
  | .firstItem stack, t => beginValue (.seq [] :: stack) t
  | .firstKey stack, .closeMap => some (afterValue (.map []) stack)
  | .firstKey stack, t => afterKey [] stack t
  | .nextKey entries stack, t => afterKey entries stack t
  | .colon entries key stack, .colon => some (.value (.map entries key :: stack))
  | .separator (.seq items :: stack), .comma => some (.value (.seq items :: stack))
  | .separator (.seq items :: stack), .closeSeq =>
    some (afterValue (.seq items.reverse) stack)
  | .separator (.map entries _ :: stack), .comma => some (.nextKey entries stack)
  | .separator (.map entries _ :: stack), .closeMap =>
    some (afterValue (.map entries.reverse) stack)
  | _, _ => none

/-- The state after a list of tokens. -/
def run : State → List Token → Option State
  | s, [] => some s
  | s, t :: ts =>
    match s.next t with
    | some s' => run s' ts
    | none => none

end State

def ofTokens? (ts : List Token) : Option Doc :=
  match State.run (.value []) ts with
  | some (.finished d) => some d
  | _ => none

def read? (text : String) : Option Doc := (tokens? text.toList).bind ofTokens?

/-! ### Facts -/

@[simp] theorem State.run_nil (s : State) : s.run [] = some s := by
  cases s <;> rfl

theorem State.run_cons (s : State) (t : Token) (ts : List Token) :
    s.run (t :: ts) = (s.next t).bind fun s' => s'.run ts := by
  rw [State.run]
  cases s.next t <;> rfl

end PathQuery.Json
