import PathQuery.Command.Args
import PathQuery.Json.Writer
import PathQuery.Path.Record
import PathQuery.Query
import PathQuery.Settings
import PathQuery.Source.Load
import PathQuery.Yaml.Writer

/-! # Running a query

A query compiles its expression; then it shows the steps, or it loads a document and shows the nodes
that the path selects, one record each.  `Outcome` are the records shown before the end and the
cause if the end is a failure.

The world that a query reads is a parameter, `World`; the formats of documents are another. -/

namespace PathQuery

/-- Why a query fails. -/
inductive RunError where
  | badExpression (expression : String) (cause : PathError)
  | notLoaded (cause : LoadError)
  | unknownFormat (name : String)
  | notWritten (cause : Unwritable)
  deriving DecidableEq, Repr

def RunError.message : RunError → String
  | .badExpression expression _ => "Cannot compile '" ++ expression ++ "'"
  | .notLoaded cause => cause.headline
  | .unknownFormat name => "Unknown output format '" ++ name ++ "', expected yaml or json"
  | .notWritten cause => cause.message

/-- What a query has shown, and why it has failed if it has. -/
structure Outcome where
  records : List String
  failure : Option RunError
  deriving DecidableEq, Repr

/-- An outcome with nothing but a failure. -/
def Outcome.failed (e : RunError) : Outcome := ⟨[], some e⟩

def Outcome.output (o : Outcome) : String := o.records.foldl (· ++ ·) ""

def Outcome.status (o : Outcome) : Nat := if o.failure.isSome then 1 else 0

/-! ### Records -/

inductive Format where
  | yaml
  | json
  deriving DecidableEq, Repr

namespace Format

def ofName? (name : String) : Option Format :=
  if Settings.sameWord name "json" then some .json
  else if Settings.sameWord name "yaml" then some .yaml
  else none

/-- A node as a record. -/
def record : Format → Doc → Except Unwritable String
  | .json, d => (Json.write d).map (· ++ "\n")
  | .yaml, d => (Yaml.write d).map ("---\n" ++ ·)

/-- The records of nodes up to the first one that cannot be written. -/
def records (f : Format) : List Doc → Outcome
  | [] => ⟨[], none⟩
  | d :: ds =>
    match f.record d with
    | .error cause => Outcome.failed (.notWritten cause)
    | .ok r =>
      let rest := f.records ds
      ⟨r :: rest.records, rest.failure⟩

end Format

/-! ### Queries -/

/-- The files and the standard input. -/
structure World (m : Type → Type) where
  /-- The bytes of a file, if it can be read. -/
  file : String → m (Option ByteArray)
  /-- The bytes of the standard input, if it can be read. -/
  input : m (Option ByteArray)

/-- The format of a query, or of the settings if the query has none. -/
def Options.outputFormat (o : Options) (s : Settings) : Except RunError Format :=
  match o.format with
  | some name =>
    match Format.ofName? name with
    | some f => .ok f
    | none => .error (.unknownFormat name)
  | none => .ok (if s.isJson then .json else .yaml)

/-- The nodes that a query shows. -/
def Options.matched (o : Options) (s : Settings) (p : Path) (d : Doc) : List Doc :=
  if o.firstOnly || s.firstOnly then (p.eval d).take 1 else p.eval d

/-- What a query shows of a document. -/
def Options.show (o : Options) (s : Settings) (p : Path) (d : Doc) : Outcome :=
  match o.outputFormat s with
  | .error e => Outcome.failed e
  | .ok f => f.records (o.matched s p d)

/-- The path of an expression, through a new cache. -/
def Settings.compile (s : Settings) (expression : String) : Except PathError Path :=
  ((Cache.empty s.cacheCapacity).lookup expression).1.map Shared.path

def Options.load {m : Type → Type} [Monad m] (o : Options) (formats : Formats) (world : World m) :
    m (Except LoadError Doc) := do
  match o.file with
  | some name => return formats.load name (← world.file name)
  | none =>
    match ← world.input with
    | some bytes => return formats.loadInput bytes
    | none => return .error .unreadableInput

def Options.run {m : Type → Type} [Monad m] (o : Options) (formats : Formats) (s : Settings)
    (world : World m) : m Outcome := do
  match s.compile o.expression with
  | .error cause => return Outcome.failed (.badExpression o.expression cause)
  | .ok p =>
    if o.showSteps then return ⟨p.steps.map fun step => step.record ++ "\n", none⟩
    match ← o.load formats world with
    | .error cause => return Outcome.failed (.notLoaded cause)
    | .ok d => return o.show s p d

/-! ### Facts -/

theorem Settings.sameWord_yaml_of_json {name : String} (h : sameWord name "json" = true) :
    sameWord name "yaml" = false := by
  have hword : name.toList.map Char.toLower = "json".toList.map Char.toLower := by
    simpa only [sameWord, beq_iff_eq] using h
  rw [sameWord, hword]
  decide

theorem Format.ofName?_eq_some_iff {name : String} {f : Format} :
    ofName? name = some f ↔
      (f = .json ∧ Settings.sameWord name "json" = true) ∨
      (f = .yaml ∧ Settings.sameWord name "yaml" = true) := by
  have hapart := @Settings.sameWord_yaml_of_json name
  unfold ofName?
  generalize Settings.sameWord name "json" = json at hapart ⊢
  generalize Settings.sameWord name "yaml" = yaml at hapart ⊢
  cases json <;> cases yaml <;> cases f <;> simp_all

theorem Format.ofName?_eq_none_iff {name : String} :
    ofName? name = none ↔
      Settings.sameWord name "json" = false ∧ Settings.sameWord name "yaml" = false := by
  unfold ofName?
  generalize Settings.sameWord name "json" = json
  generalize Settings.sameWord name "yaml" = yaml
  cases json <;> cases yaml <;> simp

/-- The format is the one that the query names, and if it names none, the one of the settings. -/
theorem Options.outputFormat_eq_ok_iff {o : Options} {s : Settings} {f : Format} :
    o.outputFormat s = .ok f ↔
      (∃ name, o.format = some name ∧ Format.ofName? name = some f) ∨
      (o.format = none ∧ f = if s.isJson then .json else .yaml) := by
  unfold outputFormat
  cases o.format with
  | none =>
      simp only [Except.ok.injEq, reduceCtorEq, false_and, exists_false, false_or, true_and]
      exact eq_comm
  | some name => cases hname : Format.ofName? name <;> simp [hname]

/-- There is no format exactly if the query names one and the name is none. -/
theorem Options.outputFormat_eq_error_iff {o : Options} {s : Settings} {e : RunError} :
    o.outputFormat s = .error e ↔
      ∃ name, o.format = some name ∧ Format.ofName? name = none ∧ e = .unknownFormat name := by
  unfold outputFormat
  cases o.format with
  | none => simp
  | some name => cases hname : Format.ofName? name <;> simp [hname, eq_comm]

theorem Settings.compile_eq_parse (s : Settings) (expression : String) :
    s.compile expression = Path.parse expression := by
  unfold compile Cache.lookup Cache.peek Cache.empty
  simp only [List.find?_nil, Option.map_none]
  cases Path.parse expression <;> rfl

end PathQuery
