/-! # Arguments

The command line has one or two operands, the expression and a file, and options among them.  An
option has a long name after two hyphens and may have a letter after one; letters may stand
together.  Only the format has a value, which follows its long name after an equals sign, its letter
directly or after an equals sign, or is the next argument.  Two hyphens alone end the options, and
one hyphen alone is an operand.  No option may be given twice.

`Invocation.ofArgs` reads the arguments in order, so that an early fault hides a later request for
the version, and the other way round. -/

namespace PathQuery

/-- What a query is about. -/
structure Options where
  expression : String
  file : Option String
  showSteps : Bool
  format : Option String
  firstOnly : Bool
  deriving DecidableEq, Repr

/-- What the command is asked to do. -/
inductive Invocation where
  | query (o : Options)
  | version
  | help
  deriving DecidableEq, Repr

/-- Why arguments are refused. -/
inductive UsageError where
  | unknownOption (arg : String)
  | missingValue
  | unneededValue (arg : String)
  | repeated (arg : String)
  | surplusOperand (arg : String)
  | missingExpression
  deriving DecidableEq, Repr

def UsageError.message : UsageError → String
  | .unknownOption arg => "unknown option '" ++ arg ++ "'"
  | .missingValue => "the option --format needs a value"
  | .unneededValue arg => "the option in '" ++ arg ++ "' takes no value"
  | .repeated arg => "the option in '" ++ arg ++ "' is given twice"
  | .surplusOperand arg => "unexpected argument '" ++ arg ++ "'"
  | .missingExpression => "the expression is missing"

def helpText : String :=
  "Usage: pathlite [OPTIONS] <EXPRESSION> [FILE]\n\n"
    ++ "  -t, --tokens           show the steps of the expression\n"
    ++ "  -f, --format <FORMAT>  the format of the results, yaml or json\n"
    ++ "      --first            show the first result only\n"
    ++ "  -h, --help             show this help\n"
    ++ "  -V, --version          show the version\n"

def versionText : String := "pathlite 0.1.0\n"

/-! ### Options -/

/-- The names of options. -/
inductive OptionName where
  | tokens
  | format
  | first
  | version
  | help
  deriving DecidableEq, Repr

/-- The option of a long name. -/
def OptionName.ofWord? (word : List Char) : Option OptionName :=
  if word = "tokens".toList then some .tokens
  else if word = "format".toList then some .format
  else if word = "first".toList then some .first
  else if word = "version".toList then some .version
  else if word = "help".toList then some .help
  else none

/-- The option of a letter. -/
def OptionName.ofLetter? : Char → Option OptionName
  | 't' => some .tokens
  | 'f' => some .format
  | 'V' => some .version
  | 'h' => some .help
  | _ => none

/-- What the arguments so far have given; the operands stand in order. -/
structure Given where
  operands : List String
  showSteps : Bool
  format : Option String
  firstOnly : Bool
  deriving DecidableEq, Repr

/-- What has to be done after some arguments. -/
inductive Progress where
  /-- Read on. -/
  | given (g : Given)
  /-- Read the format, which is the next argument. -/
  | awaitFormat (g : Given)
  /-- Stop. -/
  | stop (i : Invocation)
  deriving DecidableEq, Repr

namespace Given

def nothing : Given := ⟨[], false, none, false⟩

def operand (g : Given) (arg : String) : Except UsageError Given :=
  if g.operands.length < 2 then .ok { g with operands := g.operands ++ [arg] }
  else .error (.surplusOperand arg)

/-- Sets the format, which stands in an argument. -/
def setFormat (g : Given) (arg value : String) : Except UsageError Given :=
  if g.format.isSome then .error (.repeated arg) else .ok { g with format := some value }

/-- Follows an option without a value.  The format is left to the next argument. -/
def follow (g : Given) (arg : String) : OptionName → Except UsageError Progress
  | .tokens =>
    if g.showSteps then .error (.repeated arg) else .ok (.given { g with showSteps := true })
  | .first =>
    if g.firstOnly then .error (.repeated arg) else .ok (.given { g with firstOnly := true })
  | .version => .ok (.stop .version)
  | .help => .ok (.stop .help)
  | .format => .ok (.awaitFormat g)

/-- Follows what stands after two hyphens, a name and perhaps a value. -/
def long (g : Given) (arg : String) (cs : List Char) : Except UsageError Progress :=
  let word := cs.takeWhile (· != '=')
  match OptionName.ofWord? word, cs.dropWhile (· != '=') with
  | none, _ => .error (.unknownOption arg)
  | some .format, _ :: value => (g.setFormat arg (String.ofList value)).map .given
  | some _, _ :: _ => .error (.unneededValue arg)
  | some name, [] => g.follow arg name

/-- Follows the letters after one hyphen. -/
def letters (g : Given) (arg : String) : List Char → Except UsageError Progress
  | [] => .ok (.given g)
  | c :: cs =>
    match OptionName.ofLetter? c with
    | none => .error (.unknownOption arg)
    | some .format =>
      match cs with
      | [] => .ok (.awaitFormat g)
      | '=' :: value => (g.setFormat arg (String.ofList value)).map .given
      | value => (g.setFormat arg (String.ofList value)).map .given
    | some name =>
      match g.follow arg name with
      | .ok (.given g) => letters g arg cs
      | r => r

/-- Whether an argument is an option, or ends the options. -/
def isOption (arg : String) : Bool :=
  match arg.toList with
  | '-' :: _ :: _ => true
  | _ => false

def argument (g : Given) (arg : String) : Except UsageError Progress :=
  match arg.toList with
  | '-' :: '-' :: cs => g.long arg cs
  | '-' :: c :: cs => g.letters arg (c :: cs)
  | _ => (g.operand arg).map .given

def query (g : Given) : Except UsageError Options :=
  match g.operands with
  | [] => .error .missingExpression
  | expression :: file => .ok ⟨expression, file.head?, g.showSteps, g.format, g.firstOnly⟩

end Given

namespace Invocation

/-- Reads further arguments. -/
def ofArgsAfter (g : Given) : List String → Except UsageError Invocation
  | [] => g.query.map .query
  | "--" :: args => (args.foldlM Given.operand g).bind fun g => g.query.map .query
  | arg :: args =>
    match g.argument arg with
    | .error e => .error e
    | .ok (.stop i) => .ok i
    | .ok (.given g) => ofArgsAfter g args
    | .ok (.awaitFormat g) =>
      match args with
      | [] => .error .missingValue
      | value :: args =>
        if Given.isOption value then .error .missingValue
        else
          match g.setFormat arg value with
          | .error e => .error e
          | .ok g => ofArgsAfter g args

def ofArgs (args : List String) : Except UsageError Invocation := ofArgsAfter Given.nothing args

end Invocation

end PathQuery
