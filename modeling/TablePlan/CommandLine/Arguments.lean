/-!
Arguments of the program. Options have a long name and most a letter; a value follows as the next
argument or stands in the same one. Options may precede the command: what precedes it and what
follows it are read apart, and of an option in both places the later one counts.
-/

namespace TablePlan

inductive OutputFormat where
  | text | json
  deriving DecidableEq, Repr

def OutputFormat.ofText? : String → Option OutputFormat
  | "text" => some .text
  | "json" => some .json
  | _ => none

inductive Request where
  | compile (spec schemas : String) (format : OutputFormat)
  | run (spec data : String)
  deriving DecidableEq, Repr

structure Invocation where
  config : Option String
  verbose : Bool
  request : Request
  deriving DecidableEq, Repr

namespace CommandLine

inductive Command where
  | compile | run
  deriving DecidableEq, Repr

def Command.ofName? : String → Option Command
  | "compile" => some .compile
  | "run" => some .run
  | _ => none

inductive Switch where
  | config | verbose | schema | format | data | help | version
  deriving DecidableEq, Repr

namespace Switch

def name : Switch → String
  | .config => "config"
  | .verbose => "verbose"
  | .schema => "schema"
  | .format => "format"
  | .data => "data"
  | .help => "help"
  | .version => "version"

def letter? : Switch → Option Char
  | .config => none
  | .verbose => some 'v'
  | .schema => some 's'
  | .format => some 'f'
  | .data => some 'd'
  | .help => some 'h'
  | .version => some 'V'

def takesValue : Switch → Bool
  | .config | .schema | .format | .data => true
  | .verbose | .help | .version => false

def accepts : Switch → String → Bool
  | .format, value => (OutputFormat.ofText? value).isSome
  | o, value => !o.takesValue || !value.isEmpty

def allowed : Option Command → List Switch
  | none => [.config, .verbose, .help, .version]
  | some .compile => [.config, .verbose, .schema, .format, .help]
  | some .run => [.config, .verbose, .data, .help]

end Switch

inductive UsageError where
  | noCommand
  | unknownCommand (name : String)
  | unknownOption (name : String)
  | repeatedOption (o : Switch)
  | missingValue (o : Switch)
  | unexpectedValue (o : Switch)
  | invalidValue (o : Switch) (value : String)
  | missingOption (o : Switch)
  | noSpec
  | unexpectedArgument (text : String)
  deriving DecidableEq, Repr

def UsageError.message : UsageError → String
  | .noCommand => "a command is required"
  | .unknownCommand name => s!"unrecognized command '{name}'"
  | .unknownOption name => s!"unexpected argument '{name}'"
  | .repeatedOption o => s!"'--{o.name}' is given more than once"
  | .missingValue o => s!"'--{o.name}' requires a value"
  | .unexpectedValue o => s!"'--{o.name}' takes no value"
  | .invalidValue o value => s!"invalid value '{value}' for '--{o.name}'"
  | .missingOption o => s!"'--{o.name}' is required"
  | .noSpec => "a spec is required"
  | .unexpectedArgument text => s!"unexpected argument '{text}'"

/-- Why arguments ask for nothing to be done: they are wrong, or ask about the program. -/
inductive Refusal where
  | usage (error : UsageError)
  | help
  | version
  deriving DecidableEq, Repr

structure Given where
  options : List (Switch × String)
  operands : List String
  deriving DecidableEq, Repr

namespace Given

def empty : Given := ⟨[], []⟩

def value? (g : Given) (o : Switch) : Option String :=
  g.options.lookup o

/-- Adds an option; one that asks about the program ends the reading. -/
def add (g : Given) (o : Switch) (value : String) : Except Refusal Given :=
  match o with
  | .help => .error .help
  | .version => .error .version
  | o =>
    if (g.value? o).isSome then .error (.usage (.repeatedOption o))
    else if o.accepts value then .ok { g with options := g.options ++ [(o, value)] }
    else .error (.usage (.invalidValue o value))

def addOperand (g : Given) (text : String) : Except Refusal Given :=
  if g.operands.isEmpty && !text.isEmpty then .ok { g with operands := [text] }
  else .error (.usage (.unexpectedArgument text))

def addOperands (g : Given) : List String → Except Refusal Given
  | [] => .ok g
  | text :: rest => do (← g.addOperand text).addOperands rest

abbrev Pending := Option Switch

def addNamed (g : Given) (allowed : List Switch) (name : String) (value : Option String) :
    Except Refusal (Given × Pending) :=
  match allowed.find? fun o => o.name == name, value with
  | none, _ => .error (.usage (.unknownOption ("--" ++ name)))
  | some o, some value =>
    if o.takesValue then do return (← g.add o value, none)
    else .error (.usage (.unexpectedValue o))
  | some o, none => if o.takesValue then .ok (g, some o) else do return (← g.add o "", none)

/-- Options by their letters; what follows a letter with a value is the value, without an equals
sign in front. -/
def addLetters (g : Given) (allowed : List Switch) : List Char →
    Except Refusal (Given × Pending)
  | [] => .ok (g, none)
  | c :: rest => match allowed.find? fun o => o.letter? == some c with
    | none => .error (.usage (.unknownOption (String.ofList ['-', c])))
    | some o =>
      if o.takesValue then match rest with
        | [] => .ok (g, some o)
        | '=' :: value => do return (← g.add o (String.ofList value), none)
        | value => do return (← g.add o (String.ofList value), none)
      else do addLetters (← g.add o "") allowed rest

end Given

/-- An argument by its form. A single dash is no option. -/
inductive Form where
  | separator
  | long (name : String) (value : Option String)
  | letters (cs : List Char)
  | operand

def Form.ofText (argument : String) : Form :=
  match argument.toList with
  | ['-', '-'] => .separator
  | '-' :: '-' :: cs =>
    match cs.dropWhile (· != '=') with
    | [] => .long (String.ofList cs) none
    | _ :: value => .long (String.ofList (cs.takeWhile (· != '='))) (some (String.ofList value))
  | '-' :: c :: cs => .letters (c :: cs)
  | _ => .operand

/-- Reads arguments in one place. Before the command the first argument that is no option ends the
options, and all from it on are kept. -/
def collect (place : Option Command) : Given.Pending → Given → List String → Except Refusal Given
  | none, g, [] => .ok g
  | some o, _, [] => .error (.usage (.missingValue o))
  | some o, g, argument :: rest => match Form.ofText argument with
    | .operand => do collect place none (← g.add o argument) rest
    | _ => .error (.usage (.missingValue o))
  | none, g, argument :: rest => match Form.ofText argument, place with
    | .separator, none => .error (.usage .noCommand)
    | .separator, some _ => g.addOperands rest
    | .long name value, place => do
      let (g, pending) ← g.addNamed (Switch.allowed place) name value
      collect place pending g rest
    | .letters cs, place => do
      let (g, pending) ← g.addLetters (Switch.allowed place) cs
      collect place pending g rest
    | .operand, none => .ok { g with operands := argument :: rest }
    | .operand, some _ => do collect place none (← g.addOperand argument) rest

def Given.spec (g : Given) : Except Refusal String :=
  match g.operands with
  | [] => .error (.usage .noSpec)
  | spec :: _ => .ok spec

def Given.required (g : Given) (o : Switch) : Except Refusal String :=
  match g.value? o with
  | some value => .ok value
  | none => .error (.usage (.missingOption o))

def Command.request (g : Given) : Command → Except Refusal Request
  | .compile => do
    let format := (g.value? .format).bind OutputFormat.ofText?
    return .compile (← g.spec) (← g.required .schema) (format.getD .text)
  | .run => return .run (← g.spec) (← g.required .data)

def helpOn : List String → Refusal
  | [] | ["compile"] | ["run"] | ["help"] => .help
  | name :: _ => .usage (.unknownCommand name)

end CommandLine

open CommandLine in
def Invocation.ofArguments (arguments : List String) : Except Refusal Invocation := do
  let outer ← collect none none .empty arguments
  match outer.operands with
  | [] => .error (.usage .noCommand)
  | "help" :: rest => .error (helpOn rest)
  | name :: rest => match Command.ofName? name with
    | none => .error (.usage (.unknownCommand name))
    | some command => do
      let inner ← collect (some command) none .empty rest
      return {
        config := (inner.value? .config).or (outer.value? .config)
        verbose := ((inner.value? .verbose).or (outer.value? .verbose)).isSome
        request := ← command.request inner }

end TablePlan
