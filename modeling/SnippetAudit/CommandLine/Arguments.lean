import SnippetAudit.Judge.Operation
import SnippetAudit.Markdown.CodeKind
import SnippetAudit.Text.Digit

/-!
# Arguments of the command line

The words of a command line are switches and arguments. A switch has its value behind an equals sign or in the
next word, and may be cut short as long as it stays the only one that starts so. One argument is the markdown
file; behind two hyphens every word is an argument.

## What this module delivers

- `Switch`: the switches;
- `Word`, `classify`, `words`: what the words of a command line are;
- `UsageError`: why a command line is refused;
- `Arguments`, `readArguments`: what a command line asks for.
-/

set_option autoImplicit false

namespace SnippetAudit.CommandLine

/-! ## Switches -/

/-- The switches. -/
inductive Switch where
  | help
  | kind
  | schema
  | schemaDirectory
  | package
  | contracts
  | output
  deriving DecidableEq, Repr

namespace Switch

/-- All switches. -/
def all : List Switch := [.help, .kind, .schema, .schemaDirectory, .package, .contracts, .output]

/-- The name of a switch. -/
def name : Switch → Text
  | .help => "--help".toList
  | .kind => "--kind".toList
  | .schema => "--schema".toList
  | .schemaDirectory => "--schema-dir".toList
  | .package => "--package".toList
  | .contracts => "--schemas".toList
  | .output => "--output".toList

/-- The short name of the switch that has one. -/
def shortHelp : Text := ['-', 'h']

/-- The switch of a full name. -/
def ofName? (t : Text) : Option Switch :=
  if t = shortHelp then some .help else all.find? fun s => s.name == t

/-- The switches whose names start with a text. -/
def startingWith (t : Text) : List Switch := all.filter fun s => t.isPrefixOf s.name

end Switch

/-! ## Words -/

/-- What a word of a command line is. -/
inductive Word where
  | argument (t : Text)
  /-- The two hyphens behind which there are only arguments. -/
  | divider
  /-- A switch, and the value behind its equals sign. -/
  | switch (s : Switch) (value? : Option Text)
  /-- A word that looks like a switch and is none. -/
  | unknown (t : Text)
  deriving DecidableEq, Repr

/-- Why a command line is refused. -/
inductive UsageError where
  | ambiguous (word : Text)
  | missingValue (s : Switch)
  | needlessValue (s : Switch)
  | unknownKind (name : String)
  | missingInput
  | missingKind
  | surplusWord
  deriving DecidableEq, Repr

/-- The wording of the errors. -/
def UsageError.message : UsageError → String
  | .ambiguous word => "ambiguous option: " ++ String.ofList word
  | .missingValue s => "argument " ++ String.ofList s.name ++ ": expected one argument"
  | .needlessValue s => "argument " ++ String.ofList s.name ++ ": ignored explicit argument"
  | .unknownKind name => "argument --kind: invalid choice: '" ++ name ++ "'"
  | .missingInput => "the following arguments are required: input"
  | .missingKind => "the following arguments are required: --kind"
  | .surplusWord => "unrecognized arguments"

/-- A text in front of its first equals sign, and what stands behind it. -/
def splitValue : Text → Text × Option Text
  | [] => ([], none)
  | c :: rest =>
    if c = '=' then ([], some rest)
    else
      let (name, value?) := splitValue rest
      (c :: name, value?)

/-- Digits, or a point with digits behind it and perhaps in front. -/
def isNumber (t : Text) : Bool :=
  let isDigit := fun c => (Text.digitValue? c).isSome
  let rest := t.dropWhile isDigit
  match rest with
  | [] => !t.isEmpty
  | c :: fraction => c == '.' && !fraction.isEmpty && fraction.all isDigit

/-- What a word is that starts with a hyphen and is no switch: a negative number and a word with a space are
arguments. -/
def otherWord (t : Text) : Word :=
  if isNumber (t.drop 1) ∨ t.contains ' ' then .argument t else .unknown t

/-- What a word in front of the divider is. -/
def classify (t : Text) : Except UsageError Word :=
  if t.head? ≠ some '-' ∨ t = ['-'] then .ok (.argument t)
  else
    let (name, value?) := splitValue t
    match Switch.ofName? t, Switch.ofName? name with
    | some s, _ => .ok (.switch s none)
    | none, some s => .ok (.switch s value?)
    | none, none =>
      -- the front of a full name stands for the switch when no other switch starts with it
      if ['-', '-'].isPrefixOf t then
        match Switch.startingWith name with
        | [] => .ok (otherWord t)
        | [s] => .ok (.switch s value?)
        | _ => .error (.ambiguous t)
      else if Switch.shortHelp.isPrefixOf t then
        let more := t.drop Switch.shortHelp.length
        -- letters joined to the short switch are the same switch again
        .ok (.switch .help (if more.all (· == 'h') then none else some more))
      else .ok (otherWord t)

/-- What the words of a command line are. -/
def words : List Text → Except UsageError (List Word)
  | [] => .ok []
  | t :: rest =>
    if t = ['-', '-'] then .ok (.divider :: rest.map .argument)
    else
      match classify t with
      | .error e => .error e
      | .ok word => (words rest).map fun more => word :: more

/-! ## Arguments -/

/-- What the words give: the first argument, the values of switches, the latest one first, and whether there
are words that nothing is made of. -/
structure Given where
  input? : Option Text := none
  settings : List (Switch × Text) := []
  surplus : Bool := false
  deriving DecidableEq, Repr

namespace Given

/-- Gives a switch a value; that of the kind must be the name of one. -/
def set (g : Given) (s : Switch) (value : Text) : Except UsageError Given :=
  let name := String.ofList value
  if s = .kind ∧ (CodeKind.ofName name).toOption.isNone then .error (.unknownKind name)
  else .ok { g with settings := (s, value) :: g.settings }

/-- The value of a switch. -/
def value? (g : Given) (s : Switch) : Option Text := g.settings.lookup s

/-- The first argument is the input; another one is too much. -/
def argument (g : Given) (t : Text) : Given :=
  if g.input?.isNone then { g with input? := some t } else { g with surplus := true }

end Given

/-- What the words give; nothing where help is asked for. A divider next to the input belongs to it. -/
def collect (g : Given) : List Word → Except UsageError (Option Given)
  | [] => .ok (some g)
  | .switch .help none :: _ => .ok none
  | .switch .help (some _) :: _ => .error (.needlessValue .help)
  | .switch s (some value) :: rest =>
    match g.set s value with
    | .ok g => collect g rest
    | .error e => .error e
  | .switch s none :: .argument value :: rest =>
    match g.set s value with
    | .ok g => collect g rest
    | .error e => .error e
  | .switch s none :: _ => .error (.missingValue s)
  -- the divider goes to the input where it stands next to it; anywhere else it is a word too many
  | .argument t :: .divider :: rest =>
    collect { g.argument t with surplus := g.surplus || g.input?.isSome } rest
  | .argument t :: rest => collect (g.argument t) rest
  | .divider :: .argument t :: rest => collect (g.argument t) rest
  | .divider :: rest => collect { g with surplus := true } rest
  | .unknown _ :: rest => collect { g with surplus := true } rest

/-- What a command line asks for. -/
structure Arguments where
  input : Text
  kind : CodeKind
  schema : String
  schemaDirectory : Text
  package? : Option String
  contracts? : Option Text
  output? : Option Text
  deriving DecidableEq, Repr

/-- The directory of introspection documents if none is named. -/
def defaultDirectory : Text := "./data/graphql".toList

/-- What is asked for by what the words give. -/
def Given.arguments (g : Given) : Except UsageError Arguments :=
  match g.input?, (g.value? .kind).bind fun t => (CodeKind.ofName (String.ofList t)).toOption with
  | none, _ => .error .missingInput
  | some _, none => .error .missingKind
  | some input, some kind =>
    if g.surplus then .error .surplusWord
    else
      .ok {
        input, kind
        schema := ((g.value? .schema).map String.ofList).getD Judge.defaultSchema
        schemaDirectory := (g.value? .schemaDirectory).getD defaultDirectory
        package? := (g.value? .package).map String.ofList
        contracts? := g.value? .contracts
        output? := g.value? .output }

/-- What a command line asks for; nothing where help is asked for. -/
def readArguments (line : List Text) : Except UsageError (Option Arguments) :=
  match words line with
  | .error e => .error e
  | .ok words =>
    match collect {} words with
    | .error e => .error e
    | .ok none => .ok none
    | .ok (some given) => given.arguments.map some

end SnippetAudit.CommandLine
