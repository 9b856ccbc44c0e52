/-!
# The command line

Options have a long name, and some a short one of one letter. Short names may be written together.
A value follows its option as the next argument, behind an equals sign, or, with a short name,
directly; an argument of its own is not taken for a value if it begins with a dash and goes on
behind it.
A value joined to its option is checked when it is met, one that follows when the next option is met
or the line ends; so an argument that nothing expects is reported before the value in front of it.
-/

namespace Nodeflow

/-- What the command line asks for. -/
structure CommandLine where
  tree : String
  config : Option String := none
  inputs : List String := []
  /-- Whether to draw the data graph instead of calling the function. -/
  dot : Bool := false
  /-- Whether to list the program instead of calling the function. -/
  program : Bool := false
  logLevel : String := "warn"
  deriving DecidableEq, Repr, Inhabited

/-- Why a command line is not carried out. -/
inductive UsageError where
  | displayHelp
  | displayVersion
  | unknownArgument
  | invalidValue
  | tooManyValues
  | argumentConflict
  | missingRequiredArgument
  deriving DecidableEq, Repr

def UsageError.name : UsageError → String
  | displayHelp => "DisplayHelp"
  | displayVersion => "DisplayVersion"
  | unknownArgument => "UnknownArgument"
  | invalidValue => "InvalidValue"
  | tooManyValues => "TooManyValues"
  | argumentConflict => "ArgumentConflict"
  | missingRequiredArgument => "MissingRequiredArgument"

namespace CommandLine

inductive ValueOption where
  | tree
  | config
  | input
  | logLevel
  deriving DecidableEq, Repr

inductive Flag where
  | dot
  | program
  | help
  | version
  deriving DecidableEq, Repr

inductive Opt where
  | value (option : ValueOption)
  | flag (flag : Flag)
  deriving DecidableEq, Repr

def longOption? (name : List Char) : Option Opt :=
  [("tree", Opt.value .tree), ("config", .value .config), ("input", .value .input),
    ("log-level", .value .logLevel), ("dot", .flag .dot), ("program", .flag .program),
    ("help", .flag .help), ("version", .flag .version)].lookup (String.ofList name)

def shortOption? (name : Char) : Option Opt :=
  [('t', Opt.value .tree), ('c', .value .config), ('i', .value .input), ('h', .flag .help),
    ('V', .flag .version)].lookup name

structure Parts where
  tree : Option String := none
  config : Option String := none
  inputs : List String := []
  dot : Bool := false
  program : Bool := false
  logLevel : Option String := none
  /-- The option read last, with its value if there was one, as long as it has not been checked. -/
  pending : Option (ValueOption × Option String) := none

/-- The path that an option names; it must not be empty. -/
def path (old : Option String) (value : String) : Except UsageError (Option String) :=
  if old.isSome then .error .argumentConflict
  else if value.isEmpty then .error .invalidValue
  else .ok (some value)

/-- Stores the value of an option. Only inputs may be given more than once. -/
def store (p : Parts) (option : ValueOption) (value : String) : Except UsageError Parts := do
  match option with
  | .tree => return { p with tree := ← path p.tree value }
  | .config => return { p with config := ← path p.config value }
  | .input => return { p with inputs := p.inputs ++ [value] }
  | .logLevel =>
    if p.logLevel.isSome then throw .argumentConflict
    return { p with logLevel := some value }

/-- Checks the option that was read last. -/
def settle (p : Parts) : Except UsageError Parts :=
  match p.pending with
  | none => .ok p
  | some (_, none) => .error .invalidValue
  | some (option, some value) => store { p with pending := none } option value

def raise (p : Parts) (flag : Flag) : Except UsageError Parts := do
  let p ← settle p
  match flag with
  | .help => throw .displayHelp
  | .version => throw .displayVersion
  | .dot => if p.dot then throw .argumentConflict else return { p with dot := true }
  | .program => if p.program then throw .argumentConflict else return { p with program := true }

/-- Reads an option that takes a value. A value joined to the option is checked at once. -/
def valued (p : Parts) (option : ValueOption) (value : Option String) :
    Except UsageError Parts := do
  let p ← settle p
  match value with
  | some value => store p option value
  | none => return { p with pending := some (option, none) }

/-- Reads a long option, behind its two dashes. -/
def long (p : Parts) (text : List Char) : Except UsageError Parts :=
  let name := text.takeWhile (· ≠ '=')
  let value := match text.drop name.length with
    | _ :: value => some (String.ofList value)
    | [] => none
  match longOption? name, value with
  | none, _ => .error .unknownArgument
  | some (.flag _), some _ => .error .tooManyValues
  | some (.flag flag), none => raise p flag
  | some (.value option), value => valued p option value

/-- Reads short options that are written together, behind their dash. -/
def short (p : Parts) : List Char → Except UsageError Parts
  | [] => .ok p
  | c :: rest =>
    match shortOption? c with
    | none => .error .unknownArgument
    | some (.flag flag) => do short (← raise p flag) rest
    | some (.value option) =>
      match rest with
      | [] => valued p option none
      | '=' :: value => valued p option (some (String.ofList value))
      | value => valued p option (some (String.ofList value))

/-- Whether an argument can be the value of the option before it. -/
def isValue : List Char → Bool
  | '-' :: _ :: _ => false
  | _ => true

def argument (p : Parts) (text : List Char) : Except UsageError Parts :=
  match p.pending, text with
  | some (option, none), text =>
    if isValue text then
      .ok { p with pending := some (option, some (String.ofList text)) }
    else
      match text with
      | '-' :: '-' :: rest => long p rest
      | _ => short p (text.drop 1)
  | _, '-' :: '-' :: rest => long p rest
  | _, '-' :: c :: rest => short p (c :: rest)
  | _, _ => .error .unknownArgument

/-- Reads arguments up to two dashes alone, behind which nothing is expected. -/
def arguments : Parts → List (List Char) → Except UsageError Parts
  | p, [] => settle p
  | p, ['-', '-'] :: rest => if rest.isEmpty then settle p else .error .unknownArgument
  | p, text :: rest => do arguments (← argument p text) rest

def finish (p : Parts) : Except UsageError CommandLine := do
  if p.dot && p.program then throw .argumentConflict
  match p.tree with
  | none => throw .missingRequiredArgument
  | some tree =>
    return { tree, config := p.config, inputs := p.inputs, dot := p.dot, program := p.program,
             logLevel := p.logLevel.getD "warn" }

def parse (args : List String) : Except UsageError CommandLine := do
  finish (← arguments {} (args.map String.toList))

end CommandLine

end Nodeflow
