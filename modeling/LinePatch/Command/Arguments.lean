import LinePatch.Block.Boundary

/-!
# Command lines

* `Command.ofArguments`: the command that some arguments ask for.

An option is `--name`, its value the next argument or what follows an equals sign; short options
may stand together, the last of them with its value attached. No option but a counter is given
twice. What follows `--` are no options.
-/

namespace LinePatch

/-- Where a specification comes from. -/
inductive SpecSource
  | file (path : Text)
  | inline (text : Text)
  deriving DecidableEq, Repr

/-- What can be asked of the program. -/
inductive Command
  | apply (target : Option Text) (source : SpecSource) (dryRun diff : Bool)
  | check (target : Option Text) (source : SpecSource)
  | extract (target declaration : Text) (marker : Option Text) (kind : Boundary.Kind)
      (showText : Bool)
  deriving DecidableEq, Repr

namespace Command

/-- Why arguments ask for no command. -/
inductive Stop
  | help
  | version
  | usage
  deriving DecidableEq, Repr

/-! ## Options -/

/-- The options of all commands. -/
inductive Key
  | verbose
  | help
  | version
  | patches
  | inline
  | dryRun
  | diff
  | declaration
  | nextMarker
  | strategy
  | showText
  deriving DecidableEq, Repr

/-- The long name of an option. -/
def Key.long : Key → String
  | .verbose => "verbose"
  | .help => "help"
  | .version => "version"
  | .patches => "patches"
  | .inline => "inline"
  | .dryRun => "dry-run"
  | .diff => "diff"
  | .declaration => "declaration"
  | .nextMarker => "next-marker"
  | .strategy => "strategy"
  | .showText => "show"

/-- The short name of an option, if it has one. -/
def Key.short : Key → Option Char
  | .verbose => some 'v'
  | .help => some 'h'
  | .version => some 'V'
  | .patches => some 'p'
  | .dryRun => some 'n'
  | .diff => some 'd'
  | _ => none

/-- Whether an option has a value. -/
def Key.hasValue : Key → Bool
  | .patches | .inline | .declaration | .nextMarker | .strategy => true
  | _ => false

/-- The boundary that a strategy names. -/
def kind? (name : Text) : Option Boundary.Kind :=
  [Boundary.Kind.nextMarker, .braceDepth].find? (·.name.toList == name)

/-- Whether an option takes a value: a path is not empty, and a strategy is known. -/
def Key.accepts : Key → Text → Bool
  | .patches, value => !value.isEmpty
  | .strategy, value => (kind? value).isSome
  | _, _ => true

/-! ## Arguments of a command -/

/-- The arguments read so far: options with their values, and the others in order. -/
structure Arguments where
  options : List (Key × Text) := []
  operands : List Text := []
  deriving DecidableEq, Repr

namespace Arguments

/-- Whether an option was given. -/
def has (as : Arguments) (key : Key) : Bool := as.options.any (·.1 == key)

/-- The value of an option. -/
def value? (as : Arguments) (key : Key) : Option Text :=
  (as.options.find? (·.1 == key)).map Prod.snd

/-- The arguments with one more option. -/
def addOption (as : Arguments) (key : Key) (value : Text) : Except Stop Arguments :=
  match key with
  | .help => .error .help
  | .version => .error .version
  | .verbose => .ok as
  | _ =>
    if as.has key || !key.accepts value then .error .usage
    else .ok { as with options := (key, value) :: as.options }

/-- The arguments with one more operand. Every command takes one at most, which is a path. -/
def addOperand (as : Arguments) (operand : Text) : Except Stop Arguments :=
  if as.operands.isEmpty && !operand.isEmpty then .ok { as with operands := [operand] }
  else .error .usage

/-- The arguments with a long option, after its dashes, and the option that the next argument is
the value of. -/
def addLong (keys : List Key) (as : Arguments) (t : Text) :
    Except Stop (Arguments × Option Key) :=
  let name := t.takeWhile (· ≠ '=')
  match keys.find? (·.long.toList == name), t.drop name.length with
  | none, _ => .error .usage
  | some key, [] =>
    if key.hasValue then .ok (as, some key) else (as.addOption key []).map (·, none)
  | some key, _ :: value =>
    if key.hasValue then (as.addOption key value).map (·, none) else .error .usage

/-- The arguments with a run of short options, and the option that the next argument is the value
of. -/
def addShort (keys : List Key) (as : Arguments) : Text → Except Stop (Arguments × Option Key)
  | [] => .ok (as, none)
  | c :: cs =>
    match keys.find? (·.short == some c) with
    | none => .error .usage
    | some key =>
      if key.hasValue then
        match cs with
        | [] => .ok (as, some key)
        | '=' :: value => (as.addOption key value).map (·, none)
        | value => (as.addOption key value).map (·, none)
      else
        match as.addOption key [] with
        | .error stop => .error stop
        | .ok as => addShort keys as cs

/-- Whether an argument is one or more options; a lone dash is not. -/
def isOption : Text → Bool
  | '-' :: _ :: _ => true
  | _ => false

/-- The arguments with one that is options. -/
def addFlags (keys : List Key) (as : Arguments) : Text → Except Stop (Arguments × Option Key)
  | '-' :: '-' :: t => addLong keys as t
  | t => addShort keys as (t.drop 1)

/-- The arguments of a command with the given options; `pending` waits for its value. -/
def addAll (keys : List Key) : Option Key → Arguments → List Text → Except Stop Arguments
  | none, as, [] => .ok as
  | some _, _, [] => .error .usage
  | some key, as, arg :: args =>
    if isOption arg then .error .usage
    else
      match as.addOption key arg with
      | .error stop => .error stop
      | .ok as => addAll keys none as args
  | none, as, arg :: args =>
    if arg = ['-', '-'] then args.foldlM addOperand as
    else if isOption arg then
      match addFlags keys as arg with
      | .error stop => .error stop
      | .ok (as, pending) => addAll keys pending as args
    else
      match as.addOperand arg with
      | .error stop => .error stop
      | .ok as => addAll keys none as args

/-- The source of a specification: one of two options, and not both. -/
def source (as : Arguments) : Except Stop SpecSource :=
  match as.value? .patches, as.value? .inline with
  | some path, none => .ok (.file path)
  | none, some t => .ok (.inline t)
  | _, _ => .error .usage

end Arguments

/-! ## Commands -/

/-- The commands by name. -/
inductive Verb
  | apply
  | check
  | extract
  | help
  deriving DecidableEq, Repr

/-- The name of a command. -/
def Verb.name : Verb → String
  | .apply => "apply"
  | .check => "check"
  | .extract => "extract"
  | .help => "help"

/-- All commands. -/
def Verb.all : List Verb := [.apply, .check, .extract, .help]

/-- The options of a command. -/
def Verb.keys : Verb → List Key
  | .apply => [.verbose, .help, .patches, .inline, .dryRun, .diff]
  | .check => [.verbose, .help, .patches, .inline]
  | .extract => [.verbose, .help, .declaration, .nextMarker, .strategy, .showText]
  | .help => []

/-- The command that its name and arguments ask for. -/
def ofVerb (verb : Verb) (args : List Text) : Except Stop Command := do
  match verb with
  | .help =>
    match args with
    | [] => .error .help
    | [name] => if Verb.all.any (·.name.toList == name) then .error .help else .error .usage
    | _ => .error .usage
  | .apply =>
    let as ← Arguments.addAll verb.keys none {} args
    return .apply as.operands.head? (← as.source) (as.has .dryRun) (as.has .diff)
  | .check =>
    let as ← Arguments.addAll verb.keys none {} args
    return .check as.operands.head? (← as.source)
  | .extract =>
    let as ← Arguments.addAll verb.keys none {} args
    match as.operands, as.value? .declaration with
    | [target], some declaration =>
      let kind := ((as.value? .strategy).bind kind?).getD .nextMarker
      return .extract target declaration (as.value? .nextMarker) kind (as.has .showText)
    | _, _ => .error .usage

/-- The command that arguments ask for. Options of the program itself come before its name. -/
def ofArguments : List Text → Except Stop Command
  | [] => .error .usage
  | arg :: args =>
    if Arguments.isOption arg && arg ≠ ['-', '-'] then
      match Arguments.addFlags [.verbose, .help, .version] {} arg with
      | .error stop => .error stop
      | .ok _ => ofArguments args
    else
      match Verb.all.find? (·.name.toList == arg) with
      | none => .error .usage
      | some verb => ofVerb verb args

end Command

end LinePatch
