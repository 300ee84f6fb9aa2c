import RecordQuery.Text.Pieces
set_option autoImplicit false

/-!
# Command line: options and arguments

Options stand among plain arguments, under a long name after two dashes or a short one after one dash.  Short
options may be joined; the value of an option follows it directly, after an equals sign, or as the next
argument.  Two dashes alone end the options.
-/

namespace RecordQuery.CommandLine

/-- Why arguments are not carried out. -/
inductive Stop where
  /-- the usage was asked for -/
  | help
  /-- the version was asked for -/
  | version
  /-- the arguments make no sense -/
  | refused
  deriving DecidableEq, Repr, Inhabited

/-- What an option does to what was read so far; nothing if it is refused. -/
inductive Action (σ : Type) where
  | flag (apply : σ → Option σ)
  | value (apply : String → σ → Option σ)
  | stop (why : Stop)

/-- An option. -/
structure Rule (σ : Type) where
  long : String
  short : Option Char
  action : Action σ

/-- What one argument comes to. -/
inductive Step (σ : Type) where
  | done (state : σ)
  /-- the next argument is the value of an option -/
  | awaiting (apply : String → σ → Option σ) (state : σ)
  | stopped (why : Stop)

/-- The state that an action left, unless it was refused. -/
def Step.ofOption {σ : Type} : Option σ → Step σ
  | some state => .done state
  | none => .stopped .refused

/-- The value that directly follows a short option: all that is left, without an equals sign at its front. -/
def attached : List Char → Option String
  | [] => none
  | '=' :: rest => some (String.ofList rest)
  | rest => some (String.ofList rest)

/-- Joined short options. -/
def shortOptions {σ : Type} (rules : List (Rule σ)) : List Char → σ → Step σ
  | [], state => .done state
  | c :: rest, state =>
    match rules.find? fun r => r.short == some c with
    | none => .stopped .refused
    | some rule =>
      match rule.action with
      | .stop why => .stopped why
      | .flag apply =>
        match apply state with
        | some state => shortOptions rules rest state
        | none => .stopped .refused
      | .value apply =>
        match attached rest with
        | some value => .ofOption (apply value state)
        | none => .awaiting apply state

/-- A long option, perhaps with its value after an equals sign. -/
def longOption {σ : Type} (rules : List (Rule σ)) (text : List Char) (state : σ) : Step σ :=
  let (name, value) := match Text.cutFirst '=' text with
    | some (name, value) => (name, some (String.ofList value))
    | none => (text, none)
  match rules.find? fun r => r.long == String.ofList name with
  | none => .stopped .refused
  | some rule =>
    match rule.action, value with
    | .stop why, none => .stopped why
    | .flag apply, none => .ofOption (apply state)
    | .value apply, some value => .ofOption (apply value state)
    | .value apply, none => .awaiting apply state
    | _, some _ => .stopped .refused

/-- What an argument comes to as an option; nothing if it is a plain argument. -/
def option? {σ : Type} (rules : List (Rule σ)) (arg : String) (state : σ) : Option (Step σ) :=
  match arg.toList with
  | '-' :: '-' :: text => some (longOption rules text state)
  | ['-'] => none
  | '-' :: text => some (shortOptions rules text state)
  | _ => none

/-- An argument that can be the value of an option: it does not look like an option. -/
def isPlain (arg : String) : Bool := arg == "-" || arg.toList.head? != some '-'

/-- Read all arguments; `plain` takes those that are no options. -/
def readArguments {σ : Type} (rules : List (Rule σ)) (plain : String → σ → Option σ) :
    List String → σ → Except Stop σ
  | [], state => .ok state
  | arg :: rest, state =>
    if arg = "--" then
      match rest.foldlM (fun state arg => plain arg state) state with
      | some state => .ok state
      | none => .error .refused
    else
      match option? rules arg state with
      | some (.done state) => readArguments rules plain rest state
      | some (.stopped why) => .error why
      | some (.awaiting apply state) =>
        match rest with
        | [] => .error .refused
        | value :: rest =>
          if isPlain value then
            match apply value state with
            | some state => readArguments rules plain rest state
            | none => .error .refused
          else .error .refused
      | none =>
        match plain arg state with
        | some state => readArguments rules plain rest state
        | none => .error .refused

/-- Read options up to the first plain argument, which names a command; the arguments after it remain. -/
def readCommandName {σ : Type} (rules : List (Rule σ)) : List String → σ → Except Stop (σ × String × List String)
  | [], _ => .error .refused
  | arg :: rest, state =>
    if arg = "--" then .error .refused
    else
      match option? rules arg state with
      | some (.done state) => readCommandName rules rest state
      | some (.stopped why) => .error why
      | some (.awaiting _ _) => .error .refused
      | none => .ok (state, arg, rest)

end RecordQuery.CommandLine
