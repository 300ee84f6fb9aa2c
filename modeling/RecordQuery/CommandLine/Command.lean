import RecordQuery.CommandLine.Options
import RecordQuery.Settings
set_option autoImplicit false

/-!
# Command line: the commands

There are four commands: write a format as SQL, show the expression of a format, evaluate it against a record,
and select from a table.  An option that is given once may not be repeated.
-/

namespace RecordQuery.CommandLine

/-- How fetched records are shown. -/
inductive RecordLayout where
  | table
  | json
  deriving DecidableEq, Repr, Inhabited

/-- What to select from a table. -/
structure Query where
  table : String
  filter : Option String
  args : List String
  /-- names of fields, descending after a dash -/
  order : List String
  limit : Option Nat
  offset : Nat
  dryRun : Bool
  url : Option String
  layout : RecordLayout
  deriving DecidableEq, Repr, Inhabited

/-- A command. -/
inductive Command where
  | sql (format : String) (args : List String) (dialect : Option Dialect)
  | parse (format : String) (args : List String)
  | eval (format : String) (args : List String) (record : String)
  | run (query : Query)
  deriving DecidableEq, Repr, Inhabited

/-- The names of the commands. -/
inductive CommandName where
  | sql
  | parse
  | eval
  | run
  deriving DecidableEq, Repr, Inhabited

/-- The command of a name. -/
def CommandName.ofText? : String → Option CommandName
  | "sql" => some .sql
  | "parse" => some .parse
  | "eval" => some .eval
  | "run" => some .run
  | _ => none

/-- What the options of a command gave so far.  Every command uses a part of it. -/
structure Draft where
  verbose : Bool
  /-- the plain argument -/
  subject : Option String
  args : List String
  dialect : Option Dialect
  record : Option String
  filter : Option String
  order : List String
  limit : Option Nat
  offset : Option Nat
  dryRun : Bool
  url : Option String
  layout : Option RecordLayout
  deriving Inhabited

/-- Nothing is given. -/
def Draft.empty : Draft := ⟨false, none, [], none, none, none, [], none, none, false, none, none⟩

/-- Fill a part that is given at most once. -/
def once {α : Type} (current : Option α) (value : Option α) (store : α → Draft) : Option Draft :=
  match current with
  | some _ => none
  | none => value.map store

/-- A natural number of at most 64 bits, perhaps after a plus sign. -/
def count? (s : String) : Option Nat :=
  let digits := match s.toList with
    | '+' :: rest => rest
    | cs => cs
  (Text.readNat digits).filter (· < Text.wordLimit)

/-- The layout of a name. -/
def layout? : String → Option RecordLayout
  | "table" => some .table
  | "json" => some .json
  | _ => none

/-! ## Options -/

/-- The plain argument of a command; there is one. -/
def subjectArgument (s : String) (d : Draft) : Option Draft :=
  once d.subject (some s) fun s => { d with subject := some s }

/-- Say more. -/
def verboseRule : Rule Draft :=
  ⟨"verbose", some 'v', .flag fun d => if d.verbose then none else some { d with verbose := true }⟩

/-- Show the usage. -/
def helpRule : Rule Draft := ⟨"help", some 'h', .stop .help⟩

/-- Show the version. -/
def versionRule : Rule Draft := ⟨"version", some 'V', .stop .version⟩

/-- A value for a placeholder; may be repeated. -/
def argRule : Rule Draft := ⟨"arg", some 'a', .value fun s d => some { d with args := d.args ++ [s] }⟩

/-- The dialect to write in. -/
def dialectRule : Rule Draft :=
  ⟨"dialect", some 'd', .value fun s d =>
    once d.dialect (Dialect.ofText s).toOption fun x => { d with dialect := some x }⟩

/-- The record to evaluate against. -/
def recordRule : Rule Draft :=
  ⟨"record", some 'r', .value fun s d => once d.record (some s) fun x => { d with record := some x }⟩

/-- The condition that rows must fulfil. -/
def whereRule : Rule Draft :=
  ⟨"where", some 'f', .value fun s d => once d.filter (some s) fun x => { d with filter := some x }⟩

/-- A field to order by; may be repeated. -/
def orderRule : Rule Draft := ⟨"order", some 'o', .value fun s d => some { d with order := d.order ++ [s] }⟩

/-- How many records to select. -/
def limitRule : Rule Draft :=
  ⟨"limit", some 'l', .value fun s d => once d.limit (count? s) fun x => { d with limit := some x }⟩

/-- How many records to skip. -/
def offsetRule : Rule Draft :=
  ⟨"offset", none, .value fun s d => once d.offset (count? s) fun x => { d with offset := some x }⟩

/-- Only show the statement. -/
def dryRunRule : Rule Draft :=
  ⟨"dry-run", none, .flag fun d => if d.dryRun then none else some { d with dryRun := true }⟩

/-- The database to connect to. -/
def urlRule : Rule Draft :=
  ⟨"database-url", none, .value fun s d => once d.url (some s) fun x => { d with url := some x }⟩

/-- How to show the records. -/
def layoutRule : Rule Draft :=
  ⟨"format", none, .value fun s d => once d.layout (layout? s) fun x => { d with layout := some x }⟩

/-- The options of a command. -/
def CommandName.rules : CommandName → List (Rule Draft)
  | .sql => [argRule, dialectRule, verboseRule, helpRule]
  | .parse => [argRule, verboseRule, helpRule]
  | .eval => [argRule, recordRule, verboseRule, helpRule]
  | .run =>
    [whereRule, argRule, orderRule, limitRule, offsetRule, dryRunRule, urlRule, layoutRule, verboseRule,
      helpRule]

/-- The command that a draft describes; `environmentUrl` stands in for the option. -/
def CommandName.command (name : CommandName) (d : Draft) (subject : String) (environmentUrl : Option String) :
    Command :=
  match name with
  | .sql => .sql subject d.args d.dialect
  | .parse => .parse subject d.args
  | .eval => .eval subject d.args (d.record.getD "\x7b\x7d")
  | .run =>
    .run ⟨subject, d.filter, d.args, d.order, d.limit, d.offset.getD 0, d.dryRun, d.url.or environmentUrl,
      d.layout.getD .table⟩

/-- What help may be asked for. -/
inductive HelpTopic where
  | program
  | command (name : CommandName)
  /-- the command that shows help -/
  | help
  deriving DecidableEq, Repr, Inhabited

/-- What the arguments ask for. -/
inductive Invocation where
  | carryOut (verbose : Bool) (command : Command)
  | showHelp (topic : HelpTopic)
  | showVersion
  | refuse
  deriving DecidableEq, Repr, Inhabited

/-- The invocation of a command with its arguments. -/
def CommandName.invocation (name : CommandName) (verbose : Bool) (args : List String)
    (environmentUrl : Option String) : Invocation :=
  match readArguments name.rules subjectArgument args Draft.empty with
  | .error .help => .showHelp (.command name)
  | .error .version => .showVersion
  | .error .refused => .refuse
  | .ok d =>
    match d.subject with
    | some subject => .carryOut (verbose || d.verbose) (name.command d subject environmentUrl)
    | none => .refuse

/-- The help on what some arguments name. -/
def helpOn : List String → Invocation
  | [] => .showHelp .program
  | [name] =>
    if name = "help" then .showHelp .help
    else
      match CommandName.ofText? name with
      | some name => .showHelp (.command name)
      | none => .refuse
  | _ => .refuse

/-- What the arguments ask for. -/
def Invocation.ofArguments (args : List String) (environmentUrl : Option String) : Invocation :=
  match readCommandName [verboseRule, helpRule, versionRule] args Draft.empty with
  | .error .help => .showHelp .program
  | .error .version => .showVersion
  | .error .refused => .refuse
  | .ok (d, name, rest) =>
    if name = "help" then helpOn rest
    else
      match CommandName.ofText? name with
      | some name => name.invocation d.verbose rest environmentUrl
      | none => .refuse

end RecordQuery.CommandLine
