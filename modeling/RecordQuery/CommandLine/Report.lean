import RecordQuery.CommandLine.Help
import RecordQuery.Archive.Encode
import RecordQuery.Expr.Eval
import RecordQuery.Expr.Render
import RecordQuery.Json.Reader
import RecordQuery.Statement.Select
set_option autoImplicit false

/-!
# Command line: carrying out a command

A command answers a report: what is printed and the exit status.  The status is zero for success, one for a
failure, which keeps what was printed before it, and two for arguments that make no sense.
-/

namespace RecordQuery.CommandLine

/-- What a run of the program shows. -/
structure Report where
  exit : Nat
  output : String
  errors : String
  deriving DecidableEq, Repr, Inhabited

/-- Why a command fails. -/
inductive Failure where
  | fault (f : Fault)
  /-- the settings cannot be used -/
  | settings (f : Fault)
  /-- the record is no JSON -/
  | recordNotJson
  /-- the record is JSON but no object -/
  | recordNotObject
  deriving Inhabited

/-- The wording of a failure. -/
def Failure.message : Failure → String
  | .fault f => f.message
  | .settings f => "loading configuration: " ++ f.message
  | .recordNotJson => "--record is not JSON"
  | .recordNotObject => "--record must be a JSON object"

/-- What a command has printed, and how it failed if it did. -/
structure Progress where
  output : String
  failure : Option Failure
  deriving Inhabited

namespace Progress

/-- A command that failed at once. -/
def failed (why : Failure) : Progress := ⟨"", some why⟩

/-- Print a text and go on. -/
def printing (text : String) (next : Progress) : Progress := { next with output := text ++ next.output }

/-- Print a text and end. -/
def ended (text : String) : Progress := ⟨text, none⟩

/-- Go on with a result, or fail. -/
def after {α : Type} (outcome : Outcome α) (next : α → Progress) : Progress :=
  match outcome with
  | .ok a => next a
  | .error f => failed (.fault f)

/-- The report of a command that ended. -/
def report (p : Progress) : Report :=
  match p.failure with
  | none => ⟨0, p.output, ""⟩
  | some why => ⟨1, p.output, "Error: " ++ why.message ++ "\n"⟩

end Progress

/-- A value for a placeholder: JSON where the argument is JSON, the argument as a text otherwise. -/
def argumentValue (arg : String) : Value :=
  match Json.read? arg with
  | some json => Value.ofJson json
  | none => .string arg

/-- What the placeholders of a format stand for. -/
def binding (args : List String) : Format.Binding := ⟨args.map argumentValue, []⟩

/-- Write a format as SQL. -/
def writeSql (dialect : Dialect) (format : String) (args : List String) : Progress :=
  .after (Format.interpolate dialect format (binding args)) fun sql => .ended (sql ++ "\n")

/-- Show the expression of a format and its SQL. -/
def showExpression (dialect : Dialect) (format : String) (args : List String) : Progress :=
  .after (Expr.parse format (binding args)) fun e =>
    .printing ((Archive.ofExpr e).prettyText ++ "\n")
      (.after (e.render dialect) fun sql => .ended ("Renders as: " ++ sql ++ "\n"))

/-- The record that a JSON text spells. -/
def record? (text : String) : Except Failure Record :=
  match Json.read? text with
  | none => .error .recordNotJson
  | some json =>
    match Value.ofJson json with
    | .object r => .ok r
    | _ => .error .recordNotObject

/-- Evaluate a format against a record. -/
def evaluateFormat (format : String) (args : List String) (record : String) : Progress :=
  .after (Expr.parse format (binding args)) fun e =>
    match record? record with
    | .error why => .failed why
    | .ok r => .after (e.evaluate r.scope) fun v => .ended (v.describe ++ "\n")

/-- An ordering term: a field, descending after a dash. -/
def orderBy (s : Shape) (name : String) : Shape :=
  match name.toList with
  | '-' :: rest => s.orderBy (Expr.ofFieldName (String.ofList rest)) true
  | _ => s.orderBy (Expr.ofFieldName name) false

/-- The selection that a query describes. -/
def Query.selection (q : Query) : ReadSelection :=
  let all := Shape.ofSource ⟨0, ⟨q.table, [], none⟩⟩
  let filtered := match q.filter with
    | some format => all.addCondition .and (.text format (binding q.args).args)
    | none => all
  let ordered := q.order.foldl orderBy filtered
  let limited := match q.limit with
    | some n => ordered.withLimit n
    | none => ordered
  .ofShape (limited.withOffset q.offset)

/-- The note that there is no database to ask. -/
def noDatabaseText : String := "\n⚠ No database URL. Use --database-url or set QUARRY_DATABASE_URL\n"

/-- Show the statement of a query. -/
def showStatement (dialect : Dialect) (q : Query) : Progress :=
  .printing "Generated SQL:\n"
    (.after ((Target.ofDialect dialect).select q.selection) fun sql =>
      .ended (sql ++ "\n" ++ if q.dryRun then "" else noDatabaseText))

/-- Why no connection is made to a URL: its dialect is not known, or there is no database driver. -/
def connectionFault (configured : Option Dialect) (url : String) : Fault :=
  if configured.isNone && (Dialect.ofUrl? url).isNone then .settings (.unknownScheme url)
  else .unreachable (String.ofList (url.toList.takeWhile (· != ':')))

/-- Select from a table.  Without a URL, or if nothing is to be run, the statement is shown. -/
def runQuery (settings : Settings) (verbose : Bool) (q : Query) : Progress :=
  match (q.url.or settings.url).filter fun _ => !q.dryRun with
  | none => showStatement settings.dialect q
  | some url =>
    .printing (if verbose then "Connecting to: " ++ url ++ "\n" else "")
      (.failed (.fault (connectionFault settings.configuredDialect url)))

/-- Carry out a command. -/
def carryOut (settings : Settings) (verbose : Bool) : Command → Progress
  | .sql format args dialect => writeSql (dialect.getD settings.dialect) format args
  | .parse format args => showExpression settings.dialect format args
  | .eval format args record => evaluateFormat format args record
  | .run q => runQuery settings verbose q

/-- Run the program on its arguments, with the settings file, by name and text, and the URL that the
environment gives. -/
def run (args : List String) (settingsFile : Option (String × String)) (environmentUrl : Option String) :
    Report :=
  match Invocation.ofArguments args environmentUrl with
  | .showHelp topic => ⟨0, helpText environmentUrl topic, ""⟩
  | .showVersion => ⟨0, versionText, ""⟩
  | .refuse => ⟨2, "", refusalText⟩
  | .carryOut verbose command =>
    match Settings.load settingsFile environmentUrl with
    | .error f => (Progress.failed (.settings f)).report
    | .ok settings => (carryOut settings verbose command).report

end RecordQuery.CommandLine
