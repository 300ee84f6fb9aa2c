import RecordQuery.CommandLine.Command
set_option autoImplicit false

/-!
# Command line: usage texts
-/

namespace RecordQuery.CommandLine

/-- The version of the program. -/
def versionText : String := "quarry 0.1.0\n"

/-- The usage of the program. -/
def programHelp : String :=
  "Query expressions compiled to SQL or evaluated in memory\n\n" ++
  "Usage: quarry [OPTIONS] <COMMAND>\n\n" ++
  "Commands:\n" ++
  "  sql    Interpolate an expression into SQL text\n" ++
  "  parse  Parse an expression and print its AST\n" ++
  "  eval   Evaluate an expression against a JSON record\n" ++
  "  run    Compile a selection over a table and execute it\n" ++
  "  help   Print this message or the help of the given subcommand(s)\n\n" ++
  "Options:\n" ++
  "  -v, --verbose  Verbose output\n" ++
  "  -h, --help     Print help\n" ++
  "  -V, --version  Print version\n\n" ++
  "EXAMPLES:\n" ++
  "    quarry sql '[name] = %s' --arg root --dialect sqlserver\n" ++
  "    quarry eval '[age] >= 18 and [group] = \x22user\x22' --record '\x7b\x22age\x22: 30, \x22group\x22: " ++
  "\x22user\x22\x7d'\n" ++
  "    quarry run users --where '[id] = %i' --arg 7 --dry-run\n"

/-- The usage of the `sql` command. -/
def sqlHelp : String :=
  "Interpolate an expression into SQL text\n\n" ++
  "Usage: quarry sql [OPTIONS] <FORMAT>\n\n" ++
  "Arguments:\n" ++
  "  <FORMAT>  \n\n" ++
  "Options:\n" ++
  "  -a, --arg <ARGS>         Positional values; JSON when it parses, text otherwise\n" ++
  "  -v, --verbose            Verbose output\n" ++
  "  -d, --dialect <DIALECT>  Target dialect (postgres, mysql, sqlite, sqlserver)\n" ++
  "  -h, --help               Print help\n"

/-- The usage of the `parse` command. -/
def parseHelp : String :=
  "Parse an expression and print its AST\n\n" ++
  "Usage: quarry parse [OPTIONS] <FORMAT>\n\n" ++
  "Arguments:\n" ++
  "  <FORMAT>  \n\n" ++
  "Options:\n" ++
  "  -a, --arg <ARGS>  \n" ++
  "  -v, --verbose     Verbose output\n" ++
  "  -h, --help        Print help\n"

/-- The usage of the `eval` command. -/
def evalHelp : String :=
  "Evaluate an expression against a JSON record\n\n" ++
  "Usage: quarry eval [OPTIONS] <FORMAT>\n\n" ++
  "Arguments:\n" ++
  "  <FORMAT>  \n\n" ++
  "Options:\n" ++
  "  -a, --arg <ARGS>       \n" ++
  "  -v, --verbose          Verbose output\n" ++
  "  -r, --record <RECORD>  The record, as a JSON object [default: \x7b\x7d]\n" ++
  "  -h, --help             Print help\n"

/-- The usage of the `run` command; it shows the URL of the environment. -/
def runHelp (environmentUrl : Option String) : String :=
  "Compile a selection over a table and execute it\n\n" ++
  "Usage: quarry run [OPTIONS] <TABLE>\n\n" ++
  "Arguments:\n" ++
  "  <TABLE>  \n\n" ++
  "Options:\n" ++
  "  -f, --where <FILTER>               Filter expression\n" ++
  "  -v, --verbose                      Verbose output\n" ++
  "  -a, --arg <ARGS>                   \n" ++
  "  -o, --order <ORDER>                Order by a field; prefix with '-' for descending\n" ++
  "  -l, --limit <LIMIT>                \n" ++
  "      --offset <OFFSET>              [default: 0]\n" ++
  "      --dry-run                      Print the SQL without connecting\n" ++
  "      --database-url <DATABASE_URL>  Database connection URL [env: QUARRY_DATABASE_URL=" ++
  environmentUrl.getD "" ++ "]\n" ++
  "  -f, --format <FORMAT>              Output format [default: table] [possible values: table, json]\n" ++
  "  -h, --help                         Print help\n"

/-- The usage of the `help` command. -/
def helpHelp : String :=
  "Print this message or the help of the given subcommand(s)\n\n" ++
  "Usage: quarry help [COMMAND]...\n\n" ++
  "Arguments:\n" ++
  "  [COMMAND]...  Print help for the subcommand(s)\n"

/-- The usage of what help is asked for. -/
def helpText (environmentUrl : Option String) : HelpTopic → String
  | .program => programHelp
  | .help => helpHelp
  | .command .sql => sqlHelp
  | .command .parse => parseHelp
  | .command .eval => evalHelp
  | .command .run => runHelp environmentUrl

/-- What is said about arguments that make no sense. -/
def refusalText : String := "error: the arguments are not understood\n\nFor more information, try '--help'.\n"

end RecordQuery.CommandLine
