import RecordQuery.CommandLine.Report
set_option autoImplicit false

/-!
# Main: the program

Arguments, settings file and environment are handed to the command line, and its report is printed.
-/

open RecordQuery

/-- The name of the settings file. -/
def settingsFileName : String := "quarry.toml"

/-- Where a settings file may be: in the working directory, else in the user's settings directory. -/
def settingsPaths : IO (List String) := do
  let home ← IO.getEnv "HOME"
  let config ← IO.getEnv "XDG_CONFIG_HOME"
  let directory := config.or (home.map (· ++ "/.config"))
  return settingsFileName :: (directory.map (· ++ "/quarry/" ++ settingsFileName)).toList

/-- The first settings file that exists, by name and text. -/
def findSettings : List String → IO (Option (String × String))
  | [] => return none
  | path :: rest => do
    try return some (path, ← IO.FS.readFile path)
    catch
      | .noFileOrDirectory _ _ _ => findSettings rest
      | e => throw e

/-- Run the program. -/
def main (args : List String) : IO UInt32 := do
  let file ← findSettings (← settingsPaths)
  let report := CommandLine.run args file (← IO.getEnv "QUARRY_DATABASE_URL")
  IO.print report.output
  IO.eprint report.errors
  return UInt32.ofNat report.exit
