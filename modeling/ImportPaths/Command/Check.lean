import ImportPaths.Command.Prepare

/-!
# The command that looks without writing

It checks the configuration and tells how many files each direction would change.
-/

namespace ImportPaths

open Terminal (plural)

/-- Tells what a pass in one direction would do. -/
def preview (s : Settings) (direction : Direction) : Job (Direction × Summary) := do
  let summary ← Job.runPass ⟨s, direction, true⟩ fun _ => []
  Job.status .info (toString direction ++ ": " ++ plural summary.changed "file" ++ " of " ++
    toString summary.scanned ++ " would change (" ++ plural summary.replaced "specifier" ++ ")")
  if summary.unresolved ≠ 0 then
    Job.status .warning (toString direction ++ ": " ++ plural summary.unresolved "specifier" ++
      " cannot be translated and would be left as is (run with --verbose to list them)")
  return (direction, summary)

/-- Checks the configuration and previews both directions. -/
def checkCommand (env : Environment) (args : CommandLine.ConfigArgs) :
    Job (List (Direction × Summary)) := do
  Job.status .info "Checking configuration..."
  let cwd ← Job.currentDir
  let s ← prepare env args cwd
  Job.status .success "Configuration is valid"
  Job.status .info ("Scanning " ++ toString (displayPath s.scanRoot cwd) ++ " for ." ++
    ", .".intercalate (s.extensions.map String.ofList) ++ " files, alias '" ++
    String.ofList s.token ++ "/' -> " ++ toString (displayPath s.projectRoot cwd))
  let previews ← Direction.all.mapM (preview s)
  Job.status .success "All checks passed!"
  return previews

end ImportPaths
