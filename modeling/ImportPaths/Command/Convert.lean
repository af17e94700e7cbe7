import ImportPaths.Command.Prepare

/-!
# The commands that change specifiers
-/

namespace ImportPaths

/-- Settings as they are shown in the log. -/
def Settings.shown (s : Settings) : String :=
  "RewriteConfig \x7b scan_root: " ++ Text.quoted s.scanRoot.chars ++ ", extensions: [" ++
    ", ".intercalate (s.extensions.map Text.quoted) ++ "], alias_prefix: " ++
    Text.quoted s.token ++ ", project_root: " ++ Text.quoted s.projectRoot.chars ++ " \x7d"

/-- Makes one pass over the scan root, and tells every file that changed. -/
def convert (env : Environment) (direction : Direction) (args : CommandLine.ConfigArgs)
    (dryRun : Bool) : Job Summary := do
  let cwd ← Job.currentDir
  let s ← prepare env args cwd
  Job.log ⟨.conversion, .debug, "resolved configuration", [("config", s.shown)]⟩
  Job.status .info ("Converting imports (" ++ toString direction ++ ") in " ++
    toString (displayPath s.scanRoot cwd))
  let summary ← Job.runPass ⟨s, direction, dryRun⟩ fun c =>
    [.change (displayPath c.path cwd) c.replaced c.dryRun]
  Job.tell (.summary summary dryRun)
  return summary

end ImportPaths
