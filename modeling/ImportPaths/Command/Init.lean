import ImportPaths.Command.Prepare
import ImportPaths.Config.Schema

/-!
# The command that writes a first configuration
-/

namespace ImportPaths

/-- Writes a file and tells it. -/
def writeAndTell (p cwd : Path) (text : List Char) : Job Unit := do
  Job.writeText p text
  Job.status .success ("Wrote " ++ toString (displayPath p cwd))

/-- Writes a first configuration, with the schema beside it if that is asked for.  What is already
there is only replaced by force. -/
def initCommand (args : CommandLine.InitArgs) : Job Path := do
  let cwd ← Job.currentDir
  let p := cwd.join args.path
  if (← Job.disk).holds p && !args.force then throw (.config (.alreadyExists p))
  if args.schema then
    writeAndTell (p.withFileName Config.schemaFileName) cwd Config.schemaText
  let schema := if args.schema then some (sameMark ++ Config.schemaFileName) else none
  writeAndTell p cwd (Config.exampleText schema)
  Job.status .info "Run 'reroot check' to preview pending rewrites"
  return p

end ImportPaths
