import ImportPaths.Text.Basic

/-!
# Whether colours can be shown

What the environment tells about the place to which the output goes.  It is asked only where nobody
has said whether colours are wanted.
-/

namespace ImportPaths.Terminal

/-- The variables of an environment, by their names. -/
abbrev Variables := String → Option (List Char)

namespace Variables

/-- Whether a variable is set, and not to zero. -/
def isOn (vars : Variables) (name : String) : Bool := (vars name).any (· != ['0'])

/-- Whether a variable is set to one of some words. -/
def isOneOf (vars : Variables) (name : String) (words : List String) : Bool :=
  (vars name).any fun v => words.any (·.toList == v)

end Variables

/-- The variables by which services that build software make themselves known; the value does not
matter. -/
def serviceNames : List String :=
  ["CI_NAME", "GITHUB_ACTION", "GITLAB_CI", "NETLIFY", "TRAVIS", "CODEBUILD_SRC_DIR",
    "BUILDER_OUTPUT", "GITLAB_DEPLOYMENT", "NOW_GITHUB_DEPLOYMENT", "NOW_BUILDER",
    "BITBUCKET_DEPLOYMENT", "GERRIT_PROJECT", "SYSTEM_TEAMFOUNDATIONCOLLECTIONURI", "BITRISE_IO",
    "BUDDY_WORKSPACE_ID", "BUILDKITE", "CIRRUS_CI", "APPVEYOR", "CIRCLECI", "SEMAPHORE", "DRONE",
    "DSARI", "TDDIUM", "STRIDER", "TASKCLUSTER_ROOT_URL", "JENKINS_URL", "bamboo.buildKey",
    "GO_PIPELINE_NAME", "HUDSON_URL", "WERCKER", "MAGNUM", "NEVERCODE", "RENDER", "SAIL_CI",
    "SHIPPABLE"]

/-- Where one of these services keeps its interpreter. -/
def servicePlace : String := "//heroku/node/bin/node"

/-- Whether a service that builds software runs the program. -/
def isService (vars : Variables) : Bool :=
  vars.isOneOf "CI" ["true", "1", "woodpecker"] ||
    serviceNames.any (fun name => (vars name).isSome) ||
    (vars "NODE").any servicePlace.toList.isSuffixOf

/-- Whether colours can be shown, by an output that is a terminal or not. -/
def showsColors (vars : Variables) (isTerminal : Bool) : Bool :=
  vars.isOn "CLICOLOR_FORCE" ||
    ((isTerminal || vars.isOn "IGNORE_IS_TERMINAL") && !vars.isOneOf "TERM" ["dumb"] &&
      ((vars "COLORTERM").isSome || (vars "TERM").isSome ||
        vars.isOneOf "TERM_PROGRAM" ["iTerm.app", "Apple_Terminal"] || vars.isOn "CLICOLOR" ||
        isService vars))

/-- The variables that are looked at. -/
def colorVariables : List String :=
  ["CLICOLOR_FORCE", "IGNORE_IS_TERMINAL", "TERM", "COLORTERM", "TERM_PROGRAM", "CLICOLOR", "CI",
    "NODE"] ++ serviceNames

end ImportPaths.Terminal
