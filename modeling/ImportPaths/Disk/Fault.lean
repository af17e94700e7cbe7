/-!
# Failed disk operations
-/

namespace ImportPaths

/-- Why a disk operation failed. -/
inductive DiskFault where
  | notFound
  | notDirectory
  | isDirectory
  | tooManyLinks
  | nameTooLong
  /-- No path has the character NUL in it. -/
  | nulInPath
  /-- A file that is no UTF-8 was read as text. -/
  | notText
  /-- A failure told from outside, in its own words. -/
  | reported (isNotFound : Bool) (words : String)
deriving DecidableEq, Inhabited

namespace DiskFault

def message : DiskFault → String
  | .notFound => "No such file or directory (os error 2)"
  | .notDirectory => "Not a directory (os error 20)"
  | .isDirectory => "Is a directory (os error 21)"
  | .tooManyLinks => "Too many levels of symbolic links (os error 40)"
  | .nameTooLong => "File name too long (os error 36)"
  | .nulInPath => "file name contained an unexpected NUL byte"
  | .notText => "stream did not contain valid UTF-8"
  | .reported _ words => words

/-- Whether the failure says that there is nothing at the path. -/
def isNotFound : DiskFault → Bool
  | .notFound => true
  | .reported isNotFound _ => isNotFound
  | _ => false

end DiskFault

end ImportPaths
