/-!
# `Trajectory.Path` — paths relative to the file that names them

Paths are written with slashes and are joined as they are, without being simplified.
-/

namespace StereoMapping

/-- A path read backwards, without slashes and single dots at its end. The root stays. -/
def trimPath : List Char → List Char
  | ['/'] => ['/']
  | '/' :: rest => trimPath rest
  | '.' :: '/' :: rest => trimPath ('/' :: rest)
  | path => path
termination_by path => path.length

/-- Directory of a file: its path without the last part, empty for a bare name. -/
def parentPath (path : String) : String :=
  let upTo := (trimPath path.toList.reverse).dropWhile fun c => c != '/'
  String.ofList (trimPath upTo).reverse

/-- A path taken from a directory, unless it starts at the root. -/
def joinPath (directory path : String) : String :=
  if path.startsWith "/" then path
  else if directory.isEmpty || directory.endsWith "/" then directory ++ path
  else directory ++ "/" ++ path

end StereoMapping
