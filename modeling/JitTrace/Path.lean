/-! # Paths as text

Joining paths and finding the directory of a path, on their texts alone. Nothing is normalised
beyond what these two need: empty parts, and parts that stand for the directory itself unless they
stand in front.
-/

namespace JitTrace.Path

/-- The character between the parts of a path. -/
def separator : Char := '/'

def isAbsolute (path : String) : Bool :=
  path.toList.head? = some separator

/-- The parts of a path between its separators, some of which may be empty. -/
def parts (path : String) : List String :=
  (path.toList.splitOn separator).map String.ofList

/-- A path behind another one. An absolute path replaces the one in front of it. -/
def join (base path : String) : String :=
  if isAbsolute path || base.isEmpty then path
  else if base.toList.getLast? = some separator then base ++ path
  else base ++ "/" ++ path

/-- Whether a part leads nowhere. -/
def isIdle (part : String) : Bool :=
  part = "" || part = "."

/-- The parts without idle ones at the end. A relative path may start with one. -/
def dropIdleEnd (absolute : Bool) (parts : List String) : List String :=
  let kept := (parts.reverse.dropWhile isIdle).reverse
  if kept.isEmpty && !absolute && parts.head? = some "." then ["."] else kept

/-- The directory of a path, unless the path has no part to take off. -/
def parent? (path : String) : Option String :=
  let absolute := isAbsolute path
  let parts :=
    dropIdleEnd absolute (parts (if absolute then String.ofList path.toList.tail else path))
  if parts.isEmpty then none
  else
    let front := "/".intercalate (dropIdleEnd absolute parts.dropLast)
    some (if absolute then "/" ++ front else front)

end JitTrace.Path
