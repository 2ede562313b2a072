import JitTrace.Stream.Basic

/-! # File systems

What the program asks of a file system. Opening a directory succeeds, as far as reading goes, and
the first read of it fails. The program is written against these five operations, so it runs on
real files and on a file tree that is a value.
-/

namespace JitTrace

/-- What a path leads to. -/
inductive FileKind where
  | file
  | directory
  deriving DecidableEq, Repr

/-- The operations on files and directories. -/
class FileSystem (m : Type → Type) where
  /-- What a path leads to, if it leads anywhere. -/
  kind? : String → m (Option FileKind)
  /-- Opens a path for reading. -/
  openFile : String → m (Except IoFault Stream)
  /-- Makes a file with a text, in place of one that is there. -/
  writeFile : String → String → m (Except IoFault Unit)
  /-- Makes a directory and those above it, as far as they are missing. -/
  createDirectories : String → m (Except IoFault Unit)
  /-- Removes a directory and everything in it. -/
  removeDirectory : String → m (Except IoFault Unit)

namespace Stream

/-- Reads a stream to its end, behind the bytes read so far. -/
def readAllAfter (found : ByteArray) : Stream → Except IoFault ByteArray
  | [] => .ok found
  | .interrupted :: rest => readAllAfter found rest
  | .failure fault :: _ => .error fault
  | .data bytes :: rest => readAllAfter (found ++ ⟨bytes.toArray⟩) rest

/-- Reads a stream to its end. -/
def readAll (stream : Stream) : Except IoFault ByteArray :=
  readAllAfter .empty stream

end Stream

/-- Whether a path leads anywhere. -/
def pathExists {m : Type → Type} [Monad m] [FileSystem m] (path : String) : m Bool := do
  return (← FileSystem.kind? path).isSome

end JitTrace
