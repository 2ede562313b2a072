import JitTrace.FileSystem
import JitTrace.Journal

/-! # Transcripts

What a run of the program has printed, and the messages that go with it. An action that keeps a
transcript, and one that may fail, can use the file system of the actions below it.
-/

namespace JitTrace

/-- What a run has said so far. -/
structure Transcript where
  output : String
  messages : List Message
  deriving DecidableEq, Repr

/-- The transcript of a run that has said nothing. -/
def Transcript.blank : Transcript := ⟨"", []⟩

/-- Actions that keep a transcript. -/
abbrev Recorded (m : Type → Type) := StateT Transcript m

section

variable {m : Type → Type} [Monad m]

instance {σ : Type} [FileSystem m] : FileSystem (StateT σ m) where
  kind? path := StateT.lift (FileSystem.kind? path)
  openFile path := StateT.lift (FileSystem.openFile path)
  writeFile path text := StateT.lift (FileSystem.writeFile path text)
  createDirectories path := StateT.lift (FileSystem.createDirectories path)
  removeDirectory path := StateT.lift (FileSystem.removeDirectory path)

instance {ε : Type} [FileSystem m] : FileSystem (ExceptT ε m) where
  kind? path := ExceptT.lift (FileSystem.kind? path)
  openFile path := ExceptT.lift (FileSystem.openFile path)
  writeFile path text := ExceptT.lift (FileSystem.writeFile path text)
  createDirectories path := ExceptT.lift (FileSystem.createDirectories path)
  removeDirectory path := ExceptT.lift (FileSystem.removeDirectory path)

/-- Goes on with a result, or fails with a fault made from its fault. -/
def require {ε δ α : Type} (wrap : δ → ε) : Except δ α → ExceptT ε m α
  | .ok value => pure value
  | .error fault => throw (wrap fault)

variable [MonadStateOf Transcript m]

/-- Adds messages. -/
def remarkAll (messages : List Message) : m Unit :=
  modifyThe Transcript fun transcript =>
    { transcript with messages := transcript.messages ++ messages }

/-- Adds a message. -/
def remark (message : Message) : m Unit :=
  remarkAll [message]

/-- Prints a text. -/
def print (text : String) : m Unit :=
  modifyThe Transcript fun transcript => { transcript with output := transcript.output ++ text }

/-- Prints a text and a line end. -/
def printLine (text : String) : m Unit :=
  print (text ++ "\n")

end

end JitTrace
