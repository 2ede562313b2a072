import JitTrace.Text.Utf8

/-! # Faults of reading and writing

What can go wrong when bytes are read or a file tree is changed. The wording follows the
operating system's; a failing stream brings its own.
-/

namespace JitTrace

/-- Why an input or output operation failed. -/
inductive IoFault where
  | notFound
  | alreadyExists
  | notADirectory
  | isADirectory
  | invalidArgument
  | nameTooLong
  /-- A path holds the character that ends texts for the operating system. -/
  | endInPath
  /-- A line is not text. -/
  | invalidText (fault : Utf8.Fault)
  /-- A file read as a whole is not text. -/
  | notText
  | other (message : String)
  deriving DecidableEq, Repr

/-- The wording of a fault. -/
def IoFault.message : IoFault → String
  | .notFound => "No such file or directory (os error 2)"
  | .alreadyExists => "File exists (os error 17)"
  | .notADirectory => "Not a directory (os error 20)"
  | .isADirectory => "Is a directory (os error 21)"
  | .invalidArgument => "Invalid argument (os error 22)"
  | .nameTooLong => "File name too long (os error 36)"
  | .endInPath => "file name contained an unexpected NUL byte"
  | .invalidText fault => fault.message
  | .notText => "stream did not contain valid UTF-8"
  | .other message => message

end JitTrace
