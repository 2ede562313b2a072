/-! # Log messages

Messages that accompany a run of the program, with a level each. They are data: what is done with
them is left to the caller.
-/

namespace JitTrace

/-- How important a message is. -/
inductive Level where
  | debug
  | info
  | warning
  deriving DecidableEq, Repr

/-- A log message. -/
structure Message where
  level : Level
  text : String
  deriving DecidableEq, Repr

namespace Message

def debug (text : String) : Message := ⟨.debug, text⟩

def info (text : String) : Message := ⟨.info, text⟩

def warning (text : String) : Message := ⟨.warning, text⟩

end Message

end JitTrace
