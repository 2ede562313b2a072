import JitTrace.Duration
import JitTrace.Insight.Basic

/-! # Summaries of a function

The status of a function in one line, and the code object that its last compilation produced.
-/

namespace JitTrace.FunctionInsight

/-- The status of a function in one line. -/
def lens (function : FunctionInsight) : String :=
  let status :=
    if function.isCompiled then s!"compiled in {formatDuration function.compileTime}"
    else "interpreted"
  if function.wasDeoptimized then s!"{status} - was deoptimized" else status

/-- The code object of the last compilation that finished. -/
def lastCompiledCode? (function : FunctionInsight) : Option MemoryArea :=
  function.events.reverse.findSome? Event.compiledMemory?

/-- Whether the function has live optimized code. -/
def hasCompiledCode (function : FunctionInsight) : Bool :=
  function.isCompiled && function.lastCompiledCode?.isSome

end JitTrace.FunctionInsight
