import JitTrace.Code.Decompile
import JitTrace.Config
import JitTrace.Store.Ingest

/-! # Sessions

A configuration together with everything that was built from the logs. An analysis replaces the
store as a whole once the log was read to its end, and tells the listeners; a failed one changes
nothing. Labels are kept until they are changed on purpose. What a log holds comes from outside:
an operation that opens a log is one on what was found there.
-/

namespace JitTrace

/-- Why a log gives no answer. -/
inductive TraceFault where
  | io (fault : IoFault)
  | missingLog (path : String)
  deriving DecidableEq, Repr

/-- The wording of a fault. -/
def TraceFault.message : TraceFault → String
  | .io fault => s!"Failed to read trace log: {fault.message}"
  | .missingLog path => s!"Trace log not found: {path} (run the instrumented program first)"

/-- A configuration and all that was built under it. Listeners add to what was heard. -/
structure Session (σ : Type) where
  config : Config
  store : Store
  labels : LabelCache
  /-- What is done after a completed analysis, in this order. -/
  listeners : List (Store → σ → σ)
  /-- What the listeners made of the analyses so far. -/
  heard : σ

/-- What an operation of a session leaves behind. -/
structure Answer (σ α : Type) where
  result : Except TraceFault α
  session : Session σ
  remarks : List Message

namespace Session

variable {σ : Type}

/-- A session that has analysed nothing. -/
def start (config : Config) (heard : σ) : Session σ where
  config := config
  store := ∅
  labels := ∅
  listeners := []
  heard := heard

/-- Calls a listener after every completed analysis from now on. -/
def listen (session : Session σ) (listener : Store → σ → σ) : Session σ :=
  { session with listeners := session.listeners ++ [listener] }

/-- Takes a new store over and tells the listeners. -/
def adopt (session : Session σ) (store : Store) : Session σ :=
  { session with
    store := store
    heard := session.listeners.foldl (fun heard listener => listener store heard) session.heard }

/-- The message about a completed analysis. -/
def indexedRemark (store : Store) : Message :=
  .info s!"Indexed {store.functionCount} functions in {store.files.length} files"

/-- Analyses an event log. -/
def analyzeStream (session : Session σ) (stream : Stream) : Answer σ IngestStats :=
  let ingested := (∅ : Store).ingest session.config.chunkSize stream
  match ingested.stats with
  | .ok stats =>
    ⟨.ok stats, session.adopt ingested.store,
      ingested.remarks ++ [indexedRemark ingested.store]⟩
  | .error fault => ⟨.error (.io fault), session, ingested.remarks⟩

/-- Analyses what was found in place of an event log. -/
def analyzeOpened (session : Session σ) : Except TraceFault Stream → Answer σ IngestStats
  | .ok stream => session.analyzeStream stream
  | .error fault => ⟨.error fault, session, []⟩

/-- The block of the code object at an address in a log of optimized code. -/
def codeInStream (session : Session σ) (stream : Stream) (address : String) :
    Answer σ (List String) where
  result := (Block.extract session.config.chunkSize stream address).mapError TraceFault.io
  session := session
  remarks := Block.extractRemarks session.config.chunkSize stream address

/-- The block of the code object at an address in what was found in place of a log. -/
def codeInOpened (session : Session σ) (opened : Except TraceFault Stream) (address : String) :
    Answer σ (List String) :=
  match opened with
  | .ok stream => session.codeInStream stream address
  | .error fault => ⟨.error fault, session, []⟩

/-- Renders a block with labels, as the output lines of a document. -/
def decompileLines (session : Session σ) (lines : List String) (context : String) :
    List String × Session σ :=
  let (written, labels) := session.labels.decompile lines context
  (written, { session with labels })

/-- Renders a block with labels. -/
def decompile (session : Session σ) (lines : List String) (context : String) :
    String × Session σ :=
  let (written, session) := session.decompileLines lines context
  (Text.joinLines written, session)

/-- The document in which the code at an address is rendered. -/
def codeContext (address : String) : String :=
  s!"{address}.asm"

/-- Renders a block that was extracted at an address. -/
def decompileExtracted (address : String) (extracted : Answer σ (List String)) :
    Answer σ String :=
  match extracted.result with
  | .error fault => ⟨.error fault, extracted.session, extracted.remarks⟩
  | .ok lines =>
    let (text, session) := extracted.session.decompile lines (codeContext address)
    ⟨.ok text, session, extracted.remarks ++ [Block.rangeRemark lines]⟩

/-- Gives the label on an output line of a document a name. -/
def rename (session : Session σ) (context : String) (line : Nat) (name : String) :
    Option String × Session σ :=
  let (previous, labels) := session.labels.rename context line name
  (previous, { session with labels })

/-- Forgets jumps and positions of the labels of a document. -/
def resetStatistics (session : Session σ) (context : String) : Session σ :=
  { session with labels := session.labels.resetStatistics context }

/-- Forgets all labels. -/
def clearLabels (session : Session σ) : Session σ :=
  { session with labels := ∅ }

/-! ## Opening the logs -/

variable {m : Type → Type} [Monad m] [FileSystem m]

/-- What is found in place of a log. -/
def openLog (path : String) : m (Except TraceFault Stream) := do
  if ← pathExists path then
    return (← FileSystem.openFile path).mapError TraceFault.io
  else return .error (.missingLog path)

variable [MonadStateOf Transcript m]

/-- Analyses the configured event log. -/
def analyze (session : Session σ) : m (Answer σ IngestStats) := do
  let path := session.config.eventLogPath
  remark (.info s!"Analyzing event log: {path}")
  let answer := session.analyzeOpened (← openLog path)
  remarkAll answer.remarks
  return answer

/-- What is found in place of the configured log of optimized code. -/
def openCodeLog (session : Session σ) (address : String) :
    m (Except TraceFault Stream) := do
  let path := session.config.optCodeLogPath
  remark (.debug s!"Reading optimized code at {address} from {path}")
  openLog path

/-- The block of the code object at an address in the configured log. -/
def optimizedCode (session : Session σ) (address : String) :
    m (Answer σ (List String)) := do
  let answer := session.codeInOpened (← session.openCodeLog address) address
  remarkAll answer.remarks
  return answer

/-- Extracts and renders the code object at an address. -/
def decompileAddress (session : Session σ) (address : String) :
    m (Answer σ String) := do
  let extracted := session.codeInOpened (← session.openCodeLog address) address
  let answer := decompileExtracted address extracted
  remarkAll answer.remarks
  return answer

/-- The insights of a file. -/
def insights (session : Session σ) (filename : String) : m (Option FileInsight) := do
  remark (.debug s!"Getting insights for file '{filename}'")
  return session.store.file? filename

end Session

end JitTrace
