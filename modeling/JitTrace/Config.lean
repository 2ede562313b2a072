import JitTrace.Path
import JitTrace.Toml.Read
import JitTrace.Transcript

/-! # Configuration

Where the two logs of a run are kept and how they are read. A configuration file only needs the
keys it changes, and keys that mean nothing here are passed over. A given file has to be readable;
the usual one counts only when it is there.
-/

namespace JitTrace

/-- Where the logs are and how they are read. -/
structure Config where
  /-- The folder of both logs. -/
  insightsDir : String
  /-- The name of the event log in that folder. -/
  eventLog : String
  /-- The name of the log of optimized code in that folder. -/
  optCodeLog : String
  /-- How many bytes of a log are asked for at a time. -/
  chunkSize : Nat
  deriving DecidableEq, Repr

/-- Why a configuration file cannot be used. -/
inductive ConfigFault where
  | io (fault : IoFault)
  /-- The text is not TOML, or a key has a value of the wrong type. -/
  | invalid
  deriving DecidableEq, Repr

/-- The wording of a fault. -/
def ConfigFault.message : ConfigFault → String
  | .io fault => s!"Failed to read config file: {fault.message}"
  | .invalid => "Invalid config file"

namespace Config

/-- The configuration of keys that are not given. -/
def standard : Config where
  insightsDir := ".v8-insights"
  eventLog := "log"
  optCodeLog := "opt-code"
  chunkSize := 64 * 1024

instance : Inhabited Config := ⟨standard⟩

/-- The file that is used when it is there. -/
def usualFile : String := "v8-insights.toml"

/-- The path of the event log. -/
def eventLogPath (config : Config) : String :=
  Path.join config.insightsDir config.eventLog

/-- The path of the log of optimized code. -/
def optCodeLogPath (config : Config) : String :=
  Path.join config.insightsDir config.optCodeLog

/-- The text under a key, or another text if the key is not there. -/
def textAt (entries : Toml.Entries) (key other : String) : Except ConfigFault String :=
  match entries.lookup key with
  | none => .ok other
  | some (.value (.text text)) => .ok text
  | some _ => .error .invalid

/-- The number under a key, or another one if the key is not there. -/
def countAt (entries : Toml.Entries) (key : String) (other : Nat) : Except ConfigFault Nat :=
  match entries.lookup key with
  | none => .ok other
  | some (.value (.integer (.ofNat value))) => .ok value
  | some _ => .error .invalid

/-- The configuration of a table. -/
def ofEntries (entries : Toml.Entries) : Except ConfigFault Config := do
  return {
    insightsDir := ← textAt entries "insights_dir" standard.insightsDir
    eventLog := ← textAt entries "event_log" standard.eventLog
    optCodeLog := ← textAt entries "opt_code_log" standard.optCodeLog
    chunkSize := ← countAt entries "chunk_size" standard.chunkSize }

/-- The configuration in the bytes of a file. -/
def ofBytes (bytes : ByteArray) : Except ConfigFault Config :=
  match String.fromUTF8? bytes with
  | none => .error (.io .notText)
  | some text =>
    match Toml.read text with
    | none => .error .invalid
    | some entries => ofEntries entries

/-- The configuration in what was found at a path. -/
def ofOpened : Except IoFault Stream → Except ConfigFault Config
  | .error fault => .error (.io fault)
  | .ok stream =>
    match stream.readAll with
    | .error fault => .error (.io fault)
    | .ok bytes => ofBytes bytes

/-- The configuration with another folder, if one is given. -/
def withFolder (config : Config) (folder : Option String) : Config :=
  match folder with
  | some folder => { config with insightsDir := folder }
  | none => config

end Config

/-- A configuration file that cannot be used. -/
structure LoadFault where
  path : String
  cause : ConfigFault
  deriving DecidableEq, Repr

/-- The wording of a fault, without its cause. -/
def LoadFault.message (fault : LoadFault) : String :=
  s!"Failed to load config {fault.path}"

namespace Config

variable {m : Type → Type} [Monad m] [FileSystem m] [MonadStateOf Transcript m]

/-- Loads a configuration file. -/
def load (path : String) : m (Except LoadFault Config) := do
  return (ofOpened (← FileSystem.openFile path)).mapError (LoadFault.mk path)

/-- Loads the given file, or else the usual one if it is there. -/
def loadGiven (file : Option String) : m (Except LoadFault Config) := do
  match file with
  | some path => load path
  | none =>
    if ← pathExists usualFile then
      remark (.debug s!"Using config file {usualFile}")
      load usualFile
    else return .ok standard

/-- The configuration of a run: from a file, and a given folder instead of the file's. -/
def resolve (file folder : Option String) : m (Except LoadFault Config) := do
  return (← loadGiven file).map fun config => config.withFolder folder

end Config

end JitTrace
