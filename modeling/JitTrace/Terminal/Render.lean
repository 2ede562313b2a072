import JitTrace.Insight.Summary
import JitTrace.Terminal.Style
import JitTrace.Text.Blank
import JitTrace.Text.Layout
import JitTrace.Text.Split

/-! # Terminal output

The summary of a file, the history of a function, and numbered code. Widths count characters.
-/

namespace JitTrace

/-- The status of a function, coloured by what became of its code. -/
def FunctionInsight.paintedLens (function : FunctionInsight) (palette : Palette) : String :=
  if function.wasDeoptimized then Style.yellow.paint palette function.lens
  else if function.isCompiled then Style.green.paint palette function.lens
  else function.lens

/-- The line of a function in the summary of its file. -/
def FunctionInsight.renderRow (function : FunctionInsight) (palette : Palette) : String :=
  let line := Text.padLeft 5 (toString function.declaration.shownLine)
  let column := Text.padRight 4 (toString function.declaration.column)
  let name := Text.padRight 24 function.name
  s!"  {line}:{column} {name} {function.paintedLens palette}\n"

/-- The summary of a file: its name, and a line for each function. -/
def FileInsight.render (file : FileInsight) (palette : Palette) : String :=
  s!"\n{Style.bold.paint palette file.filename}\n" ++
    String.join (file.functions.map fun function => function.renderRow palette)

/-- What the history says about an event behind its name. -/
def EventKind.detail (kind : EventKind) (palette : Palette) : String :=
  match kind with
  | .parse memory => s!"{memory.start} ({memory.size} bytes)"
  | .compileEnd memory => s!"{memory.start} ({memory.size} bytes)"
  | .compileStart => ""
  | .deoptimize reason position => s!"{Style.red.paint palette reason} at {position}"

/-- The line of an event in a history. -/
def Event.renderRow (event : Event) (palette : Palette) : String :=
  let time := Text.padLeft 10 (toString event.time)
  let label := Text.padRight 14 event.label
  s!"  {time}  {label} {event.kind.detail palette}\n"

/-- The history of a function: its name and status, and a line for each event. -/
def FunctionInsight.renderHistory (function : FunctionInsight) (palette : Palette) : String :=
  s!"{Style.bold.paint palette function.name} ({function.lens})\n" ++
    String.join (function.events.map fun event => event.renderRow palette)

/-- The style of a line of code: definitions of labels, returns, jumps and fillers stand out. -/
def codeStyle? (line : String) : Option Style :=
  let instruction := Text.trimStart line
  if !Text.startsWith line " " && Text.endsWith line ":" then some .bold
  else if Text.startsWith instruction "ret" then some .whiteOnRed
  else if Text.startsWith instruction "j" then some .boldYellow
  else if Text.startsWith instruction "nop" then some .dimmed
  else none

/-- A line of code in its style. -/
def paintCodeLine (palette : Palette) (line : String) : String :=
  match codeStyle? line with
  | some style => style.paint palette line
  | none => line

/-- A line of code with its number. -/
def renderCodeLine (palette : Palette) (number : Nat) (line : String) : String :=
  let shown := Style.dimmed.paint palette (Text.padLeft 4 (toString number))
  s!"{shown} {paintCodeLine palette line}"

/-- The lines of code with their numbers, counted from one. -/
def numberedLines (palette : Palette) (code : String) : List String :=
  (Text.lines code).mapIdx fun index line => renderCodeLine palette (index + 1) line

/-- Code with its lines numbered. -/
def renderCode (palette : Palette) (code : String) : String :=
  Text.joinLines (numberedLines palette code)

end JitTrace
