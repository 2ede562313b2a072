/-! # Terminal styles

Text styles by escape sequences. Styled text that resets the style itself gets the style again
behind each reset, so that it is styled to its end. Without colours text stays as it is.
-/

namespace JitTrace

/-- Whether terminal output is coloured. -/
inductive Palette where
  | plain
  | coloured
  deriving DecidableEq, Repr

/-- Whether a variable of the environment asks for something: anything but `0` does. -/
def asksFor (setting : Option String) : Option Bool :=
  setting.map fun text => text != "0"

/-- The palette that the environment asks for. A request to force colours counts before one to
leave them out, and both before what the output is. -/
def Palette.choose (force without usual : Option String) (isTerminal : Bool) : Palette :=
  if asksFor force = some true then .coloured
  else if without.isSome then .plain
  else if (asksFor usual).getD true && isTerminal then .coloured
  else .plain

/-- The styles in use. -/
inductive Style where
  | bold
  | dimmed
  | red
  | green
  | yellow
  | boldYellow
  | whiteOnRed
  deriving DecidableEq, Repr

namespace Style

/-- The codes of a style: weight, then background, then foreground. -/
def codes : Style → String
  | .bold => "1"
  | .dimmed => "2"
  | .red => "31"
  | .green => "32"
  | .yellow => "33"
  | .boldYellow => "1;33"
  | .whiteOnRed => "41;37"

/-- The sequence that starts a style. -/
def opening (style : Style) : String :=
  s!"\x1b[{style.codes}m"

/-- The sequence that ends any style. -/
def reset : String := "\x1b[0m"

/-- The characters with a sequence put in behind each reset. -/
def reopen (sequence : List Char) : List Char → List Char
  | '\x1b' :: '[' :: '0' :: 'm' :: rest =>
    '\x1b' :: '[' :: '0' :: 'm' :: (sequence ++ reopen sequence rest)
  | char :: rest => char :: reopen sequence rest
  | [] => []

/-- The text in a style. -/
def paint (palette : Palette) (style : Style) (text : String) : String :=
  match palette with
  | .plain => text
  | .coloured =>
    style.opening ++ String.ofList (reopen style.opening.toList text.toList) ++ reset

end Style

end JitTrace
