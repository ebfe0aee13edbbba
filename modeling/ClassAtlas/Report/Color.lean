/-!
Terminal colours, written as escape sequences around a text.
-/

namespace ClassAtlas.Report

inductive Color where
  | boldBlue
  | boldYellow
  | boldRed
  | dimmed
  | green
  | yellow
  | red
  | cyan
  deriving Repr, DecidableEq

def Color.code : Color → String
  | .boldBlue => "1;34"
  | .boldYellow => "1;33"
  | .boldRed => "1;31"
  | .dimmed => "2"
  | .green => "32"
  | .yellow => "33"
  | .red => "31"
  | .cyan => "36"

def paint (useColors : Bool) (color : Color) (text : String) : String :=
  if useColors then "\x1b[" ++ color.code ++ "m" ++ text ++ "\x1b[0m" else text

end ClassAtlas.Report
