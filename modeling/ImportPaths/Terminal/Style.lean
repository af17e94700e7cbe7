/-!
# Colours

Whether the terminal is written to in colour, and the marks that switch a style on and off.
-/

namespace ImportPaths.Terminal

/-- The environment variables that say something about colours. -/
structure ColorWish where
  /-- `NO_COLOR` is set, to whatever value. -/
  no : Bool := false
  /-- `FORCE_COLOR` is set, to whatever value. -/
  force : Bool := false
deriving DecidableEq, Inhabited

namespace ColorWish

/-- Whether the environment asks for colours, when the output goes to no terminal. -/
def wanted (w : ColorWish) : Bool := w.force && !w.no

/-- Whether there are colours, on an output that is `able` to show them or not. -/
def granted (w : ColorWish) (able : Bool) : Bool := (w.force || able) && !w.no

end ColorWish

/-- A way to show text. -/
inductive Style where
  | bold
  | dim
  | boldGreen
  | boldBlue
  | boldYellow
  | yellow
deriving DecidableEq, Inhabited

/-- The codes that switch a style on and off. -/
def Style.codes : Style → String × String
  | .bold => ("1", "0")
  | .dim => ("2", "0")
  | .boldGreen => ("32;1", "0")
  | .boldBlue => ("34;1", "0")
  | .boldYellow => ("33;1", "0")
  | .yellow => ("33", "39")

/-- `s` in a style, when there are colours. -/
def Style.paint (style : Style) (colors : Bool) (s : String) : String :=
  if colors then
    "\x1b[" ++ style.codes.1 ++ "m" ++ s ++ "\x1b[" ++ style.codes.2 ++ "m"
  else s

end ImportPaths.Terminal
