import ImportPaths.Number.Nearest

/-!
# Durations as they are shown
-/

namespace ImportPaths.Terminal

/-- A span of time; `nanos` is below a second. -/
structure Duration where
  secs : Nat
  nanos : Nat := 0
deriving DecidableEq, Inhabited

namespace Duration

def millis (d : Duration) : Nat := d.secs * 1000 + d.nanos / 1000000

/-- The seconds as a binary fraction: the part below a second is rounded, then the sum. -/
def seconds (d : Duration) : Number.BinaryFraction :=
  (Number.nearest d.nanos 1000000000).addNat d.secs

/-- A number of hundredths with two decimals. -/
def twoDecimals (hundredths : Nat) : String :=
  let cents := hundredths % 100
  toString (hundredths / 100) ++ "." ++ (if cents < 10 then "0" else "") ++ toString cents

/-- Whole milliseconds below a second, seconds with two decimals below a minute, and then whole
minutes and seconds. -/
def text (d : Duration) : String :=
  if d.millis < 1000 then toString d.millis ++ "ms"
  else if d.millis < 60000 then twoDecimals d.seconds.hundredths ++ "s"
  else toString (d.secs / 60) ++ "m " ++ toString (d.secs % 60) ++ "s"

end Duration

end ImportPaths.Terminal
