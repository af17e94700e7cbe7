import ImportPaths.Direction

/-!
# Scanning a text by its bytes

A text is not taken apart to find its statements.  For each keyword on its own, its bytes are looked
for, and wherever they stand the bytes around them are checked one after the other.  What passes is
a `Candidate`, and one whose specifier has a form is a `Match`.  The matches for all keywords are
sorted by where they start, and each that starts before the last one kept has ended is dropped.
-/

namespace ImportPaths

open ImportPaths.Text

/-! ## Bytes -/

/-- Space, tab, line feed, form feed and carriage return. -/
def isBlankByte (b : UInt8) : Bool := [0x20, 0x09, 0x0A, 0x0C, 0x0D].contains b

/-- No quote and no line break. -/
def isBodyByte (b : UInt8) : Bool := !List.contains [0x27, 0x22, 0x0A, 0x0D] b

/-- A byte that an identifier can end with, or any byte beyond ASCII. -/
def isWordByte (b : UInt8) : Bool :=
  (0x30 ≤ b && b ≤ 0x39) || (0x41 ≤ b && b ≤ 0x5A) || (0x61 ≤ b && b ≤ 0x7A) ||
    [0x5F, 0x24, 0x2E].contains b || 0x80 ≤ b

/-- The byte of a quote. -/
def Quote.toByte : Quote → UInt8
  | .single => 0x27
  | .double => 0x22

def Quote.ofByte? (b : UInt8) : Option Quote :=
  if b = 0x27 then some .single else if b = 0x22 then some .double else none

/-- The offsets at which `needle` is found, from left to right.  Of the bytes that are left, the
first one has the offset `offset`, and the first `skip` are not looked at: what is found is passed
over as a whole. -/
def findAll (needle : List UInt8) (skip offset : Nat) : List UInt8 → List Nat
  | [] => []
  | b :: bs =>
    match skip with
    | skip + 1 => findAll needle skip (offset + 1) bs
    | 0 =>
      if needle.isPrefixOf (b :: bs) then
        offset :: findAll needle (needle.length - 1) (offset + 1) bs
      else findAll needle 0 (offset + 1) bs

/-! ## Candidates -/

/-- A statement as a stretch of bytes: where it starts, and its parts. -/
structure Candidate where
  start : Nat
  kind : ImportKind
  gap : List UInt8
  quote : Quote
  body : List UInt8
deriving DecidableEq

namespace Candidate

/-- The offset at which the specifier starts. -/
def bodyStart (c : Candidate) : Nat := c.start + ((bytes c.kind.keyword).length + c.gap.length + 1)

/-- The offset after the specifier. -/
def bodyStop (c : Candidate) : Nat := c.bodyStart + c.body.length

/-- The offset after the closing quote. -/
def stop (c : Candidate) : Nat := c.bodyStop + 1

end Candidate

/-- Whether the byte before an offset keeps a keyword from starting there. -/
def followsWord (text : List UInt8) : Nat → Bool
  | 0 => false
  | n + 1 => text[n]?.any isWordByte

/-- The length of a specifier, up to its closing quote.  There is none when the other quote or a
line break comes first. -/
def closingQuote? (quote : Quote) : List UInt8 → Option Nat
  | [] => none
  | b :: bs =>
    if b = quote.toByte then some 0
    else if isBodyByte b then (closingQuote? quote bs).map (· + 1)
    else none

/-- The candidate at an offset at which the bytes of a keyword stand. -/
def candidateAt? (text : List UInt8) (kind : ImportKind) (start : Nat) : Option Candidate := do
  guard (followsWord text start = false)
  let after := text.drop (start + (bytes kind.keyword).length)
  let gap := after.takeWhile isBlankByte
  guard (gap ≠ [])
  let rest := after.dropWhile isBlankByte
  let quote ← rest.head?.bind Quote.ofByte?
  let inner := rest.tail
  let size ← closingQuote? quote inner
  guard (size ≠ 0)
  return ⟨start, kind, gap, quote, inner.take size⟩

/-! ## Matches -/

/-- A statement that is found in a text: the offsets of its first byte and of the byte after its
closing quote, those of its specifier, the specifier and its form. -/
structure Match where
  kind : ImportKind
  quote : Quote
  start : Nat
  stop : Nat
  bodyStart : Nat
  bodyStop : Nat
  body : List Char
  form : Form
deriving DecidableEq, Inhabited

/-- The match that a candidate is, when its specifier has a form. -/
def Candidate.match? (token text : List Char) (c : Candidate) : Option Match :=
  let body := between c.bodyStart c.bodyStop text
  (Form.ofBody? token body).map fun form =>
    { kind := c.kind, quote := c.quote, start := c.start, stop := c.stop,
      bodyStart := c.bodyStart, bodyStop := c.bodyStop, body, form }

/-- The matches at the places where a keyword is found. -/
def matchesOf (token text : List Char) (kind : ImportKind) : List Match :=
  (findAll (bytes kind.keyword) 0 0 (bytes text)).filterMap fun start =>
    (candidateAt? (bytes text) kind start).bind (Candidate.match? token text)

/-- The matches that start at `stop` or later, where `stop` is where the last one kept has ended. -/
def retain (stop : Nat) : List Match → List Match
  | [] => []
  | m :: ms => if m.start < stop then retain stop ms else m :: retain m.stop ms

/-- Every statement of a text whose specifier has a form, found keyword by keyword. -/
def scan (token text : List Char) : List Match :=
  retain 0 ((ImportKind.all.flatMap (matchesOf token text)).mergeSort fun m n => m.start ≤ n.start)

/-- The matches that a pass acts on. -/
def scanFor (token : List Char) (d : Direction) (text : List Char) : List Match :=
  (scan token text).filter fun m => d.accepts m.form

end ImportPaths
