import TextGrammar.State

/-!
# Bytes of a text

What is read off the UTF-8 form of a text, byte by byte.

* `Text.bytes` — the UTF-8 form of a text.
* `Text.isFirstByte`, `Text.isBoundaryAt` — whether a byte begins the form of a character, and whether
  an offset falls between characters.
* `Text.walkToBoundary?`, `Text.roundDown?` — an offset rounded down by a walk towards the start, one
  byte at a time (`floor_boundary`); `none` stands for a walk that has passed the start.
* `Text.newlinePositions` — where the newlines among bytes are, in increasing order.
* `LineIndex` — an index of the newlines that is empty at first, and filled when a state that shares it
  is asked for a line for the first time, from the bytes of the input of that state.
* `LineIndex.lineOf`, `LineIndex.error?`, `LineIndex.outcome` — what states tell by the index
  (`ParseState.line_number`, `ParseState.to_error`, `ParseState.into_result`).
-/

namespace TextGrammar

namespace Text

/-- The UTF-8 form of a text. -/
def bytes (text : List Char) : List UInt8 := text.flatMap String.utf8EncodeChar

/-! ## Boundaries -/

/-- The bytes that go on with a form are those from `0x80` to `0xBF`; all others begin one. -/
def isFirstByte (b : UInt8) : Bool := b < 0x80 || 0xC0 ≤ b

/-- Whether an offset is the start of the bytes, their end, or that of a first byte. -/
def isBoundaryAt (bytes : List UInt8) : Nat → Bool
  | 0 => true
  | n + 1 =>
    match bytes[n + 1]? with
    | some b => isFirstByte b
    | none => n + 1 == bytes.length

/-- The first boundary that a walk from an offset towards the start comes to. -/
def walkToBoundary? (bytes : List UInt8) : Nat → Option Nat
  | 0 => if isBoundaryAt bytes 0 then some 0 else none
  | n + 1 => if isBoundaryAt bytes (n + 1) then some (n + 1) else walkToBoundary? bytes n

/-- Rounds an offset down to a boundary. -/
def roundDown? (bytes : List UInt8) (offset : Nat) : Option Nat :=
  walkToBoundary? bytes (min offset bytes.length)

/-! ## Lines -/

/-- The form of a newline. -/
def newlineByte : UInt8 := 10

/-- The positions of the newlines among bytes. -/
def newlinePositions (bytes : List UInt8) : Array Nat :=
  ((bytes.zipIdx.filter fun entry => entry.1 == newlineByte).map Prod.snd).toArray

end Text

/-- The positions of the newlines of an input, once they have been looked for. -/
structure LineIndex where
  positions : Option (Array Nat)

namespace LineIndex

variable {ν : Type}

/-- Nothing looked for yet. -/
def empty : LineIndex := ⟨none⟩

/-- The positions: those that are there, or else those in the input. -/
def table (index : LineIndex) (input : Input) : Array Nat :=
  index.positions.getD (Text.newlinePositions (Text.bytes input.chars))

/-- The index after it has been used for an input. -/
def filled (index : LineIndex) (input : Input) : LineIndex := ⟨some (index.table input)⟩

/-- The line (starting from 1) of a byte of an input. -/
def line (index : LineIndex) (input : Input) (offset : Nat) : Nat :=
  Text.lineAt (index.table input) offset

/-- The line of the cursor of a state. -/
def lineOf (index : LineIndex) (s : State ν) : Nat := index.line s.input s.cursor

/-- The failure of a state, with its place. -/
def error? (index : LineIndex) (s : State ν) : Option ParseError :=
  s.failure.map fun f => ⟨f.kind, f.message, s.cursor, index.lineOf s⟩

/-- What the parse reports if it ends in a state. -/
def outcome (index : LineIndex) (s : State ν) : Outcome ν :=
  match s.failure with
  | none => .ok ⟨s.result, s.cursor⟩
  | some f => .error ⟨f.kind, f.message, s.cursor, index.line s.input s.cursor⟩

end LineIndex

end TextGrammar
