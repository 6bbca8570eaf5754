import TextGrammar.Parser.Basic

/-!
# The text of parsers

Messages name a parser by its label.  The text of a parser is put together from those of its parts,
down to a certain depth; a parser with a name shows that name.

* `Parser.text` — the whole text (`Parser.to_string`, from the `Combi.repr` of each type).
* `Label` — a text that is cut off at a limit while it is written (`Bounded`); `Parser.writeAt` writes a
  parser to it, and stops when it is full.
* `Parser.label` — the text as messages show it: the beginning, with dots behind it if it is cut
  (`Parser.label`).
-/

namespace TextGrammar

/-- What stands for a part that is not shown. -/
def ellipsis : String := "..."

/-- How many parsers deep the text of a parser goes. -/
def depthLimit : Nat := 16

/-- How many bytes of the text of a parser a message shows. -/
def labelLimit : Nat := 64

/-- The sign behind a parser that is repeated at least so often. -/
def repeatSign : Nat → String
  | 0 => "*"
  | 1 => "+"
  | least => "\x7b" ++ toString least ++ ",\x7d"

/-- The words for the end of the input. -/
def endSign : String := "<end of input>"

/-! ## The whole text -/

/-- The text of a parser that is `depth` parsers deep, unless that is too deep. -/
def shallow (depth : Nat) (text : Unit → String) : String :=
  if depthLimit ≤ depth then ellipsis else text ()

namespace Parser

variable {ν : Type}

mutual

/-- The text of a parser that is `depth` parsers deep. -/
def textAt (depth : Nat) : Parser ν → String
  | named label _ => label
  | literal text => shallow depth fun _ => Text.quote text
  | pattern p => shallow depth fun _ => "/" ++ p.source ++ "/"
  | endOfInput => shallow depth fun _ => endSign
  | sequence ps => shallow depth fun _ => joinedText (depth + 1) " " ps
  | and left right =>
    shallow depth fun _ => left.textAt (depth + 1) ++ " " ++ right.textAt (depth + 1)
  | or left right =>
    shallow depth fun _ => left.textAt (depth + 1) ++ " | " ++ right.textAt (depth + 1)
  | choice ps => shallow depth fun _ => "(" ++ joinedText (depth + 1) " | " ps ++ ")"
  | optional p => shallow depth fun _ => "[" ++ p.textAt (depth + 1) ++ "]"
  | collectedAs _ p => shallow depth fun _ => p.textAt (depth + 1)
  | many least p => shallow depth fun _ => p.textAt (depth + 1) ++ repeatSign least
  | separated _ value separator =>
    shallow depth fun _ => value.textAt (depth + 1) ++ " / " ++ separator.textAt (depth + 1)
  | all p => shallow depth fun _ => p.textAt (depth + 1) ++ ellipsis ++ " " ++ endSign
  | map _ p => shallow depth fun _ => p.textAt (depth + 1)
  | mapWithLine _ p => shallow depth fun _ => p.textAt (depth + 1)
  | recover _ p => shallow depth fun _ => p.textAt (depth + 1)
  | chain _ p => shallow depth fun _ => p.textAt (depth + 1) ++ " => " ++ ellipsis
  | recursive _ body => shallow depth fun _ => body.textAt (depth + 1)
  | handle _ => shallow depth fun _ => ellipsis
  | custom shown _ => shallow depth fun _ => shown

/-- The texts of parsers, with a separator between them. -/
def joinedText (depth : Nat) (separator : String) : List (Parser ν) → String
  | [] => ""
  | p :: ps => p.textAt depth ++ restText depth separator ps

/-- The texts of parsers, each behind a separator. -/
def restText (depth : Nat) (separator : String) : List (Parser ν) → String
  | [] => ""
  | p :: ps => separator ++ p.textAt depth ++ restText depth separator ps

end

/-- The whole text of a parser. -/
def text (p : Parser ν) : String := p.textAt 0

end Parser

/-! ## The text within a limit -/

/-- A text that is written piece by piece, up to a limit.  `full` tells that something was cut. -/
structure Label where
  text : String
  full : Bool

namespace Label

/-- Nothing written yet. -/
def empty : Label := ⟨"", false⟩

/-- Writes a piece: as many of its characters as there is room for, and nothing more once something
was cut. -/
def write (label : Label) (piece : String) : Label :=
  if label.full then label
  else
    let room := labelLimit - label.text.utf8ByteSize
    if piece.utf8ByteSize ≤ room then { label with text := label.text ++ piece }
    else ⟨label.text ++ String.ofList (Text.takeBytes room piece.toList), true⟩

/-- The text, with dots behind it if it was cut. -/
def finish (label : Label) : String := if label.full then label.text ++ ellipsis else label.text

/-- Writes a parser that is `depth` parsers deep, unless the label is full or that is too deep. -/
def shallow (depth : Nat) (write : Label → Label) (label : Label) : Label :=
  if label.full then label
  else if depthLimit ≤ depth then label.write ellipsis
  else write label

end Label

namespace Parser

variable {ν : Type}

mutual

/-- Writes a parser that is `depth` parsers deep. -/
def writeAt (depth : Nat) : Parser ν → Label → Label
  | named name _, label => label.write name
  | literal text, label => label.shallow depth (·.write (Text.quote text))
  | pattern p, label =>
    label.shallow depth fun label => label.write "/" |>.write p.source |>.write "/"
  | endOfInput, label => label.shallow depth (·.write endSign)
  | sequence ps, label => label.shallow depth (writeJoined (depth + 1) " " ps)
  | and left right, label => label.shallow depth fun label =>
    right.writeAt (depth + 1) ((left.writeAt (depth + 1) label).write " ")
  | or left right, label => label.shallow depth fun label =>
    right.writeAt (depth + 1) ((left.writeAt (depth + 1) label).write " | ")
  | choice ps, label => label.shallow depth fun label =>
    (writeJoined (depth + 1) " | " ps (label.write "(")).write ")"
  | optional p, label => label.shallow depth fun label =>
    (p.writeAt (depth + 1) (label.write "[")).write "]"
  | collectedAs _ p, label => label.shallow depth (p.writeAt (depth + 1))
  | many least p, label => label.shallow depth fun label =>
    (p.writeAt (depth + 1) label).write (repeatSign least)
  | separated _ value separator, label => label.shallow depth fun label =>
    separator.writeAt (depth + 1) ((value.writeAt (depth + 1) label).write " / ")
  | all p, label => label.shallow depth fun label =>
    (p.writeAt (depth + 1) label).write ellipsis |>.write " " |>.write endSign
  | map _ p, label => label.shallow depth (p.writeAt (depth + 1))
  | mapWithLine _ p, label => label.shallow depth (p.writeAt (depth + 1))
  | recover _ p, label => label.shallow depth (p.writeAt (depth + 1))
  | chain _ p, label => label.shallow depth fun label =>
    (p.writeAt (depth + 1) label).write " => " |>.write ellipsis
  | recursive _ body, label => label.shallow depth (body.writeAt (depth + 1))
  | handle _, label => label.shallow depth (·.write ellipsis)
  | custom shown _, label => label.shallow depth (·.write shown)

/-- Writes parsers, with a separator between them. -/
def writeJoined (depth : Nat) (separator : String) : List (Parser ν) → Label → Label
  | [], label => label
  | p :: ps, label => writeRest depth separator ps (p.writeAt depth label)

/-- Writes parsers, each behind a separator. -/
def writeRest (depth : Nat) (separator : String) : List (Parser ν) → Label → Label
  | [], label => label
  | p :: ps, label =>
    if label.full then label
    else writeRest depth separator ps (p.writeAt depth (label.write separator))

end

/-- The text of a parser as messages show it. -/
def label (p : Parser ν) : String := (p.writeAt 0 .empty).finish

/-- A short description of a parser, which gives its label. -/
def summary (p : Parser ν) : String :=
  "Parser \x7b label: " ++ Text.quote p.label ++ ", .. \x7d"

end Parser

end TextGrammar
