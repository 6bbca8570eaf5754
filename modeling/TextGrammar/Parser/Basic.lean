import TextGrammar.Step

/-!
# Parsers

A parser is a description: what it matches and how it is put together from other parsers.  It is
built once, and can be run over any number of inputs.

* `Parser` — the primitives and the ways to combine parsers: the types that have a `Combi.comp`, from
  `Literal` and `Sequence` to `Recursive` and `RecursiveHandle`.
* `Parser.induct` — induction on parsers.
* `Parser.letters`, `Parser.comma` and others — the parsers of everyday use.
* `Parser.between`, `Parser.sepBy` and others, and operators — parsers built from these, as `between`,
  `sep_by` and the operators `&`, `|` and `/` build them.
* `Parser.take`, `Parser.back` and others — parsers given by what they do to a state.
-/

namespace TextGrammar

/-- A parser over values with nodes `ν`. -/
inductive Parser (ν : Type) where
  /-- A given text. -/
  | literal (text : String)
  /-- Text that a pattern matches. -/
  | pattern (p : Pattern)
  /-- The end of the input. -/
  | endOfInput
  /-- Parsers in order; their results make up a list. -/
  | sequence (ps : List (Parser ν))
  /-- Two parsers in order; the lists of nested pairs are joined to one. -/
  | and (left right : Parser ν)
  /-- One parser, or the other from the same place. -/
  | or (left right : Parser ν)
  /-- The first of several parsers that matches; its result counts as one. -/
  | choice (ps : List (Parser ν))
  /-- A parser or nothing. -/
  | optional (p : Parser ν)
  /-- A parser whose result is to be collected in another way. -/
  | collectedAs (disposition : Disposition) (p : Parser ν)
  /-- A parser as often as it matches, and at least so often. -/
  | many (least : Nat) (p : Parser ν)
  /-- Values with separators between them, at least so many. -/
  | separated (least : Nat) (value separator : Parser ν)
  /-- A parser again and again, up to the end of the input. -/
  | all (p : Parser ν)
  /-- A parser whose result is changed. -/
  | map (f : Value ν → Value ν) (p : Parser ν)
  /-- A parser whose result is changed, given the line on which it ended. -/
  | mapWithLine (f : Value ν → Nat → Value ν) (p : Parser ν)
  /-- A parser whose failure is turned into a result. -/
  | recover (f : ParseError → Value ν) (p : Parser ν)
  /-- A parser whose result chooses the next one. -/
  | chain (next : Value ν → Parser ν) (p : Parser ν)
  /-- A parser with a name for messages. -/
  | named (label : String) (p : Parser ν)
  /-- A parser that may refer to itself by a handle. -/
  | recursive (handle : Handle) (body : Parser ν)
  /-- A reference to the recursive parser that binds the handle. -/
  | handle (handle : Handle)
  /-- A parser given by what it does to a state, with the text that shows it. -/
  | custom (shown : String) (act : State ν → State ν)

namespace Parser

variable {ν : Type}

instance : Inhabited (Parser ν) := ⟨endOfInput⟩

/-! ## Induction

A statement holds of all parsers if it holds of each kind, given that it holds of the parsers
inside: those of a list, and all those that a result may choose. -/

section
variable {motive : Parser ν → Prop}
  (literal : ∀ text, motive (literal text))
  (pattern : ∀ p, motive (pattern p))
  (endOfInput : motive endOfInput)
  (sequence : ∀ ps, (∀ p ∈ ps, motive p) → motive (sequence ps))
  (and : ∀ left right, motive left → motive right → motive (and left right))
  (or : ∀ left right, motive left → motive right → motive (or left right))
  (choice : ∀ ps, (∀ p ∈ ps, motive p) → motive (choice ps))
  (optional : ∀ p, motive p → motive (optional p))
  (collectedAs : ∀ disposition p, motive p → motive (collectedAs disposition p))
  (many : ∀ least p, motive p → motive (many least p))
  (separated : ∀ least value separator, motive value → motive separator →
    motive (separated least value separator))
  (all : ∀ p, motive p → motive (all p))
  (map : ∀ f p, motive p → motive (map f p))
  (mapWithLine : ∀ f p, motive p → motive (mapWithLine f p))
  (recover : ∀ f p, motive p → motive (recover f p))
  (chain : ∀ next p, (∀ v, motive (next v)) → motive p → motive (chain next p))
  (named : ∀ label p, motive p → motive (named label p))
  (recursive : ∀ h body, motive body → motive (recursive h body))
  (handle : ∀ h, motive (handle h))
  (custom : ∀ shown act, motive (custom shown act))
include literal pattern endOfInput sequence and or choice optional collectedAs many separated all
  map mapWithLine recover chain named recursive handle custom

/-- Induction on parsers. -/
@[induction_eliminator] theorem induct (p : Parser ν) : motive p :=
  @Parser.rec ν motive (fun ps => ∀ p ∈ ps, motive p) literal pattern endOfInput
    sequence and or choice optional collectedAs many separated all map mapWithLine recover
    chain named recursive handle custom (fun _ h => absurd h (by simp))
    (fun _ _ hp hps q hq => by
      rcases List.mem_cons.1 hq with rfl | hq
      · exact hp
      · exact hps q hq) p

end

/-! ## Primitives -/

section
variable {E : Regex.Engine} (hE : E.Everyday)

def letters : Parser ν := pattern (.letters hE)

def digits : Parser ν := pattern (.digits hE)

def whitespace : Parser ν := pattern (.whitespace hE)

def newline : Parser ν := pattern (.newline hE)

end

def comma : Parser ν := literal ","

def period : Parser ν := literal "."

def colon : Parser ν := literal ":"

def semicolon : Parser ν := literal ";"

def plus : Parser ν := literal "+"

def minus : Parser ν := literal "-"

/-! ## Combinations -/

/-- A parser whose result is left out of the lists around it. -/
def ignore (p : Parser ν) : Parser ν := collectedAs .ignore p

def zeroOrMore (p : Parser ν) : Parser ν := many 0 p

def oneOrMore (p : Parser ν) : Parser ν := many 1 p

/-- A parser between two others, with only its own result. -/
def between (opening closing center : Parser ν) : Parser ν :=
  map Value.head (sequence [ignore opening, center, ignore closing])

def inParens (p : Parser ν) : Parser ν := between (literal "(") (literal ")") p

def inBrackets (p : Parser ν) : Parser ν := between (literal "[") (literal "]") p

def inBraces (p : Parser ν) : Parser ν := between (literal "\x7b") (literal "\x7d") p

def inAngles (p : Parser ν) : Parser ν := between (literal "<") (literal ">") p

/-- Any number of values with separators between them. -/
def sepBy (separator value : Parser ν) : Parser ν := separated 0 value separator

/-- One or more values with separators between them. -/
def sepBy1 (separator value : Parser ν) : Parser ν := separated 1 value separator

/-! ## Operators

A string stands for itself as a literal, `p &&& q` is one parser after the other, `p ||| q` one or
the other, and `p / q` any number of `p` with `q` between them. -/

instance : Coe String (Parser ν) := ⟨literal⟩

instance : AndOp (Parser ν) := ⟨and⟩

instance : OrOp (Parser ν) := ⟨or⟩

instance : Div (Parser ν) := ⟨separated 0⟩

/-! ## Actions

Parsers that do not match text by what it is, but take it by length, go back, or tell something
about the state. -/

/-- Takes so many bytes, or fewer where they would end inside a character or behind the input, and
produces the text taken. -/
def take (count : Nat) : Parser ν :=
  custom ("take(" ++ toString count ++ ")") fun s =>
    let stop := (s.advance count .absent).cursor
    s.advance count (.token (String.ofList (Text.takeBytes (stop - s.cursor) s.rest)))

/-- Goes back so many bytes, at most to the start, and from inside a character to its start. -/
def back (count : Nat) : Parser ν :=
  custom ("back(" ++ toString count ++ ")") fun s => s.rewind (s.cursor - count)

/-- Produces the number of the line. -/
def lineNumber : Parser ν := custom "line" fun s => s.succeed (.token (toString s.line))

/-- Produces the result that the state has brought, in a list. -/
def seen : Parser ν := custom "seen" fun s => s.succeed (.list [s.result])

/-- Takes nothing and produces a value. -/
def succeed (v : Value ν) : Parser ν := custom "succeed" fun s => s.succeed v

/-- Fails. -/
def fail (failure : Failure) : Parser ν := custom "fail" fun s => s.fail failure

end Parser

end TextGrammar
