import TextGrammar.Text.Classes

/-!
# Failures

* `FailureKind` — why a parser fails, with the words for it (`ErrorKind`).
* `Failure` — a reason with a message (`Failure`); the messages that the parsers of this library give are
  built here, one function for each.
* `ParseError` — a failure with its place in the input (`ParseError`).
-/

namespace TextGrammar

/-- Why a parser fails. -/
inductive FailureKind where
  | literalMismatch
  | patternMismatch
  | alternativesExhausted
  | repetitionUnsatisfied
  | incompleteConsumption
  | danglingRecursion
deriving DecidableEq, Repr

namespace FailureKind

/-- The words for a kind of failure. -/
def describe : FailureKind → String
  | literalMismatch => "literal mismatch"
  | patternMismatch => "pattern mismatch"
  | alternativesExhausted => "alternatives exhausted"
  | repetitionUnsatisfied => "repetition unsatisfied"
  | incompleteConsumption => "incomplete consumption"
  | danglingRecursion => "dangling recursion"

def all : List FailureKind :=
  [literalMismatch, patternMismatch, alternativesExhausted, repetitionUnsatisfied,
    incompleteConsumption, danglingRecursion]

/-- The kind that the words describe. -/
def ofDescription? (words : String) : Option FailureKind :=
  all.find? fun kind => kind.describe = words

end FailureKind

/-- Why a parser failed, and what it says about it. -/
structure Failure where
  kind : FailureKind
  message : String
deriving DecidableEq, Repr

namespace Failure

/-- The words for something expected where the text `rest` was found. -/
def expected (what : String) (rest : List Char) : String :=
  "Expected " ++ what ++ " but found " ++ Text.preview rest

/-- The text `rest` does not begin with a literal. -/
def literal (text : String) (rest : List Char) : Failure :=
  ⟨.literalMismatch, expected (Text.quote text) rest⟩

/-- A pattern with the source does not match the text `rest`. -/
def pattern (source : String) (rest : List Char) : Failure :=
  ⟨.patternMismatch, expected ("/" ++ source ++ "/") rest⟩

/-- The input goes on with `rest`. -/
def trailing (rest : List Char) : Failure :=
  ⟨.incompleteConsumption, expected "end of input" rest⟩

/-- Neither of two parsers with these labels matched. -/
def neither (left right : String) : Failure :=
  ⟨.alternativesExhausted, "Neither " ++ left ++ " nor " ++ right ++ " matched"⟩

/-- None of the branches matched. -/
def noAlternative : Failure := ⟨.alternativesExhausted, "No alternative matched"⟩

/-- There were fewer than `least` of the parser with this label before `rest`. -/
def tooFew (least : Nat) (label : String) (rest : List Char) : Failure :=
  ⟨.repetitionUnsatisfied, expected ("at least " ++ toString least ++ " of " ++ label) rest⟩

/-- There were fewer than `least` values between separators before `rest`. -/
def tooFewSeparated (least : Nat) (value separator : String) (rest : List Char) : Failure :=
  ⟨.repetitionUnsatisfied,
    expected
      ("at least " ++ toString least ++ " of " ++ value ++ " separated by " ++ separator) rest⟩

/-- A parser with this label took nothing before `rest`, where it was to take all of it. -/
def stalled (label : String) (rest : List Char) : Failure :=
  ⟨.incompleteConsumption,
    "Expected " ++ label ++ " to consume input, but it matched nothing before " ++
      Text.preview rest⟩

/-- A recursive parser was used where it is not defined. -/
def dangling : Failure := ⟨.danglingRecursion, "Recursive parser is not available"⟩

end Failure

/-- A failure with its place: the offset in bytes and the line. -/
structure ParseError where
  kind : FailureKind
  message : String
  position : Nat
  line : Nat
deriving DecidableEq, Repr

namespace ParseError

/-- The message with its place. -/
def display (e : ParseError) : String :=
  e.message ++ " (line " ++ toString e.line ++ ", byte " ++ toString e.position ++ ")"

end ParseError

end TextGrammar
