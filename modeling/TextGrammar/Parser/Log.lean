import TextGrammar.Parser.Run

/-!
# The log of a run

A run writes down what it starts with, every use of a recursive parser outside of its definition,
and its failure (`Parser.run_state`, `RecursiveHandle.comp`).
-/

namespace TextGrammar

variable {ν : Type}

/-- How much a record of the log matters. -/
inductive Severity where
  | trace
  | debug
  | warn
deriving DecidableEq, Repr

/-- One line of the log. -/
structure LogRecord where
  severity : Severity
  message : String
deriving DecidableEq, Repr

namespace LogRecord

/-- A parser with the label starts on an input of so many bytes. -/
def running (label : String) (size : Nat) : LogRecord :=
  ⟨.trace, "running " ++ label ++ " over " ++ toString size ++ " bytes"⟩

/-- A recursive parser was used outside of its definition. -/
def strayed : LogRecord := ⟨.warn, "recursive parser run outside of its definition"⟩

/-- The run failed. -/
def failed (failure : Failure) (position : Nat) : LogRecord :=
  ⟨.debug, "parse failed at byte " ++ toString position ++ " (" ++ failure.kind.describe ++ "): " ++
    failure.message⟩

end LogRecord

/-- The log of a run of the parser that ends in a state. -/
def Parser.log (p : Parser ν) (last : State ν) : List LogRecord :=
  LogRecord.running p.label last.input.size ::
    (List.replicate last.strayed LogRecord.strayed ++
      (last.failure.map fun failure => LogRecord.failed failure last.cursor).toList)

end TextGrammar
