import TextGrammar.Text.Input
import TextGrammar.Value
import TextGrammar.Failure

/-!
# States of a parse

A state says how far a parse has come in its input, what it has produced last and whether it has
failed.  Every parser takes a state to another one.

* `State` — with `start`, and with `advance`, `succeed`, `fail`, `collectAs`, `take` and `rewind`, the
  only ways to come from one state to another (`ParseState`, with `new`, `advance`, `succeed`, `fail`,
  `with_emit`, `take_result` and `rewind`).
* `State.line`, `State.error?`, `State.outcome` — the line of the cursor, the failure with its place, and
  what a finished parse reports (`line_number`, `to_error`, `into_result`).
* `State.kept`, `State.spliced`, `State.collected` — what the last result contributes to a list, and
  the state once it has been collected (`gather`, `splice`).
-/

namespace TextGrammar

/-- A state of a parse. -/
structure State (ν : Type) where
  /-- The text that is parsed. -/
  input : Input
  /-- How many bytes of it have been taken. -/
  cursor : Nat
  /-- What was produced last. -/
  result : Value ν
  /-- Why the parse failed, if it did. -/
  failure : Option Failure
  /-- How the result is to be collected. -/
  disposition : Disposition
  /-- How often a recursive parser was used outside of its definition. -/
  strayed : Nat

/-- What a parse that succeeds reports: its value and the offset at which it ended. -/
structure Parsed (ν : Type) where
  value : Value ν
  stop : Nat

/-- What a parse reports. -/
abbrev Outcome (ν : Type) := Except ParseError (Parsed ν)

namespace State

variable {ν : Type}

/-- The start of an input. -/
def start (input : Input) : State ν := ⟨input, 0, .absent, none, .keep, 0⟩

/-- The text that has not been taken. -/
def rest (s : State ν) : List Char := s.input.drop s.cursor

/-- Whether all text has been taken. -/
def atEnd (s : State ν) : Bool := s.cursor == s.input.size

/-- Whether the parse has failed. -/
def failed (s : State ν) : Bool := s.failure.isSome

/-- The line (starting from 1) of the cursor. -/
def line (s : State ν) : Nat := s.input.line s.cursor

/-! ## From state to state -/

/-- Succeeds with a result, having taken `length` more bytes.  The cursor does not pass the end of
the input, and stays in front of a character that it would fall into. -/
def advance (s : State ν) (length : Nat) (result : Value ν) : State ν :=
  { s with
    cursor := s.input.floor (s.cursor + length), result, failure := none, disposition := .keep }

/-- Succeeds with a result, having taken no more text. -/
def succeed (s : State ν) (result : Value ν) : State ν := s.advance 0 result

/-- Fails here.  The result stays. -/
def fail (s : State ν) (failure : Failure) : State ν := { s with failure := some failure }

/-- Changes how the result is to be collected. -/
def collectAs (s : State ν) (disposition : Disposition) : State ν := { s with disposition }

/-- The state without its result. -/
def take (s : State ν) : State ν := { s with result := .absent }

/-- Goes to an offset, without any result or failure.  As in `advance`, the cursor stays on a
boundary. -/
def rewind (s : State ν) (offset : Nat) : State ν :=
  { s with
    cursor := s.input.floor offset, result := .absent, failure := none, disposition := .keep }

/-- Fails because a recursive parser is used outside of its definition. -/
def stray (s : State ν) : State ν := { s.fail .dangling with strayed := s.strayed + 1 }

/-! ## Reports -/

/-- The failure, with its place. -/
def error? (s : State ν) : Option ParseError :=
  s.failure.map fun f => ⟨f.kind, f.message, s.cursor, s.line⟩

/-- What the parse reports if it ends here. -/
def outcome (s : State ν) : Outcome ν :=
  match s.error? with
  | some e => .error e
  | none => .ok ⟨s.result, s.cursor⟩

/-! ## Collecting results -/

/-- What the result adds to a list that takes it as one element. -/
def kept (s : State ν) : List (Value ν) :=
  match s.disposition with
  | .ignore => []
  | _ => [s.result]

/-- What the result adds to a list that takes the elements of spliced lists. -/
def spliced (s : State ν) : List (Value ν) :=
  match s.disposition, s.result with
  | .ignore, _ => []
  | .splice, .list items => items
  | _, v => [v]

/-- The state once its result has been collected.  A result that is left out stays behind. -/
def collected (s : State ν) : State ν :=
  match s.disposition with
  | .ignore => s
  | _ => s.take

/-! ## What the operations keep -/

section
variable (s : State ν)

@[simp] theorem failed_start (input : Input) : (start input : State ν).failed = false := rfl
@[simp] theorem failed_advance (n : Nat) (v : Value ν) : (s.advance n v).failed = false := rfl
@[simp] theorem failed_succeed (v : Value ν) : (s.succeed v).failed = false := rfl
@[simp] theorem failed_fail (f : Failure) : (s.fail f).failed = true := rfl
@[simp] theorem failed_collectAs (d : Disposition) : (s.collectAs d).failed = s.failed := rfl
@[simp] theorem failed_take : s.take.failed = s.failed := rfl
@[simp] theorem failed_rewind (n : Nat) : (s.rewind n).failed = false := rfl

@[simp] theorem input_advance (n : Nat) (v : Value ν) : (s.advance n v).input = s.input := rfl
@[simp] theorem input_succeed (v : Value ν) : (s.succeed v).input = s.input := rfl
@[simp] theorem input_fail (f : Failure) : (s.fail f).input = s.input := rfl
@[simp] theorem input_collectAs (d : Disposition) : (s.collectAs d).input = s.input := rfl
@[simp] theorem input_take : s.take.input = s.input := rfl
@[simp] theorem input_rewind (n : Nat) : (s.rewind n).input = s.input := rfl

@[simp] theorem cursor_fail (f : Failure) : (s.fail f).cursor = s.cursor := rfl
@[simp] theorem cursor_collectAs (d : Disposition) : (s.collectAs d).cursor = s.cursor := rfl
@[simp] theorem cursor_take : s.take.cursor = s.cursor := rfl

@[simp] theorem cursor_collected : s.collected.cursor = s.cursor := by
  unfold collected; split <;> rfl

@[simp] theorem input_collected : s.collected.input = s.input := by
  unfold collected; split <;> rfl

@[simp] theorem failed_collected : s.collected.failed = s.failed := by
  unfold collected; split <;> rfl

end

end State

end TextGrammar
