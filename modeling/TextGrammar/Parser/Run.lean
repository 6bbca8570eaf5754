import TextGrammar.Parser.Label

/-!
# Running parsers

* `Parser.step` — what a parser does to a state, by recursion on the parser (`Combi.comp`).
* `Parser.runFrom` — the same, with states that have failed left as they are (`Parser.comp`).
* `Parser.Ends` — the state in which a run ends, with no budget in sight: the one that some budget
  gives.
* `Parser.finalState`, `Parser.run` — a parser over a whole input (`Parser.run_state`,
  `Parser.run`).
* `Parser.counted` — a parser whose outermost loop, if it is a repetition, keeps count.
-/

namespace TextGrammar

variable {ν : Type}

namespace Parser

mutual

/-- What a parser does to a state that has not failed.  Every repetition and every recursion in it
has the given budget of rounds. -/
def step (budget : Nat) (scope : Scope ν) : Parser ν → State ν → Option (State ν)
  | literal text, s => Step.literal text s
  | pattern p, s => Step.pattern p s
  | endOfInput, s => Step.endOfInput s
  | sequence ps, s => Step.sequence (steps budget scope ps) s
  | and left right, s => Step.and (left.step budget scope) (right.step budget scope) s
  | or left right, s =>
    Step.or left.label right.label (left.step budget scope) (right.step budget scope) s
  | choice ps, s => Step.choice (steps budget scope ps) s
  | optional p, s => Step.optional (p.step budget scope) s
  | collectedAs disposition p, s => Step.collectedAs disposition (p.step budget scope) s
  | many least p, s => Step.many budget least p.label (p.step budget scope) s
  | separated least value separator, s =>
    Step.separated budget least value.label separator.label (value.step budget scope)
      (separator.step budget scope) s
  | all p, s => Step.all budget p.label (p.step budget scope) s
  | map f p, s => Step.map f (p.step budget scope) s
  | mapWithLine f p, s => Step.mapWithLine f (p.step budget scope) s
  | recover f p, s => Step.recover f (p.step budget scope) s
  | chain next p, s => Step.chain (fun v => (next v).step budget scope) (p.step budget scope) s
  | named _ p, s => p.step budget scope s
  | recursive h body, s =>
    Step.fix (fun self => body.step budget (scope.bind h self)) budget s
  | handle h, s => scope h s
  | custom _ act, s => Step.ofState act s

/-- What the parsers of a list do. -/
def steps (budget : Nat) (scope : Scope ν) : List (Parser ν) → List (Step ν)
  | [] => []
  | p :: ps => p.step budget scope :: steps budget scope ps

end

theorem steps_eq_map (budget : Nat) (scope : Scope ν) (ps : List (Parser ν)) :
    steps budget scope ps = ps.map fun p => p.step budget scope := by
  induction ps with
  | nil => rfl
  | cons p ps ih => rw [steps, ih, List.map_cons]

/-- Goes on from any state: one that has failed is left as it is (`Parser.comp`). -/
def runFrom (budget : Nat) (scope : Scope ν) (p : Parser ν) : Step ν :=
  Step.unlessFailed (p.step budget scope)

/-- The parser ends in state `t` when it is run from state `s`. -/
def Ends (scope : Scope ν) (p : Parser ν) (s t : State ν) : Prop :=
  ∃ budget, p.runFrom budget scope s = some t

/-- Rounds enough for any text of the given length: a repetition or recursion that takes text in
each round needs one more than there are bytes, and the rest is slack for those that do not. -/
def budgetFor (size : Nat) : Nat := size + 0x100000000

/-- The state in which a parser ends on an input, with no handle bound outside of it. -/
def finalState (p : Parser ν) (input : Input) : Option (State ν) :=
  p.runFrom (budgetFor input.size) Scope.none (.start input)

/-- What a parser reports on an input. -/
def run (p : Parser ν) (input : Input) : Option (Outcome ν) :=
  (p.finalState input).map State.outcome

end Parser

/-! ## Counted runs -/

/-- How often the operand of a repetition and the separator, if it has one, were run. -/
structure Tally where
  operand : Nat
  separator : Nat
deriving DecidableEq, Repr

namespace Tally

def zero : Tally := ⟨0, 0⟩

/-- One run of the operand more. -/
def addOperand (tally : Tally) : Tally := { tally with operand := tally.operand + 1 }

/-- One run of the separator more. -/
def addSeparator (tally : Tally) : Tally := { tally with separator := tally.separator + 1 }

end Tally

/-- The step, which notes each of its runs. -/
def Step.noted (note : Tally → Tally) (p : Step ν) (s : State ν) : StateT Tally Option (State ν) :=
  do
  modify note
  p s

/-- What a parser does to a state that has not failed.  If it is a repetition, the runs of its operand
and of its separator are counted. -/
def Parser.counted (budget : Nat) (scope : Scope ν) :
    Parser ν → State ν → StateT Tally Option (State ν)
  | .many least p, s =>
    Step.many budget least p.label (Step.noted Tally.addOperand (p.step budget scope)) s
  | .separated least value separator, s =>
    Step.separated budget least value.label separator.label
      (Step.noted Tally.addOperand (value.step budget scope))
      (Step.noted Tally.addSeparator (separator.step budget scope)) s
  | .all p, s => Step.all budget p.label (Step.noted Tally.addOperand (p.step budget scope)) s
  | p, s => p.step budget scope s

end TextGrammar
