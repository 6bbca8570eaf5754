import TextGrammar.Pattern
import TextGrammar.State

/-!
# Steps

A step takes a state that has not failed to the state in which it ends, failed or not.  It gives
`none` only where a budget runs out: repetition and recursion are given a budget of rounds, so that
every step is a total function, also the step of a parser that would never end.

Steps are put together from other steps, as the `comp` of a kind of parser is from those of its parts.

* `Step.literal`, `Step.pattern`, `Step.endOfInput` — text that is matched (`Literal.comp`,
  `Pattern.comp`, `EndOfInput.comp`).
* `Step.sequence`, `Step.and` — steps one after the other (`Sequence.comp`, `And.comp`).
* `Step.or`, `Step.choice`, `Step.optional`, `Step.recover` — steps instead of others (`Or.comp`,
  `Choice.comp`, `Optional.comp`, `MapErr.comp`).
* `Step.map`, `Step.mapWithLine`, `Step.chain` — work on results (`MapSuc.comp`, `MapLine.comp`,
  `Chain.comp`).
* `Step.many`, `Step.separated`, `Step.all` — steps that are run again and again (`Many.comp`,
  `SepBy.comp`, `All.comp`).
* `Scope`, `Step.fix` — what handles stand for (`RecursiveHandle.comp`), and the step that is its own
  body (`Recursive.comp`).
-/

namespace TextGrammar

variable {ν : Type}

/-- What a parser does to a state that has not failed. -/
abbrev Step (ν : Type) := State ν → Option (State ν)

namespace Step

/-- A step that always ends, given by the state in which it ends. -/
def ofState (f : State ν → State ν) : Step ν := fun s => some (f s)

/-- The step behind a guard (`Parser.comp`): a state that has failed is left as it is. -/
def unlessFailed (p : Step ν) : Step ν := fun s => if s.failed then some s else p s

/-- Runs a step.  Where it succeeds, its result is to be collected in the given way (`Ignore.comp`). -/
def collectedAs (disposition : Disposition) (p : Step ν) : Step ν := fun s => do
  let t ← p s
  if t.failed then pure t else pure (t.collectAs disposition)

/-! ## Text -/

/-- Takes a given text, and produces it. -/
def literal (text : String) : Step ν := fun s =>
  if text.toList.isPrefixOf s.rest then
    some (s.advance (Text.byteLength text.toList) (.token text))
  else some (s.fail (.literal text s.rest))

/-- Takes the text up to the end of what a pattern finds in the text ahead, and produces what it
finds. -/
def pattern (p : Pattern) : Step ν := fun s =>
  match p.find s.rest with
  | some m => some (s.advance m.stop (.token (String.ofList (Text.slice s.rest m.start m.stop))))
  | none => some (s.fail (.pattern p.source s.rest))

/-- Succeeds at the end of the input only, with nothing to collect. -/
def endOfInput : Step ν := fun s =>
  if s.atEnd then some ((s.succeed .absent).collectAs .ignore)
  else some (s.fail (.trailing s.rest))

/-! ## Sequence

Each step goes on where the one before it ended, and the first that fails ends the sequence. -/

/-- Runs steps in order, with what the steps before them have produced. -/
def sequenceFrom (items : Array (Value ν)) : List (Step ν) → Step ν
  | [], s => some (s.succeed (.list items.toList))
  | p :: ps, s => do
    let t ← p s
    if t.failed then pure t else sequenceFrom (items ++ t.kept) ps t.collected

/-- Runs steps in order and lists their results. -/
def sequence (ps : List (Step ν)) : Step ν := sequenceFrom #[] ps

/-- Runs two steps in order and joins their results to one flat list. -/
def and (left right : Step ν) : Step ν := fun s => do
  let t ← left s
  if t.failed then pure t
  else
    let u ← right t.collected
    if u.failed then pure u
    else pure ((u.succeed (.list (t.spliced ++ u.spliced))).collectAs .splice)

/-! ## Choice

A branch that fails gives back all text that it has taken, and the next one starts where it did. -/

/-- Runs the left step, and where it fails the right one instead.  The labels tell which they are if
both fail. -/
@[inline] def or (leftLabel rightLabel : String) (left right : Step ν) : Step ν := fun s => do
  let t ← left s
  if t.failed then
    let u ← right (t.rewind s.cursor)
    if u.failed then pure ((u.rewind s.cursor).fail (.neither leftLabel rightLabel)) else pure u
  else pure t

/-- Tries steps in order, each from offset `start`. -/
def choiceFrom (start : Nat) : List (Step ν) → Step ν
  | [], s => some (s.fail .noAlternative)
  | p :: ps, s => do
    let t ← p s
    if t.failed then choiceFrom start ps (t.rewind start) else pure (t.collectAs .keep)

/-- Runs the first of the steps that succeeds. -/
def choice (ps : List (Step ν)) : Step ν := fun s => choiceFrom s.cursor ps s

/-- Runs a step, or produces nothing where it fails. -/
def optional (p : Step ν) : Step ν := fun s => do
  let t ← p s
  if t.failed then pure (t.rewind s.cursor) else pure (t.collectAs .keep)

/-- Runs a step.  Where it fails, succeeds instead with what `f` makes of the error, at the place of
the failure. -/
def recover (f : ParseError → Value ν) (p : Step ν) : Step ν := fun s => do
  let t ← p s
  match t.error? with
  | none => pure (t.collectAs .keep)
  | some e => pure ((t.rewind t.cursor).succeed ((f e).onLine e.line))

/-! ## Results -/

/-- Runs a step and produces what `f` makes of its result and of the line on which it ended. -/
def mapWithLine (f : Value ν → Nat → Value ν) (p : Step ν) : Step ν := fun s => do
  let t ← p s
  if t.failed then pure t else pure (t.succeed ((f t.result t.line).onLine t.line))

/-- Runs a step and produces what `f` makes of its result. -/
def map (f : Value ν → Value ν) (p : Step ν) : Step ν := fun s => do
  let t ← p s
  if t.failed then pure t else pure (t.succeed ((f t.result).onLine t.line))

/-- Runs a step and then the one that `next` gives for its result. -/
def chain (next : Value ν → Step ν) (p : Step ν) : Step ν := fun s => do
  let t ← p s
  if t.failed then pure t else next t.result t.take

end Step

/-! ## Repetition

A repetition runs its step again and again, each time from where it ended.  A round that takes no
text is the last one, for the next would do the same.  The budget bounds the number of rounds.

The loops are written over a monad, so that what is run in them may also keep count of its runs.
Where that is `Option`, they are steps. -/

/-- What a repetition has gathered: the results to list, the number of rounds that succeeded, and
the state after them. -/
structure Harvest (ν : Type) where
  items : Array (Value ν)
  count : Nat
  state : State ν

namespace Harvest

/-- Nothing gathered yet. -/
def start (s : State ν) : Harvest ν := ⟨#[], 0, s⟩

/-- Adds a round that ended in a state. -/
def add (h : Harvest ν) (t : State ν) : Harvest ν := ⟨h.items ++ t.kept, h.count + 1, t.collected⟩

/-- The same rounds, in another state. -/
def stop (h : Harvest ν) (s : State ν) : Harvest ν := { h with state := s }

/-- Succeeds with the list of the results. -/
def succeed (h : Harvest ν) : State ν := h.state.succeed (.list h.items.toList)

end Harvest

namespace Step

variable {m : Type → Type} [Monad m] [MonadLiftT Option m]

/-- Runs a step until it fails or takes no text. -/
@[specialize] def manyFrom (p : State ν → m (State ν)) : (budget : Nat) → Harvest ν → m (Harvest ν)
  | 0, _ => liftM (none : Option (Harvest ν))
  | budget + 1, h => do
    let t ← p h.state
    if t.failed then pure (h.stop (t.rewind h.state.cursor))
    else if t.cursor = h.state.cursor then pure (h.add t)
    else manyFrom p budget (h.add t)

/-- Runs a step as often as it succeeds, and lists the results.  Where that is less often than
`least`, fails at the start of the first round, and tells the label and what was found instead of
the next round. -/
@[inline] def many (budget least : Nat) (label : String) (p : State ν → m (State ν)) :
    State ν → m (State ν) := fun s => do
  let h ← manyFrom p budget (.start s)
  if h.count < least then
    pure ((h.state.rewind s.cursor).fail (.tooFew least label h.state.rest))
  else pure h.succeed

/-- Runs a value and a separator in turn until one of them fails or both together take no text. -/
@[specialize] def separatedFrom (value separator : State ν → m (State ν)) :
    (budget : Nat) → Harvest ν → m (Harvest ν)
  | 0, _ => liftM (none : Option (Harvest ν))
  | budget + 1, h => do
    let t ← value h.state
    if t.failed then pure (h.stop (t.rewind h.state.cursor))
    else
      let h' := h.add t
      let u ← separator h'.state
      if u.failed then pure (h'.stop (u.rewind t.cursor))
      else if u.cursor = h.state.cursor then pure (h'.stop u)
      else separatedFrom value separator budget (h'.stop u)

/-- Runs values with separators between them, and lists the results of the values.  A separator with
no value behind it stays taken.  Where there are less than `least` values, fails at the start of
the first. -/
@[inline] def separated (budget least : Nat) (valueLabel separatorLabel : String)
    (value separator : State ν → m (State ν)) : State ν → m (State ν) := fun s => do
  let h ← separatedFrom value separator budget (.start s)
  if h.count < least then
    pure ((h.state.rewind s.cursor).fail
      (.tooFewSeparated least valueLabel separatorLabel h.state.rest))
  else pure h.succeed

/-- Runs a step until the input has ended.  A round that fails, or that takes no text before the
end, fails the whole. -/
@[specialize] def allFrom (label : String) (p : State ν → m (State ν)) :
    (budget : Nat) → Harvest ν → m (State ν)
  | 0, _ => liftM (none : Option (State ν))
  | budget + 1, h => do
    let t ← p h.state
    if t.failed then pure t
    else
      let h' := h.add t
      if t.atEnd then pure h'.succeed
      else if t.cursor = h.state.cursor then
        pure (h'.state.fail (.stalled label t.rest))
      else allFrom label p budget h'

/-- Runs a step until the input has ended, and lists the results. -/
def all (budget : Nat) (label : String) (p : State ν → m (State ν)) : State ν → m (State ν) :=
  fun s => allFrom label p budget (.start s)

end Step

/-! ## Recursion

A recursive parser refers to itself by a handle.  A scope says what every handle stands for: the
step of the parser that binds it, or a failure where no parser does. -/

/-- The name of a handle. -/
abbrev Handle := Nat

/-- What every handle stands for. -/
abbrev Scope (ν : Type) := Handle → Step ν

namespace Step

/-- The step of a handle that no parser binds: it fails where it stands. -/
def stray : Step ν := ofState State.stray

/-- The step `body (body (body …))`, to the depth of the budget. -/
def fix (body : Step ν → Step ν) : (budget : Nat) → Step ν
  | 0, _ => none
  | budget + 1, s => body (fix body budget) s

end Step

namespace Scope

/-- No handle is bound. -/
def none : Scope ν := fun _ => Step.stray

/-- Binds one handle more. -/
def bind (scope : Scope ν) (handle : Handle) (p : Step ν) : Scope ν :=
  fun other => if other = handle then p else scope other

@[simp] theorem bind_self (scope : Scope ν) (handle : Handle) (p : Step ν) :
    scope.bind handle p handle = p := by simp [bind]

theorem bind_of_ne (scope : Scope ν) {handle other : Handle} (p : Step ν) (h : other ≠ handle) :
    scope.bind handle p other = scope other := by simp [bind, h]

/-- What all handles stand for has a property still if what is bound has it. -/
theorem forall_bind {P : Step ν → Prop} {scope : Scope ν} (hs : ∀ h, P (scope h))
    (handle : Handle) {p : Step ν} (hp : P p) (other : Handle) : P (scope.bind handle p other) := by
  by_cases heq : other = handle
  · rw [heq, bind_self]
    exact hp
  · rw [bind_of_ne _ _ heq]
    exact hs other

end Scope

end TextGrammar
