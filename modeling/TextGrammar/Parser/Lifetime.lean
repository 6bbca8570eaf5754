import TextGrammar.Parser.Run

/-!
# The lifetime of a recursive parser

A handle does not keep its recursive parser.  It refers to a cell, in which the parser is put when
its definition has returned, and from which it goes when nothing owns it any more.

* `Cell`, `Cell.next` — the cell of a recursive parser, and what may happen to it (`recursive`, `Arc`).
* `Cell.upgrade` — the parser in it, if there is one (`Weak.upgrade`).
* `Cell.step` — what a handle stands for (`RecursiveHandle.comp`).
* `Parser.runFromBeside`, `Parser.runBeside` — runs of parsers with a handle that refers to a cell.
* `Phase` — the times of a handle, as histories of its cell.
-/

namespace TextGrammar

variable {ν : Type}

/-- The cell of a recursive parser. -/
inductive Cell (ν : Type) where
  /-- The body is being put together. -/
  | undefined
  /-- The parser with this body has been made, and there are so many owners of it. -/
  | defined (body : Parser ν) (owners : Nat)

namespace Cell

/-- What may happen to a cell. -/
inductive Event (ν : Type) where
  /-- The definition returns the body, and the first owner is made. -/
  | define (body : Parser ν)
  /-- An owner is copied. -/
  | share
  /-- An owner is dropped. -/
  | release

/-- The cell after an event.  Only an owner can be copied or dropped, and a definition returns once
only. -/
def next : Cell ν → Event ν → Cell ν
  | undefined, .define body => defined body 1
  | defined body (owners + 1), .share => defined body (owners + 2)
  | defined body (owners + 1), .release => defined body owners
  | cell, _ => cell

/-- The cell after events, from the call of `recursive` on. -/
def after (history : List (Event ν)) : Cell ν := history.foldl next undefined

/-- The body of the recursive parser, if the parser exists (`Weak.upgrade`). -/
def upgrade : Cell ν → Option (Parser ν)
  | defined body (_ + 1) => some body
  | _ => none

/-- What a handle stands for that refers to the cell. -/
def step (budget : Nat) (scope : Scope ν) (handle : Handle) (cell : Cell ν) : Step ν :=
  match cell.upgrade with
  | some body => (Parser.recursive handle body).step budget scope
  | none => Step.stray

end Cell

namespace Parser

/-- Goes on from any state, with a handle that refers to a cell. -/
def runFromBeside (budget : Nat) (scope : Scope ν) (handle : Handle) (cell : Cell ν) (p : Parser ν) :
    Step ν :=
  p.runFrom budget (scope.bind handle (cell.step budget scope handle))

/-- What a parser reports on an input, with a handle that refers to a cell. -/
def runBeside (handle : Handle) (cell : Cell ν) (p : Parser ν) (input : Input) :
    Option (Outcome ν) :=
  (p.runFromBeside (budgetFor input.size) Scope.none handle cell (.start input)).map State.outcome

end Parser

/-! ## Times of a handle -/

/-- The times of a handle, seen from its recursive parser. -/
inductive Phase where
  /-- The parser is being defined. -/
  | defining
  /-- The parser exists. -/
  | alive
  /-- The parser is gone. -/
  | gone
deriving DecidableEq, Repr

/-- The shortest history of the cell that leads to each time. -/
def Phase.history (body : Parser ν) : Phase → List (Cell.Event ν)
  | defining => []
  | alive => [.define body]
  | gone => [.define body, .release]

/-- What a handle by itself reports on an input, at each of these times. -/
def Parser.runHandle (h : Handle) (body : Parser ν) (phase : Phase) (input : Input) :
    Option (Outcome ν) :=
  (handle h).runBeside h (.after (phase.history body)) input

end TextGrammar
