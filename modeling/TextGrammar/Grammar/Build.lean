import TextGrammar.Grammar.Basic

/-!
# Building parsers from grammars

`Grammar.build` gives the parser that a grammar describes, or the first fault in it.  The parts of a
grammar are built in the order in which they are written.
-/

namespace TextGrammar

/-- What the names of a grammar stand for, the innermost first, and the handle that the next
recursive parser gets.  Handles count the recursive grammars around a place, so that none is bound
twice on the way to it. -/
structure Bindings where
  names : List (String × Parser Element)
  nextHandle : Handle

namespace Bindings

/-- No names. -/
def empty : Bindings := ⟨[], 0⟩

/-- What a name stands for. -/
def find? (b : Bindings) (name : String) : Option (Parser Element) := b.names.lookup name

/-- Lets a name stand for a parser. -/
def add (b : Bindings) (name : String) (p : Parser Element) : Bindings :=
  { b with names := (name, p) :: b.names }

/-- Lets a name stand for a recursive parser inside of it. -/
def enter (b : Bindings) (name : String) : Bindings :=
  ⟨(name, .handle b.nextHandle) :: b.names, b.nextHandle + 1⟩

end Bindings

namespace Grammar

mutual

/-- The parser that a grammar describes. -/
def build (b : Bindings) : Grammar → Except Fault (Parser Element)
  | unusable fault => .error fault
  | ref name =>
    match b.find? name with
    | some p => .ok p
    | none => .error (.unbound name)
  | primitive p => .ok p.parser
  | literal text => .ok (.literal text)
  | pattern source =>
    match Pattern.ofSource? Regex.Engine.builtIn source with
    | some p => .ok (.pattern p)
    | none => .error (.invalidPattern source)
  | sequence gs => do return .sequence (← buildList b gs)
  | and left right => do return .and (← left.build b) (← right.build b)
  | or left right => do return .or (← left.build b) (← right.build b)
  | choice gs => do return .choice (← buildList b gs)
  | optional g => do return .optional (← g.build b)
  | collectedAs disposition g => do return .collectedAs disposition (← g.build b)
  | many least g => do return .many least (← g.build b)
  | separated least value separator => do
    return .separated least (← value.build b) (← separator.build b)
  | all g => do return .all (← g.build b)
  | between opening closing center => do
    return .between (← opening.build b) (← closing.build b) (← center.build b)
  | enclosed bracket g => do return bracket.enclose (← g.build b)
  | named label g => do return .named label (← g.build b)
  | recursive name g => do return .recursive b.nextHandle (← g.build (b.enter name))
  | bind definitions g => do g.build (← buildDefinitions b definitions)
  | map f g => do return .map f.apply (← g.build b)
  | mapWithLine f g => do return .mapWithLine f.apply (← g.build b)
  | recover f g => do return .recover f.apply (← g.build b)
  | chainLiteral before after g => do
    return .chain (fun v => .literal (before ++ Value.text v ++ after)) (← g.build b)
  | chainRepeat g body => do
    let p ← g.build b
    let q ← body.build b
    return .chain (fun v => .sequence (List.replicate v.multiplicity q)) p
  | chainSelect g cases default => do
    let p ← g.build b
    let table ← buildCases b cases
    let other ← default.build b
    return .chain (fun v => (table.lookup (Value.text v)).getD other) p
  | chainConst g body => do
    let p ← g.build b
    let q ← body.build b
    return .chain (fun _ => q) p
  | chainSucceed g => do return .chain Parser.succeed (← g.build b)
  | take count => .ok (.take count)
  | back count => .ok (.back count)
  | succeed v => .ok (.succeed v)
  | fail failure => .ok (.fail failure)

/-- The parsers that grammars describe. -/
def buildList (b : Bindings) : List Grammar → Except Fault (List (Parser Element))
  | [] => .ok []
  | g :: gs => do return (← g.build b) :: (← buildList b gs)

/-- The parsers that the cases of a choice by text describe. -/
def buildCases (b : Bindings) : List (String × Grammar) →
    Except Fault (List (String × Parser Element))
  | [] => .ok []
  | (key, g) :: gs => do return (key, ← g.build b) :: (← buildCases b gs)

/-- The names with those of definitions, each of which sees the names before it. -/
def buildDefinitions (b : Bindings) : List (String × Grammar) → Except Fault Bindings
  | [] => .ok b
  | (name, g) :: gs => do buildDefinitions (b.add name (← g.build b)) gs

end

/-- The parser that a whole grammar describes. -/
def parser (g : Grammar) : Except Fault (Parser Element) := g.build .empty

end Grammar

end TextGrammar
