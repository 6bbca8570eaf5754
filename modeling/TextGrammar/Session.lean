import TextGrammar.Grammar.Build

/-!
# Sessions

A session goes through states one action at a time.  It can keep states in slots, go back to them,
and compare them with the one it has come to.

* `Action` — what can be done.
* `Session.perform` — does it, and tells what there is to tell besides the new state.
* `Session.follow` — a list of actions, with the states on the way.
-/

namespace TextGrammar

/-- Whether two states agree in all that can be seen of them. -/
def State.same (s t : State Element) : Bool :=
  s.input.chars == t.input.chars && s.cursor == t.cursor && Value.same s.result t.result &&
    s.failure == t.failure && s.disposition == t.disposition

/-- What can be done in a session. -/
inductive Action where
  /-- An action that cannot be done. -/
  | unusable (fault : Fault)
  | start (input : Input)
  | advance (length : Nat) (v : Value Element)
  | succeed (v : Value Element)
  | fail (failure : Failure)
  | collectAs (disposition : Disposition)
  | rewind (offset : Nat)
  | take
  | run (g : Grammar)
  | save (slot : String)
  | load (slot : String)
  /-- Compares the state with the one in a slot. -/
  | compare (slot : String)
  | error
  /-- Tells what a parse that ends here reports. -/
  | finish

/-- What an action tells besides the state to which it leads. -/
inductive Remark where
  | nothing
  | taken (v : Value Element)
  | equal (same : Bool)
  | error (e : Option ParseError)
  | outcome (o : Outcome Element)

/-- The state of a session, and the states in its slots. -/
structure Session where
  state : State Element
  slots : List (String × State Element)

namespace Session

/-- A session that starts on an input. -/
def start (input : Input) : Session := ⟨.start input, []⟩

def move (session : Session) (s : State Element) : Session := { session with state := s }

/-- The state in a slot. -/
def slot (session : Session) (name : String) : Except Fault (State Element) :=
  match session.slots.lookup name with
  | some s => .ok s
  | none => .error .emptySlot

def perform (session : Session) (action : Action) : Except Fault (Session × Remark) :=
  let s := session.state
  match action with
  | .unusable fault => .error fault
  | .start input => .ok (session.move (.start input), .nothing)
  | .advance length v => .ok (session.move (s.advance length v), .nothing)
  | .succeed v => .ok (session.move (s.succeed v), .nothing)
  | .fail failure => .ok (session.move (s.fail failure), .nothing)
  | .collectAs disposition => .ok (session.move (s.collectAs disposition), .nothing)
  | .rewind offset => .ok (session.move (s.rewind offset), .nothing)
  | .take => .ok (session.move s.take, .taken s.result)
  | .run g => do
    let p ← g.parser
    match p.runFrom (Parser.budgetFor s.input.size) Scope.none s with
    | some t => return (session.move t, .nothing)
    | none => .error .endless
  | .save name => .ok ({ session with slots := (name, s) :: session.slots }, .nothing)
  | .load name => do return (session.move (← session.slot name), .nothing)
  | .compare name => do return (session, .equal (s.same (← session.slot name)))
  | .error => .ok (session, .error s.error?)
  | .finish => .ok (session, .outcome s.outcome)

/-- Does actions in order, and gives the states to which they lead, each with what there is to
tell. -/
def follow (session : Session) : List Action → Except Fault (List (State Element × Remark))
  | [] => .ok []
  | action :: actions => do
    let (next, remark) ← session.perform action
    return (next.state, remark) :: (← next.follow actions)

end Session

end TextGrammar
