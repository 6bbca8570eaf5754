/-!
# Values

What a parser produces: text that it matched, lists of values, nodes that the user of the library
makes of values, or nothing.

* `Value` — the values over a type of nodes, where a node stands with its line (`Value`, `Located`).
* `Value.onLine` — gives a node its line, unless it has one (`Value.locate`).
* `Disposition` — how a value is to be collected by what stands around it (`Emit`).
-/

namespace TextGrammar

/-- What a parser produces: text that it matched, collected values in order, a node, or nothing. -/
inductive Value (ν : Type) where
  | token (text : String)
  | list (items : List (Value ν))
  /-- A node, with the line it was made on if that is known. -/
  | node (node : ν) (line : Option Nat)
  | absent
deriving Repr

/-- How a value enters the list of what stands around it: as one element, not at all, or element by
element. -/
inductive Disposition where
  | keep
  | ignore
  | splice
deriving DecidableEq, Repr

namespace Value

variable {ν : Type}

instance : Inhabited (Value ν) := ⟨absent⟩

def ofNode (node : ν) : Value ν := .node node none

def asToken? : Value ν → Option String
  | token text => some text
  | _ => none

def asList? : Value ν → Option (List (Value ν))
  | list items => some items
  | _ => none

def asNode? : Value ν → Option ν
  | node n _ => some n
  | _ => none

def isAbsent : Value ν → Bool
  | absent => true
  | _ => false

/-- The first item of a list, if there is one. -/
def head (v : Value ν) : Value ν := ((v.asList?.getD []).head?).getD absent

/-- Puts a node without a line on a line.  Other values, and the nodes inside, stay as they are. -/
def onLine (line : Nat) : Value ν → Value ν
  | node n none => node n (some line)
  | v => v

@[simp] theorem onLine_token (line : Nat) (text : String) :
    (token text : Value ν).onLine line = token text := rfl

@[simp] theorem onLine_list (line : Nat) (items : List (Value ν)) :
    (list items).onLine line = list items := rfl

@[simp] theorem onLine_absent (line : Nat) : (absent : Value ν).onLine line = absent := rfl

/-- A node is put on a line once. -/
@[simp] theorem onLine_onLine (first second : Nat) (v : Value ν) :
    (v.onLine first).onLine second = v.onLine first := by
  match v with
  | token _ => rfl
  | list _ => rfl
  | node _ none => rfl
  | node _ (some _) => rfl
  | absent => rfl

end Value

end TextGrammar
