import TextGrammar.Value
import TextGrammar.Failure

/-!
# Elements

Elements are nodes for general use: a tag with a value, which may hold further elements.

* `Element` — the nodes; `Element.same` and `Value.same` say when two are equal, lines included.
* `Value.text` — the text of all tokens in a value.
* `Value.integer` — the number that a token writes down.
* `Change`, `LineChange`, `Recovery` — the changes that a grammar can name, each with its meaning as a
  function: of a result, of a result together with the line on which it ended, and of an error into a
  result.
-/

namespace TextGrammar

/-- A tag with a value. -/
inductive Element where
  | mk (tag : String) (value : Value Element)

namespace Element

/-- The tag. -/
def tag : Element → String
  | mk tag _ => tag

/-- The value under the tag. -/
def value : Element → Value Element
  | mk _ value => value

instance : Inhabited Element := ⟨mk "" .absent⟩

end Element

/-! ## Equality -/

mutual

/-- Whether two elements have the same tag and the same value. -/
def Element.same : Element → Element → Bool
  | .mk tag v, .mk tag' v' => tag == tag' && Value.same v v'

/-- Whether two values are equal. -/
def Value.same : Value Element → Value Element → Bool
  | .token t, .token t' => t == t'
  | .list vs, .list vs' => Value.sameList vs vs'
  | .node e line, .node e' line' => e.same e' && line == line'
  | .absent, .absent => true
  | _, _ => false

/-- Whether two lists of values are equal. -/
def Value.sameList : List (Value Element) → List (Value Element) → Bool
  | [], [] => true
  | v :: vs, v' :: vs' => Value.same v v' && Value.sameList vs vs'
  | _, _ => false

end

mutual

theorem Element.same_iff (e f : Element) : e.same f = true ↔ e = f := by
  cases e
  cases f
  simp [Element.same, Value.same_iff]

theorem Value.same_iff (v w : Value Element) : Value.same v w = true ↔ v = w := by
  cases v <;> cases w <;> simp [Value.same, Element.same_iff, Value.sameList_iff]

theorem Value.sameList_iff (vs ws : List (Value Element)) :
    Value.sameList vs ws = true ↔ vs = ws := by
  cases vs <;> cases ws <;> simp [Value.sameList, Value.same_iff, Value.sameList_iff]

end

instance : DecidableEq Element := fun e f => decidable_of_iff _ (Element.same_iff e f)

instance : DecidableEq (Value Element) := fun v w => decidable_of_iff _ (Value.same_iff v w)

/-! ## Text -/

mutual

/-- The text of all tokens under the tag, in order. -/
def Element.text : Element → String
  | .mk _ v => Value.text v

/-- The text of all tokens in a value, in order. -/
def Value.text : Value Element → String
  | .token t => t
  | .list vs => Value.textOfList vs
  | .node e _ => e.text
  | .absent => ""

/-- The text of all tokens in values, in order. -/
def Value.textOfList : List (Value Element) → String
  | [] => ""
  | v :: vs => Value.text v ++ Value.textOfList vs

end

/-! ## Numbers -/

/-- The number that decimal digits write down, after a sign that may be missing; `minus` allows for
negative ones. -/
def signedDecimal? (minus : Bool) (text : List Char) : Option Int :=
  let negative := minus && text.head? == some '-'
  let digits := if negative || text.head? == some '+' then text.tail else text
  if digits.isEmpty || !digits.all Char.isDigit then none
  else
    let magnitude : Nat := digits.foldl (fun n c => 10 * n + (c.toNat - '0'.toNat)) 0
    some (if negative then -(magnitude : Int) else magnitude)

namespace Value

/-- The number that a token writes down, if it fits into 64 bits with a sign, and otherwise zero. -/
def integer (v : Value Element) : Int :=
  match (v.asToken?.getD "") |>.toList |> signedDecimal? true with
  | some n => if -0x8000000000000000 ≤ n ∧ n < 0x8000000000000000 then n else 0
  | none => 0

/-- The count that the text of a value writes down, if it fits into 32 bits, and otherwise zero. -/
def multiplicity (v : Value Element) : Nat :=
  match signedDecimal? false (text v).toList with
  | some n => if n < 0x100000000 then n.toNat else 0
  | none => 0

end Value

end TextGrammar

/-! ## Changes -/

namespace TextGrammar

/-- A change of a result. -/
inductive Change where
  | id
  /-- An element around the result, on no line yet. -/
  | node (tag : String)
  /-- An element around the result, on a given line. -/
  | nodeAt (tag : String) (line : Nat)
  | const (v : Value Element)
  | inner
  /-- The text of all tokens. -/
  | concat
  | count
  | first
  | last
  | reverse
  /-- The text of a token, twice. -/
  | double
  /-- The total of a first number and of signed numbers behind it. -/
  | sum

namespace Change

/-- A number behind its sign, as the number to add. -/
def signed (step : Value Element) : Int :=
  let parts := step.asList?.getD []
  let n := (parts.getD 1 .absent).integer
  if (parts.getD 0 .absent).asToken? = some "-" then -n else n

/-- Adds numbers of 64 bits with a sign, where the sum starts over at the other end of the range if
it leaves it. -/
def add (a b : Int) : Int := Int.bmod (a + b) 0x10000000000000000

/-- The total of a first number and of signed numbers behind it, from left to right. -/
def total (v : Value Element) : Int :=
  match v with
  | .list items =>
    (((items.getD 1 .absent).asList?.getD []).map signed).foldl add (items.getD 0 .absent).integer
  | _ => 0

def apply : Change → Value Element → Value Element
  | id, v => v
  | node tag, v => .ofNode (.mk tag v)
  | nodeAt tag line, v => .node (.mk tag v) (some line)
  | const w, _ => w
  | inner, v => (v.asNode?.map Element.value).getD .absent
  | concat, v => .token (Value.text v)
  | count, v => .token (toString (v.asList?.getD []).length)
  | first, v => v.head
  | last, v => ((v.asList?.getD []).getLast?).getD .absent
  | reverse, v => (v.asList?.map fun items => .list items.reverse).getD v
  | double, v => .token ((v.asToken?.map fun t => t ++ t).getD "")
  | sum, v => .token (toString (total v))

end Change

/-- A change of a result, given a line. -/
inductive LineChange where
  | line
  /-- An element around the result whose tag names the line, on no line yet. -/
  | node
  /-- The same, on the line with ten times the number. -/
  | nodeAt
  | pair

namespace LineChange

def apply : LineChange → Value Element → Nat → Value Element
  | line, _, n => .token (toString n)
  | node, v, n => .ofNode (.mk ("L" ++ toString n) v)
  | nodeAt, v, n => .node (.mk ("L" ++ toString n) v) (some (n * 10))
  | pair, v, n => .list [v, .token (toString n)]

end LineChange

/-- A change of an error into a result. -/
inductive Recovery where
  /-- An element with the parts of the error, on no line yet. -/
  | node (tag : String)
  /-- An element with the parts of the error, on a given line. -/
  | nodeAt (tag : String) (line : Nat)
  | list
  | message
  | display
  | absent

namespace Recovery

/-- The parts of an error: kind, message, position and line. -/
def parts (e : ParseError) : Value Element :=
  .list [.token e.kind.describe, .token e.message, .token (toString e.position),
    .token (toString e.line)]

def apply : Recovery → ParseError → Value Element
  | node tag, e => .ofNode (.mk tag (parts e))
  | nodeAt tag line, e => .node (.mk tag (parts e)) (some line)
  | list, e => parts e
  | message, e => .token e.message
  | display, e => .token e.display
  | absent, _ => .absent

end Recovery

end TextGrammar
