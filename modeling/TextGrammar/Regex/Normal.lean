import TextGrammar.Regex.Expr

/-!
# Building expressions in normal form

Expressions are put together by functions that simplify on the way: sequences and alternatives are
not nested in their like, adjacent texts are one text, alternatives between characters are a set,
and what all alternatives begin with stands in front of them.  The last rule also decides which
match is preferred, since alternatives behind a common beginning are tried only there.

* `Expr.ofSet`, `Expr.sequence`, `Expr.either`, `Expr.times` — one character, sequences,
  alternatives and repetitions in normal form.
-/

namespace TextGrammar.Regex.Expr

/-- The expression that matches the empty text. -/
def empty : Expr := concat []

/-- One character of a set; a text if there is no choice. -/
def ofSet (s : CharSet) : Expr :=
  match s.only? with
  | some c => text [c]
  | none => one s

/-! ## Sequences -/

/-- The parts of a sequence; any other expression is its own only part. -/
def items : Expr → List Expr
  | concat es => es
  | e => [e]

/-- An item in front of others.  A text joins the text that follows. -/
def addItem : Expr → List Expr → List Expr
  | text cs, text ds :: es => text (cs ++ ds) :: es
  | e, es => e :: es

/-- The sequence of expressions. -/
def sequence (es : List Expr) : Expr :=
  match (es.flatMap items).foldr addItem [] with
  | [e] => e
  | es => concat es

/-! ## Alternatives -/

/-- The parts of a choice; any other expression is its own only part. -/
def branches : Expr → List Expr
  | alternate es => es
  | e => [e]

/-- The character that is all an expression can match. -/
def char? : Expr → Option Char
  | text [c] => some c
  | _ => none

/-- The set of an expression for one character of a set. -/
def set? : Expr → Option CharSet
  | one s => some s
  | _ => none

/-- The choice between expressions that begin with nothing in common. -/
def unite (es : List Expr) : Expr :=
  match es with
  | [e] => e
  | _ =>
    match es.mapM char?, es.mapM set? with
    | some cs, _ => ofSet (cs.foldl (fun s c => s.insert c.toNat c.toNat) .empty)
    | none, some ss => ofSet (ss.foldl .union .empty)
    | none, none => alternate es

/-- The longest common beginning of two lists. -/
def sharedItems : List Expr → List Expr → List Expr
  | e :: es, f :: fs => if e = f then e :: sharedItems es fs else []
  | _, _ => []

/-- What sequences of several items have in common at the beginning; nothing, if one of the
expressions is no such sequence. -/
def sharedStart : List Expr → List Expr
  | [] => []
  | [concat es] => es
  | concat es :: fs => sharedItems es (sharedStart fs)
  | _ => []

/-- The choice between expressions. -/
def either (es : List Expr) : Expr :=
  let es := es.flatMap branches
  match es, sharedStart es with
  | [e], _ => e
  | _, [] => unite es
  | _, start =>
    let rests := es.map fun e => sequence (e.items.drop start.length)
    sequence (start ++ [unite (rests.flatMap branches)])

/-! ## Repetitions -/

/-- An expression from `least` to `most` times.  What takes no character is not repeated. -/
def times (greedy : Bool) (least : Nat) (most : Option Nat) (e : Expr) : Expr :=
  let most := if e.weightless then some (min (most.getD 1) 1) else most
  let least := if e.weightless then min least 1 else least
  if most = some 0 then empty
  else if least = 1 ∧ most = some 1 then e
  else repeated greedy least most e

end TextGrammar.Regex.Expr
