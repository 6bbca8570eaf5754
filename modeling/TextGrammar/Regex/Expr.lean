import TextGrammar.Regex.CharSet
import TextGrammar.Regex.Term

/-!
# Regular expressions

The form in which a regular expression is read: texts, sets of characters, conditions on a place,
sequences, alternatives and counted repetitions.

* `Anchor.holds` — the conditions.
* `Expr` — expressions, with decidable equality.
* `Expr.nullable`, `Expr.weightless` — whether an expression can match the empty text, and whether
  it can match nothing else.
* `Expr.term` — what an expression means.
-/

namespace TextGrammar.Regex

/-- A condition on a place between two characters. -/
inductive Anchor where
  | textStart
  | textEnd
  | lineStart
  | lineEnd
  /-- The start of a line, where a carriage return ends one, too. -/
  | returnStart
  /-- The end of a line, where a carriage return ends one, too. -/
  | returnEnd
  | wordEdge
  | noWordEdge
  | wordStart
  | wordEnd
  /-- No word goes on from before. -/
  | wordStartHalf
  /-- No word goes on from here. -/
  | wordEndHalf
deriving DecidableEq, Repr

namespace Anchor

/-- Whether the condition holds between the characters `before` and `after`, which are missing at
the ends of the text. -/
def holds : Anchor → (before after : Option Char) → Bool
  | textStart, before, _ => before.isNone
  | textEnd, _, after => after.isNone
  | lineStart, before, _ => before.all (· == '\n')
  | lineEnd, _, after => after.all (· == '\n')
  | returnStart, before, after => before.all fun c => c == '\n' || c == '\r' && after != some '\n'
  | returnEnd, before, after => after.all fun c => c == '\r' || c == '\n' && before != some '\r'
  | wordEdge, before, after => before.any Text.isWord != after.any Text.isWord
  | noWordEdge, before, after => before.any Text.isWord == after.any Text.isWord
  | wordStart, before, after => !before.any Text.isWord && after.any Text.isWord
  | wordEnd, before, after => before.any Text.isWord && !after.any Text.isWord
  | wordStartHalf, before, _ => !before.any Text.isWord
  | wordEndHalf, _, after => !after.any Text.isWord

end Anchor

/-- A regular expression. -/
inductive Expr where
  /-- A given text. -/
  | text (cs : List Char)
  /-- One character of a set. -/
  | one (s : CharSet)
  /-- A condition on the place. -/
  | anchor (a : Anchor)
  /-- A numbered group. -/
  | group (number : Nat) (e : Expr)
  /-- An expression from `least` to `most` times, without end if `most` is missing.  If `greedy`,
  more is preferred to less. -/
  | repeated (greedy : Bool) (least : Nat) (most : Option Nat) (e : Expr)
  /-- Expressions one after the other. -/
  | concat (es : List Expr)
  /-- One of several expressions, the first preferred. -/
  | alternate (es : List Expr)

namespace Expr

/-! ## Equality -/

mutual

/-- Equality of expressions. -/
def same : Expr → Expr → Bool
  | text cs, text ds => cs == ds
  | one s, one t => s == t
  | anchor a, anchor b => a == b
  | group m e, group n f => m == n && same e f
  | repeated g l m e, repeated g' l' m' f => g == g' && l == l' && m == m' && same e f
  | concat es, concat fs => sameAll es fs
  | alternate es, alternate fs => sameAll es fs
  | _, _ => false

/-- Equality of lists of expressions. -/
def sameAll : List Expr → List Expr → Bool
  | [], [] => true
  | e :: es, f :: fs => same e f && sameAll es fs
  | _, _ => false

end

mutual

theorem same_iff (e f : Expr) : same e f = true ↔ e = f := by
  cases e <;> cases f <;> simp [same, same_iff, sameAll_iff, and_assoc]

theorem sameAll_iff (es fs : List Expr) : sameAll es fs = true ↔ es = fs := by
  cases es <;> cases fs <;> simp [sameAll, same_iff, sameAll_iff]

end

instance : DecidableEq Expr := fun e f => decidable_of_iff _ (same_iff e f)

/-! ## Emptiness -/

mutual

/-- Whether a match can take no character. -/
def nullable : Expr → Bool
  | text cs => cs.isEmpty
  | one _ => false
  | anchor _ => true
  | group _ e => e.nullable
  | repeated _ least _ e => least == 0 || e.nullable
  | concat es => allNullable es
  | alternate es => anyNullable es

/-- Whether all expressions of a list are nullable. -/
def allNullable : List Expr → Bool
  | [] => true
  | e :: es => e.nullable && allNullable es

/-- Whether some expression of a list is nullable. -/
def anyNullable : List Expr → Bool
  | [] => false
  | e :: es => e.nullable || anyNullable es

end

mutual

/-- Whether no match takes a character. -/
def weightless : Expr → Bool
  | text cs => cs.isEmpty
  | one _ => false
  | anchor _ => true
  | group _ e => e.weightless
  | repeated _ _ _ e => e.weightless
  | concat es => allWeightless es
  | alternate es => allWeightless es

/-- Whether all expressions of a list are weightless. -/
def allWeightless : List Expr → Bool
  | [] => true
  | e :: es => e.weightless && allWeightless es

end

/-! ## Meaning -/

mutual

/-- What the expression means.  Groups have numbers for no other purpose than to be told apart. -/
def term : Expr → Term
  | text cs => cs.foldr (fun c t => .seq (.one (CharSet.single c).mem) t) .empty
  | one s => .one s.mem
  | anchor a => .look a.holds
  | group _ e => e.term
  | repeated greedy least most e => .repeated greedy least most e.term
  | concat es => allTerm es
  | alternate es => anyTerm es

/-- Expressions in order. -/
def allTerm : List Expr → Term
  | [] => .empty
  | [e] => e.term
  | e :: es => .seq e.term (allTerm es)

/-- The first of several expressions that matches. -/
def anyTerm : List Expr → Term
  | [] => .empty
  | [e] => e.term
  | e :: es => .alt e.term (anyTerm es)

end

end Expr

end TextGrammar.Regex
