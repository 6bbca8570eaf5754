import TextGrammar.Proofs.NestedList.Language

/-!
# Sums

Expressions of numbers, signs and parentheses: an expression is an operand with signed operands
behind it, and an operand is a number or an expression in parentheses.

* `Arithmetic.Operand`, `Arithmetic.Expression`, `Arithmetic.Steps` — their trees.
* `Arithmetic.Expression.text`, `Arithmetic.Expression.value` — the text of an expression and its
  value, where signs are read from left to right.
* `Arithmetic.Expression.Fits` — no number and no total on the way leaves the range of 64 bits with a
  sign.
-/

namespace TextGrammar.Arithmetic

open NestedList (Numeral)

/-! ## Numbers -/

/-- The number is one of 64 bits with a sign. -/
def InRange (n : Int) : Prop := -0x8000000000000000 ≤ n ∧ n < 0x8000000000000000

instance (n : Int) : Decidable (InRange n) := inferInstanceAs (Decidable (_ ∧ _))

/-- The number that decimal digits write down. -/
def numeralValue (n : Numeral) : Int := Nat.ofDigitChars 10 n.chars 0

/-- Whether a number is added or taken away. -/
inductive Sign where
  | plus
  | minus
deriving DecidableEq, Repr

namespace Sign

def text : Sign → String
  | plus => "+"
  | minus => "-"

/-- The next total. -/
def apply : Sign → Int → Int → Int
  | plus, total, n => total + n
  | minus, total, n => total - n

end Sign

/-- The total of a number and of signed numbers behind it, from left to right. -/
def total (first : Int) (terms : List (Sign × Int)) : Int :=
  terms.foldl (fun total term => term.1.apply total term.2) first

/-- All totals on the way are in range. -/
def TotalsFit : Int → List (Sign × Int) → Prop
  | _, [] => True
  | first, term :: terms =>
    InRange (term.1.apply first term.2) ∧ TotalsFit (term.1.apply first term.2) terms

/-- If all totals are in range, so is the last. -/
theorem TotalsFit.inRange_total {first : Int} {terms : List (Sign × Int)} (hfirst : InRange first)
    (h : TotalsFit first terms) : InRange (total first terms) := by
  induction terms generalizing first with
  | nil => exact hfirst
  | cons term terms ih => exact ih h.1 h.2

/-! ## Trees -/

mutual

/-- A number, or an expression in parentheses. -/
inductive Operand where
  | numeral (n : Numeral)
  | parens (e : Expression)

/-- An operand with signed operands behind it. -/
inductive Expression where
  | mk (first : Operand) (steps : Steps)

/-- Signed operands. -/
inductive Steps where
  | none
  | more (sign : Sign) (operand : Operand) (rest : Steps)

end

mutual

/-- The operand as text. -/
def Operand.text : Operand → List Char
  | .numeral n => n.chars
  | .parens e => '(' :: (e.text ++ [')'])

/-- The expression as text. -/
def Expression.text : Expression → List Char
  | .mk first steps => first.text ++ steps.text

/-- The signed operands as text. -/
def Steps.text : Steps → List Char
  | .none => []
  | .more sign operand rest => sign.text.toList ++ operand.text ++ rest.text

end

mutual

/-- The number that the operand stands for. -/
def Operand.value : Operand → Int
  | .numeral n => numeralValue n
  | .parens e => e.value

/-- The value of the expression, under association to the left. -/
def Expression.value : Expression → Int
  | .mk first steps => total first.value steps.terms

/-- The signed numbers that the operands stand for. -/
def Steps.terms : Steps → List (Sign × Int)
  | .none => []
  | .more sign operand rest => (sign, operand.value) :: rest.terms

end

mutual

/-- All numbers in the operand are in range, and all totals. -/
def Operand.Fits : Operand → Prop
  | .numeral n => InRange (numeralValue n)
  | .parens e => e.Fits

/-- All numbers in the expression are in range, and all totals. -/
def Expression.Fits : Expression → Prop
  | .mk first steps => first.Fits ∧ steps.Fits ∧ TotalsFit first.value steps.terms

/-- All operands fit. -/
def Steps.Fits : Steps → Prop
  | .none => True
  | .more _ operand rest => operand.Fits ∧ rest.Fits

end

mutual

/-- The value of an operand that fits is in range. -/
theorem Operand.Fits.inRange_value : ∀ {t : Operand}, t.Fits → InRange t.value
  | .numeral n, h => by
    rw [Operand.Fits] at h
    rw [Operand.value]
    exact h
  | .parens e, h => by
    rw [Operand.Fits] at h
    rw [Operand.value]
    exact h.inRange_value

/-- The value of an expression that fits is in range. -/
theorem Expression.Fits.inRange_value : ∀ {e : Expression}, e.Fits → InRange e.value
  | .mk first steps, h => by
    rw [Expression.Fits] at h
    rw [Expression.value]
    exact h.2.2.inRange_total h.1.inRange_value

end

end TextGrammar.Arithmetic
