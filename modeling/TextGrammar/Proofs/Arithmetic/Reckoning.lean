import TextGrammar.Element
import TextGrammar.Proofs.NestedList
import TextGrammar.Proofs.Step.Yields
import TextGrammar.Proofs.Arithmetic.Expression

/-!
# Reckoning with results

A grammar for sums needs a parser for numbers and a function that adds up a first number and the
signed numbers behind it, as they are listed by `and` and `many`.

* `Arithmetic.Reckoning` — such a parser and such a function, with what has to be known of them: which
  results stand for which numbers.
* `Arithmetic.Reckoning.tokens` — numbers are tokens, and so are totals.
* `Arithmetic.Reckoning.nodes` — numbers are nodes, put on the line on which they were read (`number`,
  `sum`).
-/

namespace TextGrammar.Arithmetic

open NestedList (Numeral NoDigitAhead takes_pattern_digits refuses_pattern_digits)

/-- The result for a signed number, as `and` lists it. -/
def IsTerm {ν : Type} (Stands : Value ν → Int → Prop) (term : Sign × Int) (v : Value ν) : Prop :=
  ∃ w, Stands w term.2 ∧ v = .list [.token term.1.text, w]

/-- A parser for numbers and a function that adds them up. -/
structure Reckoning (ν : Type) where
  numeral : Parser ν
  sum : Value ν → Value ν
  /-- Whether a result stands for a number. -/
  Stands : Value ν → Int → Prop
  /-- Whether a result is what the function makes of a total. -/
  IsTotal : Value ν → Int → Prop
  yields_numeral : ∀ (n : Numeral) (ahead : List Char) (b : Nat) (scope : Scope ν),
    InRange (numeralValue n) → NoDigitAhead ahead →
      Step.Yields (numeral.step b scope) n.chars ahead (Stands · (numeralValue n)) .keep
  refuses_numeral : ∀ (ahead : List Char) (b : Nat) (scope : Scope ν), NoDigitAhead ahead →
    ∃ f, Step.Refuses (numeral.step b scope) ahead f 0
  isTotal_sum : ∀ (v : Value ν) (first : Int) (items : List (Value ν))
    (terms : List (Sign × Int)) (line : Nat), Stands v first →
    List.Forall₂ (IsTerm Stands) terms items → TotalsFit first terms →
      IsTotal ((sum (.list [v, .list items])).onLine line) (total first terms)
  stands_of_isTotal : ∀ (v : Value ν) (n : Int) (line : Nat), InRange n → IsTotal v n →
    Stands (v.onLine line) n

/-! ## Decimal text -/

theorem ne_minus_of_isDigit {c : Char} (h : c.isDigit = true) : c ≠ '-' := by
  rintro rfl
  exact absurd h (by decide)

theorem ne_plus_of_isDigit {c : Char} (h : c.isDigit = true) : c ≠ '+' := by
  rintro rfl
  exact absurd h (by decide)

/-- Digits without a sign are a number. -/
theorem signedDecimal?_digits {minus : Bool} {w : List Char} (hne : w ≠ [])
    (hw : ∀ c ∈ w, c.isDigit = true) : signedDecimal? minus w = some (Nat.ofDigitChars 10 w 0) := by
  cases w with
  | nil => exact absurd rfl hne
  | cons c cs =>
    have hc := hw c List.mem_cons_self
    have hall : (c :: cs).all Char.isDigit = true := List.all_eq_true.2 hw
    simp [signedDecimal?, ne_minus_of_isDigit hc, ne_plus_of_isDigit hc, hall, Nat.ofDigitChars]

/-- A minus before digits is a number too. -/
theorem signedDecimal?_minus {w : List Char} (hne : w ≠ []) (hw : ∀ c ∈ w, c.isDigit = true) :
    signedDecimal? true ('-' :: w) = some (-(Nat.ofDigitChars 10 w 0 : Int)) := by
  have hall : w.all Char.isDigit = true := List.all_eq_true.2 hw
  simp [signedDecimal?, hne, hall, Nat.ofDigitChars]

/-- A token of digits is the number that they write down. -/
theorem integer_numeral {n : Numeral} (h : InRange (numeralValue n)) :
    (Value.token (String.ofList n.chars)).integer = numeralValue n := by
  have hread : signedDecimal? true (String.ofList n.chars).toList = some (numeralValue n) := by
    rw [String.toList_ofList]
    exact signedDecimal?_digits n.chars_ne_nil n.isDigit
  simp only [Value.integer, Value.asToken?, Option.getD_some, hread]
  exact if_pos h

/-- The decimal text of a number is read back as that number. -/
theorem signedDecimal?_toString (n : Int) : signedDecimal? true (toString n).toList = some n := by
  have hdigits : ∀ k : Nat, ∀ c ∈ Nat.toDigits 10 k, c.isDigit = true := fun k c hc =>
    Nat.isDigit_of_mem_toDigits (by decide) (by decide) hc
  cases n with
  | ofNat k =>
    have htext : (toString (Int.ofNat k)).toList = Nat.toDigits 10 k := Nat.toList_repr
    rw [htext, signedDecimal?_digits Nat.toDigits_ne_nil (hdigits k), Nat.ofDigitChars_ten_toDigits]
    rfl
  | negSucc k =>
    have htext : (toString (Int.negSucc k)).toList = '-' :: Nat.toDigits 10 (k + 1) := by
      rw [Int.toString_eq_repr, Int.repr, String.toList_append, Nat.toList_repr]
      rfl
    rw [htext, signedDecimal?_minus Nat.toDigits_ne_nil (hdigits (k + 1)),
      Nat.ofDigitChars_ten_toDigits]
    rfl

/-- A token that shows a number in range is that number. -/
theorem integer_toString {n : Int} (h : InRange n) :
    (Value.token (toString n)).integer = n := by
  simp only [Value.integer, Value.asToken?, Option.getD_some, signedDecimal?_toString]
  exact if_pos h

/-! ## Tokens -/

variable {E : Regex.Engine} (hE : E.Everyday)

/-- The pattern for digits takes a number whole. -/
theorem takes_numeral {ν : Type} (n : Numeral) {ahead : List Char} (h : NoDigitAhead ahead) :
    (Step.pattern (.digits hE) : Step ν).Takes n.chars ahead (.token (String.ofList n.chars)) .keep :=
  takes_pattern_digits hE n.chars_ne_nil n.isDigit h

/-- Numbers in range are numbers of 64 bits. -/
theorem InRange.bmod_eq {n : Int} (h : InRange n) : Int.bmod n 0x10000000000000000 = n := by
  unfold InRange at h
  rw [Int.bmod_def]
  omega

/-- In range, numbers of 64 bits are added as integers. -/
theorem add_eq {a b : Int} (h : InRange (a + b)) : Change.add a b = a + b := h.bmod_eq

theorem signed_term {sign : Sign} {w : Value Element} :
    Change.signed (.list [.token sign.text, w]) = sign.apply 0 w.integer := by
  cases sign <;> simp [Change.signed, Sign.text, Sign.apply, Value.asList?, Value.asToken?]

theorem foldl_signed {terms : List (Sign × Int)} {items : List (Value Element)}
    (hitems : List.Forall₂ (IsTerm fun v n => v.integer = n) terms items) {first : Int}
    (hfit : TotalsFit first terms) :
    (items.map Change.signed).foldl Change.add first = total first terms := by
  induction hitems generalizing first with
  | nil => rfl
  | @cons term v terms items hterm _ ih =>
    obtain ⟨w, hw, rfl⟩ := hterm
    have hstep : Change.add first (term.1.apply 0 w.integer) = term.1.apply first term.2 := by
      have hadd : first + term.1.apply 0 w.integer = term.1.apply first term.2 := by
        rw [hw]
        cases term.1 <;> simp only [Sign.apply] <;> omega
      rw [add_eq (hadd ▸ hfit.1), hadd]
    rw [List.map_cons, List.foldl_cons, signed_term, hstep]
    exact ih hfit.2

/-- Numbers are tokens: as they are written, or in decimal for a total. -/
def Reckoning.tokens : Reckoning Element where
  numeral := .digits hE
  sum := Change.sum.apply
  Stands v n := v.integer = n
  IsTotal v n := v = .token (toString n)
  yields_numeral n _ _ _ hrange h := (takes_numeral hE n h).yields (integer_numeral hrange)
  refuses_numeral _ _ _ h := ⟨_, refuses_pattern_digits hE h⟩
  isTotal_sum v first items terms line hv hitems hfit := by
    have hsum : (items.map Change.signed).foldl Change.add v.integer = total first terms := by
      rw [hv]
      exact foldl_signed hitems hfit
    rw [← hsum]
    rfl
  stands_of_isTotal v n line hrange h := by
    rw [h]
    exact integer_toString hrange

/-! ## Nodes -/

/-- The number that a token of digits writes down, as a node on no line yet. -/
def numberNode (v : Value Int64) : Value Int64 :=
  .ofNode (.ofInt (Value.integer (.token (v.asToken?.getD ""))))

/-- The next total: a node behind a minus is taken away, and behind anything else it is added. -/
def nextTotal (total : Int64) : Value Int64 → Int64
  | .list [.token op, .node n _] => if op = "-" then total - n else total + n
  | .list [_, .node n _] => total + n
  | _ => total

/-- The total of a first node and of signed nodes behind it, as a node on no line yet. -/
def sumNodes (v : Value Int64) : Value Int64 :=
  let items := v.asList?.getD []
  let first := ((items.getD 0 .absent).asNode?).getD 0
  .ofNode ((((items.getD 1 .absent).asList?).getD []).foldl nextTotal first)

/-- The result is a node for the number, on some line or on none. -/
def IsNode (v : Value Int64) (n : Int) : Prop := ∃ m line, v = .node m line ∧ m.toInt = n

/-- In range, the next total is the one of integers. -/
theorem toInt_nextTotal {sign : Sign} {total n : Int64} (line : Option Nat)
    (h : InRange (sign.apply total.toInt n.toInt)) :
    (nextTotal total (.list [.token sign.text, .node n line])).toInt =
      sign.apply total.toInt n.toInt := by
  cases sign with
  | plus => exact (Int64.toInt_add total n).trans h.bmod_eq
  | minus => exact (Int64.toInt_sub total n).trans h.bmod_eq

theorem foldl_nextTotal {terms : List (Sign × Int)} {items : List (Value Int64)}
    (hitems : List.Forall₂ (IsTerm IsNode) terms items) {first : Int64}
    (hfit : TotalsFit first.toInt terms) :
    (items.foldl nextTotal first).toInt = total first.toInt terms := by
  induction hitems generalizing first with
  | nil => rfl
  | @cons term v terms items hterm _ ih =>
    obtain ⟨w, ⟨n, line, rfl, hn⟩, rfl⟩ := hterm
    rw [TotalsFit, ← hn] at hfit
    have hstep := toInt_nextTotal line hfit.1
    rw [List.foldl_cons, ih (hstep ▸ hfit.2), hstep, hn]
    rfl

/-- Numbers are nodes, and so are totals. -/
def Reckoning.nodes : Reckoning Int64 where
  numeral := .map numberNode (.digits hE)
  sum := sumNodes
  Stands := IsNode
  IsTotal := IsNode
  yields_numeral n ahead b scope hrange h := by
    have hnode : numberNode (.token (String.ofList n.chars)) =
        .node (.ofInt (numeralValue n)) none := by
      rw [← integer_numeral hrange]
      rfl
    refine Step.Yields.map (Step.takes_iff_yields.1 (takes_numeral hE n h)) ?_
    rintro _ line rfl
    rw [hnode]
    exact ⟨_, some line, rfl, Int64.toInt_ofInt.trans hrange.bmod_eq⟩
  refuses_numeral _ _ _ h := ⟨_, (refuses_pattern_digits hE h).map numberNode⟩
  isTotal_sum v first items terms line hv hitems hfit := by
    obtain ⟨n, line', rfl, rfl⟩ := hv
    exact ⟨_, some line, rfl, foldl_nextTotal hitems hfit⟩
  stands_of_isTotal v n line _ h := by
    obtain ⟨m, line', rfl, hm⟩ := h
    cases line' with
    | none => exact ⟨m, some line, rfl, hm⟩
    | some line' => exact ⟨m, some line', rfl, hm⟩

end TextGrammar.Arithmetic
