import TextGrammar.Proofs.Arithmetic.Reckoning

/-!
# The grammar of sums

The grammar of sums reckons: on the text of an expression it reports the value of the expression.

* `Arithmetic.grammar` — the grammar, for a parser of numbers and a function that adds them up
  (`expression`).
* `Arithmetic.yields_operand`, `Arithmetic.yields_expression`, `Arithmetic.rounds_steps` — what the
  grammar does in front of the text of an operand, an expression and signed operands, by induction on
  their trees.
* `Arithmetic.run_expression` — what it reports, with numbers as tokens and with numbers as nodes.
-/

namespace TextGrammar.Arithmetic

open NestedList (NoDigitAhead noDigitAhead_cons not_prefix_of_ne)

variable {ν : Type}

/-! ## The grammar -/

/-- A number, or what the handle stands for in parentheses. -/
def operand (numeral : Parser ν) (h : Handle) : Parser ν := numeral ||| .inParens (.handle h)

/-- A sign with an operand behind it. -/
def step (numeral : Parser ν) (h : Handle) : Parser ν := (.plus ||| .minus) &&& operand numeral h

/-- An operand with signed operands behind it, added up. -/
def body (numeral : Parser ν) (sum : Value ν → Value ν) (h : Handle) : Parser ν :=
  .map sum (operand numeral h &&& .zeroOrMore (step numeral h))

/-- The grammar of sums. -/
def grammar (numeral : Parser ν) (sum : Value ν → Value ν) (h : Handle) : Parser ν :=
  .recursive h (body numeral sum h)

section
variable (numeral : Parser ν) (sum : Value ν → Value ν) (h : Handle) (b : Nat) (scope : Scope ν)

theorem step_operand : (operand numeral h).step b scope =
    Step.or numeral.label (Parser.inParens (.handle h) : Parser ν).label (numeral.step b scope)
      (Step.between (Step.literal "(") (Step.literal ")") (scope h)) := by
  funext s
  rfl

theorem step_step : (step numeral h).step b scope =
    Step.and (Step.or (Parser.plus : Parser ν).label (Parser.minus : Parser ν).label
      (Step.literal "+") (Step.literal "-")) ((operand numeral h).step b scope) := by
  funext s
  rfl

theorem step_body : (body numeral sum h).step b scope =
    Step.map sum (Step.and ((operand numeral h).step b scope)
      (Step.many b 0 (step numeral h).label ((step numeral h).step b scope))) := by
  funext s
  rfl

end

/-! ## What comes behind -/

/-- An expression ends here: with the text, or with a closing parenthesis. -/
def Closing (ahead : List Char) : Prop := ahead = [] ∨ ∃ rest, ahead = ')' :: rest

theorem Closing.noDigitAhead {ahead : List Char} (h : Closing ahead) : NoDigitAhead ahead := by
  rcases h with rfl | ⟨rest, rfl⟩
  · exact nofun
  · exact noDigitAhead_cons (by decide)

theorem Closing.not_prefix {ahead : List Char} (h : Closing ahead) {c : Char} (hc : ')' ≠ c) :
    ¬ [c] <+: ahead := by
  rcases h with rfl | ⟨rest, rfl⟩
  · simp
  · exact not_prefix_of_ne hc

/-- No digit comes behind an operand. -/
theorem noDigitAhead_steps (steps : Steps) {ahead : List Char} (h : Closing ahead) :
    NoDigitAhead (steps.text ++ ahead) := by
  cases steps with
  | none => exact h.noDigitAhead
  | more sign operand rest =>
    rw [Steps.text]
    cases sign <;> exact noDigitAhead_cons (by decide)

/-! ## In front of an expression -/

theorem takes_sign (sign : Sign) (ahead : List Char) (left right : String) :
    (Step.or left right (Step.literal "+") (Step.literal "-") : Step ν).Takes sign.text.toList ahead
      (.token sign.text) .keep := by
  cases sign with
  | plus => exact (Step.takes_literal "+" ahead).or_left _ _ _
  | minus =>
    have hplus : ¬ "+".toList <+: "-".toList ++ ahead := not_prefix_of_ne (by decide)
    exact Step.Takes.or_right (Step.refuses_literal "+" hplus) (Step.takes_literal "-" ahead) _ _

section
variable (R : Reckoning ν) (h : Handle) (b : Nat) (outer : Scope ν)

/-- The grammar with so many unfoldings. -/
def unfolded (n : Nat) : Step ν :=
  Step.fix (fun self => (body R.numeral R.sum h).step b (outer.bind h self)) n

theorem step_grammar : (grammar R.numeral R.sum h).step b outer = unfolded R h b outer b := by
  funext s
  rfl

/-- What the handles stand for in the outermost of `n + 1` unfoldings. -/
def inner (n : Nat) : Scope ν := outer.bind h (unfolded R h b outer n)

theorem unfolded_succ (n : Nat) :
    unfolded R h b outer (n + 1) = (body R.numeral R.sum h).step b (inner R h b outer n) := rfl

/-- Signed operands end where an expression does. -/
theorem refuses_step {ahead : List Char} (hahead : Closing ahead) (scope : Scope ν) :
    ∃ f, Step.Refuses ((step R.numeral h).step b scope) ahead f 0 := by
  have hplus : ¬ "+".toList <+: ahead := hahead.not_prefix (by decide)
  have hminus : ¬ "-".toList <+: ahead := hahead.not_prefix (by decide)
  rw [step_step]
  exact ⟨_, ((Step.refuses_literal "+" hplus).or (Step.refuses_literal "-" hminus) _ _).and _⟩

mutual

/-- **In front of an operand, a number or an expression in parentheses is taken.** -/
theorem yields_operand : ∀ {t : Operand}, t.Fits → ∀ (n : Nat) {ahead : List Char},
    t.text.length ≤ n → t.text.length < b → NoDigitAhead ahead →
      Step.Yields ((operand R.numeral h).step b (inner R h b outer n)) t.text ahead
        (R.Stands · t.value) .keep
  | .numeral m, hfit, n, ahead, _, _, hahead => by
    rw [Operand.Fits] at hfit
    rw [Operand.text, Operand.value, step_operand]
    exact (R.yields_numeral m ahead b _ hfit hahead).or_left _ _ _
  | .parens e, hfit, n, ahead, hn, hb, _ => by
    rw [Operand.Fits] at hfit
    rw [Operand.text, List.length_cons, List.length_append] at hn hb
    obtain ⟨n, rfl⟩ := Nat.exists_eq_add_of_le' (show 1 ≤ n by omega)
    have hclosing : Closing ([')'] ++ ahead) := .inr ⟨ahead, rfl⟩
    have hinner := yields_expression hfit n (by omega) (by omega) hclosing
    obtain ⟨f, hnumeral⟩ := R.refuses_numeral ('(' :: (e.text ++ [')']) ++ ahead) b
      (inner R h b outer (n + 1)) (noDigitAhead_cons (by decide))
    rw [Operand.text, Operand.value, step_operand,
      show inner R h b outer (n + 1) h = unfolded R h b outer (n + 1) from Scope.bind_self _ _ _]
    exact Step.Yields.or_right hnumeral (Step.Yields.between (Step.takes_literal "(" _) hinner
      (Step.takes_literal ")" ahead) fun v line => R.stands_of_isTotal v _ line hfit.inRange_value)
      _ _

/-- **In front of an expression, all of it is taken**, and the result is its value. -/
theorem yields_expression : ∀ {e : Expression}, e.Fits → ∀ (n : Nat) {ahead : List Char},
    e.text.length ≤ n → e.text.length < b → Closing ahead →
      (unfolded R h b outer (n + 1)).Yields e.text ahead (R.IsTotal · e.value) .keep
  | .mk first steps, hfit, n, ahead, hn, hb, hahead => by
    rw [Expression.Fits] at hfit
    rw [Expression.text, List.length_append] at hn hb
    have hfirst := yields_operand hfit.1 n (by omega) (by omega) (noDigitAhead_steps steps hahead)
    have hsteps := (rounds_steps hfit.2.1 n (by omega) (by omega) hahead).yields
      (show steps.text.length < b by omega) (Nat.zero_le _) (step R.numeral h).label
    rw [Expression.text, Expression.value, unfolded_succ, step_body]
    refine (hfirst.and hsteps).map ?_
    rintro _ line ⟨v, _, hv, ⟨items, rfl, hitems⟩, rfl⟩
    rw [List.forall₂_map_right_iff] at hitems
    exact R.isTotal_sum v first.value items steps.terms line hv hitems.flip hfit.2.2

/-- **Signed operands are taken in rounds.** -/
theorem rounds_steps : ∀ {steps : Steps}, steps.Fits → ∀ (n : Nat) {ahead : List Char},
    steps.text.length ≤ n → steps.text.length < b → Closing ahead →
      Step.Rounds ((step R.numeral h).step b (inner R h b outer n)) steps.text ahead
        (steps.terms.map (IsTerm R.Stands))
  | .none, _, n, ahead, _, _, hahead => by
    obtain ⟨f, hstop⟩ := refuses_step R h b hahead (inner R h b outer n)
    rw [Steps.text, Steps.terms]
    exact .stop hstop
  | .more sign operand rest, hfit, n, ahead, hn, hb, hahead => by
    rw [Steps.Fits] at hfit
    rw [Steps.text, List.length_append, List.length_append] at hn hb
    have hoperand := yields_operand hfit.1 n (by omega) (by omega) (noDigitAhead_steps rest hahead)
    have hrest := rounds_steps hfit.2 n (by omega) (by omega) hahead
    rw [Steps.text, Steps.terms, List.map_cons]
    refine .next ?_ (d := .splice) nofun ?_ hrest
    · rw [step_step]
      refine ((Step.takes_iff_yields.1 (takes_sign sign _ _ _)).and hoperand).imp ?_
      rintro _ ⟨_, w, rfl, hw, rfl⟩
      exact ⟨w, hw, rfl⟩
    · cases sign <;> simp [Sign.text]

end

end

/-! ## Whole inputs -/

/-- **On the text of an expression, the grammar reports its value.** -/
theorem Reckoning.run_text (R : Reckoning ν) (h : Handle) {e : Expression} (he : e.Fits)
    {input : Input} (hinput : input.chars = e.text) :
    ∃ v, (grammar R.numeral R.sum h).run input = some (.ok ⟨v, input.size⟩) ∧
      R.IsTotal v e.value := by
  have hlength := Parser.length_lt_budgetFor input
  rw [hinput] at hlength
  obtain ⟨n, hn⟩ := Nat.exists_eq_add_of_le' (Nat.lt_of_le_of_lt (Nat.zero_le _) hlength)
  have hyields := yields_expression R h (Parser.budgetFor input.size) Scope.none he n (by omega)
    hlength (.inl rfl)
  rw [← hn, ← step_grammar] at hyields
  rw [input.size_eq, hinput]
  exact Parser.run_of_yields (hinput.trans (List.append_nil _).symm) hyields

/-- **The grammar of sums reckons.**  If no number in an expression and no total on the way leaves
the range of 64 bits with a sign, then on the text of the expression the grammar succeeds at the end
of the text with the value of the expression, which is added up from left to right: as a decimal
token if numbers are tokens, and as a node if numbers are nodes of 64 bits with a sign. -/
theorem run_expression {E : Regex.Engine} (hE : E.Everyday) (h : Handle) {e : Expression}
    (he : e.Fits) {input : Input} (hinput : input.chars = e.text) :
    (grammar (.digits hE) Change.sum.apply h).run input =
        some (.ok ⟨.token (toString e.value), input.size⟩) ∧
      ∃ (n : Int64) (line : Option Nat), n.toInt = e.value ∧
        (grammar (.map numberNode (.digits hE)) sumNodes h).run input =
          some (.ok ⟨.node n line, input.size⟩) := by
  obtain ⟨v, hrun, hv⟩ := (Reckoning.tokens hE).run_text h he hinput
  obtain ⟨v', hrun', n, line, hv', hn⟩ := (Reckoning.nodes hE).run_text h he hinput
  rw [hv] at hrun
  rw [hv'] at hrun'
  exact ⟨hrun, n, line, hn, hrun'⟩

open Regex.Engine (everyday_builtIn)

/-- A negative total in parentheses is added, and a number may begin with zeros. -/
theorem run_expression_of_parens :
    (grammar (.digits everyday_builtIn) Change.sum.apply 0).run (.ofString "1+(2-07)-4") =
        some (.ok ⟨.token "-8", 10⟩) ∧
      ∃ (n : Int64) (line : Option Nat), n.toInt = -8 ∧
        (grammar (.map numberNode (.digits everyday_builtIn)) sumNodes 0).run
            (.ofString "1+(2-07)-4") = some (.ok ⟨.node n line, 10⟩) := by
  let numeral (w : List Char) (hne : w ≠ []) (hw : w.all Char.isDigit = true) : Operand :=
    .numeral ⟨w, hne, List.all_eq_true.1 hw⟩
  let inner : Expression := .mk (numeral ['2'] (List.cons_ne_nil _ _) rfl)
    (.more .minus (numeral ['0', '7'] (List.cons_ne_nil _ _) rfl) .none)
  let e : Expression := .mk (numeral ['1'] (List.cons_ne_nil _ _) rfl)
    (.more .plus (.parens inner) (.more .minus (numeral ['4'] (List.cons_ne_nil _ _) rfl) .none))
  have hfits : e.Fits := by
    simp only [e, inner, numeral, Expression.Fits, Operand.Fits, Steps.Fits, TotalsFit, Steps.terms,
      Operand.value, Expression.value]
    decide
  have hchars : (Input.ofString "1+(2-07)-4").chars = e.text := rfl
  exact run_expression everyday_builtIn 0 hfits hchars

end TextGrammar.Arithmetic
