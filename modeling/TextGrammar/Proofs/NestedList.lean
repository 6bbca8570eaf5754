import TextGrammar.Proofs.Step.Takes
import TextGrammar.Proofs.Regex.Run
import TextGrammar.Proofs.NestedList.Language

/-!
# The grammar of nested lists

The grammar `recursive h (digits ||| inBrackets (handle h / ","))` reads the language of nested lists.

* `NestedList.round` — one unfolding of the grammar, and what it takes and refuses.
* `NestedList.decides` — in front of every text the grammar ends: it takes a word, or there is none.
* `NestedList.takes_word` — in front of every word the grammar takes that word, whatever comes
  behind, unless more digits do.
* `NestedList.run_grammar` — on every input the grammar reports the longest beginning that is a word,
  and fails at the start if there is none.
-/

namespace TextGrammar.NestedList

variable {ν : Type} {E : Regex.Engine} (hE : E.Everyday)

/-- The grammar of nested lists. -/
def grammar (h : Handle) : Parser ν :=
  .recursive h (.digits hE ||| .inBrackets (.handle h / .literal ","))

/-- One unfolding of the grammar: a run of digits, or brackets around what `self` stands for. -/
def round (h : Handle) (budget : Nat) (self : Step ν) : Step ν :=
  Step.or (Parser.digits hE : Parser ν).label
    (Parser.inBrackets (.handle h / .literal ",") : Parser ν).label (Step.pattern (.digits hE))
    (Step.between (Step.literal "[") (Step.literal "]")
      (Step.separated budget 0 (Parser.handle h : Parser ν).label
        (Parser.literal "," : Parser ν).label self (Step.literal ",")))

/-- What the grammar says when it fails. -/
def refusal (ν : Type) (h : Handle) : Failure :=
  .neither (Parser.digits hE : Parser ν).label
    (Parser.inBrackets (.handle h / .literal ",") : Parser ν).label

theorem step_grammar (h : Handle) (budget : Nat) (scope : Scope ν) :
    (grammar hE h).step budget scope = Step.fix (round hE h budget) budget := by
  have hbody : ∀ self : Step ν, Parser.step budget (scope.bind h self)
      (.digits hE ||| .inBrackets (.handle h / .literal ",")) = round hE h budget self := by
    intro self
    rw [show round hE h budget self = round hE h budget (scope.bind h self h) by
      rw [Scope.bind_self]]
    rfl
  funext s
  show Step.fix (fun self => Parser.step budget (scope.bind h self)
    (.digits hE ||| .inBrackets (.handle h / .literal ","))) budget s = _
  simp only [hbody]

/-! ## One unfolding -/

/-- No digit comes next. -/
def NoDigitAhead (ahead : List Char) : Prop := ∀ c rest, ahead = c :: rest → c.isDigit = false

theorem noDigitAhead_cons {c : Char} {rest : List Char} (h : c.isDigit = false) :
    NoDigitAhead (c :: rest) :=
  Text.noneAhead_cons h rest

theorem noDigitAhead_dropWhile (text : List Char) : NoDigitAhead (text.dropWhile Char.isDigit) :=
  Text.noneAhead_dropWhile Char.isDigit text

theorem not_prefix_of_ne {c d : Char} {rest : List Char} (h : c ≠ d) : ¬ [d] <+: c :: rest := by
  rintro ⟨rest', hrest⟩
  exact h (List.cons.inj hrest).1.symm

section
variable {w ahead : List Char}

/-- Digits are taken up to the last one. -/
theorem takes_pattern_digits (hne : w ≠ []) (hw : ∀ c ∈ w, c.isDigit = true)
    (hahead : NoDigitAhead ahead) :
    (Step.pattern (.digits hE) : Step ν).Takes w ahead (.token (String.ofList w)) .keep :=
  Step.takes_pattern (Pattern.findsBy_digits hE) (Text.takeWhile_append_of_noneAhead hw hahead) hne

/-- Without a digit ahead, the pattern for digits finds nothing. -/
theorem refuses_pattern_digits (hahead : NoDigitAhead ahead) :
    (Step.pattern (.digits hE) : Step ν).Refuses ahead
      (.pattern (Pattern.digits hE).source ahead) 0 :=
  Step.refuses_pattern (Pattern.findsBy_digits hE) (Text.takeWhile_of_noneAhead hahead)

end

section
variable (h : Handle) (budget : Nat) {self : Step ν} {w ahead : List Char} {items : List (Value ν)}
  {count : Nat}

theorem takes_digits (hne : w ≠ []) (hw : ∀ c ∈ w, c.isDigit = true)
    (hahead : NoDigitAhead ahead) (self : Step ν) :
    (round hE h budget self).Takes w ahead (.token (String.ofList w)) .keep :=
  (takes_pattern_digits hE hne hw hahead).or_left _ _ _

/-- Closed brackets are taken with all that the rounds between them take. -/
theorem takes_brackets
    (hitems : Step.Alternates self (Step.literal ",") count w (']' :: ahead) items)
    (hw : w.length < budget) :
    (round hE h budget self).Takes ('[' :: (w ++ [']'])) ahead (.list items) .keep := by
  have hdigits : (Step.pattern (.digits hE) : Step ν).Refuses ('[' :: (w ++ [']']) ++ ahead) _ 0 :=
    refuses_pattern_digits hE (noDigitAhead_cons (by decide))
  exact Step.Takes.or_right hdigits
    ((Step.takes_literal "[" _).between (hitems.takes hw (Nat.zero_le count) _ _)
      (Step.takes_literal "]" ahead) fun _ => rfl) _ _

/-- Brackets that are not closed are refused. -/
theorem refuses_brackets
    (hitems : Step.Alternates self (Step.literal ",") count w ahead items)
    (hw : w.length < budget) (hahead : ¬ [']'] <+: ahead) :
    (round hE h budget self).Refuses ('[' :: (w ++ ahead)) (refusal hE ν h) 0 := by
  have hdigits : (Step.pattern (.digits hE) : Step ν).Refuses ('[' :: (w ++ ahead)) _ 0 :=
    refuses_pattern_digits hE (noDigitAhead_cons (by decide))
  exact hdigits.or ((Step.takes_literal "[" _).refuses_between
    (hitems.takes hw (Nat.zero_le count) _ _) (Step.refuses_literal "]" hahead)) _ _

/-- Without a digit ahead, only brackets can be taken. -/
theorem refuses_other (hahead : NoDigitAhead ahead) (hopen : ¬ ['['] <+: ahead) (self : Step ν) :
    (round hE h budget self).Refuses ahead (refusal hE ν h) 0 :=
  (refuses_pattern_digits hE hahead).or ((Step.refuses_literal "[" hopen).between _ _) _ _

end

/-! ## In front of any text -/

section
variable (h : Handle) (budget : Nat)

/-- In front of the text, the step takes a word, or it refuses the text. -/
def Decides (p : Step ν) (text : List Char) : Prop :=
  (∃ w ahead v, text = w ++ ahead ∧ Word w v ∧ p.Takes w ahead v .keep) ∨
    p.Refuses text (refusal hE ν h) 0

/-- Rounds between brackets end in front of any text, and take what may stand there. -/
theorem exists_alternates {self : Step ν} {n : Nat}
    (hself : ∀ text : List Char, text.length ≤ n → Decides hE h self text) (text : List Char)
    (hn : text.length ≤ n) :
    ∃ count w ahead items, text = w ++ ahead ∧ Members w items ∧
      Step.Alternates self (Step.literal ",") count w ahead items := by
  induction hlength : text.length using Nat.strongRecOn generalizing text with
  | ind k ih =>
    rcases hself text hn with ⟨w, ahead, v, rfl, hword, htakes⟩ | hrefuses
    · by_cases hcomma : [','] <+: ahead
      · obtain ⟨rest, rfl⟩ := hcomma
        have hlt : rest.length < k := by
          rw [← hlength]
          simp only [List.length_append, List.length_cons]
          omega
        obtain ⟨count, w', ahead', items, rfl, hmembers, halternates⟩ :=
          ih rest.length hlt rest (by omega) rfl
        refine ⟨count + 1, w ++ ',' :: w', ahead', v :: items, ?_, .more hword hmembers, ?_⟩
        · simp
        · have hnext := Step.Alternates.next htakes (Step.takes_literal "," _) (by simp) halternates
          rwa [List.append_assoc] at hnext
      · exact ⟨1, w, ahead, [v], rfl, .last hword, .last htakes (Step.refuses_literal "," hcomma)⟩
    · exact ⟨0, [], text, [], rfl, .none, .stop hrefuses⟩

/-- **In front of every text the grammar ends:** it takes a word, or refuses the text. -/
theorem decides {n : Nat} (text : List Char) (hn : text.length < n) (hb : text.length < budget) :
    Decides hE h (Step.fix (round hE h budget : Step ν → Step ν) n) text := by
  induction n generalizing text with
  | zero => exact absurd hn (Nat.not_lt_zero _)
  | succ n ih =>
    have hsplit := List.takeWhile_append_dropWhile (p := Char.isDigit) (l := text)
    have hahead := noDigitAhead_dropWhile text
    by_cases hdigits : text.takeWhile Char.isDigit = []
    · rw [hdigits, List.nil_append] at hsplit
      rw [hsplit] at hahead
      by_cases hopen : ['['] <+: text
      · obtain ⟨inner, rfl⟩ := hopen
        rw [List.length_append, List.length_singleton] at hn hb
        have hself : ∀ text : List Char, text.length ≤ inner.length →
            Decides hE h (Step.fix (round hE h budget : Step ν → Step ν) n) text :=
          fun text ht => ih text (by omega) (by omega)
        obtain ⟨count, w, ahead, items, rfl, hmembers, halternates⟩ :=
          exists_alternates hE h hself inner (Nat.le_refl _)
        rw [List.length_append] at hb
        by_cases hclose : [']'] <+: ahead
        · obtain ⟨rest, rfl⟩ := hclose
          exact .inl ⟨'[' :: (w ++ [']']), rest, .list items, by simp, .brackets hmembers,
            takes_brackets hE h budget halternates (by omega)⟩
        · have hrefuses := refuses_brackets hE h budget halternates (by omega) hclose
          exact .inr hrefuses
      · exact .inr (refuses_other hE h budget hahead hopen _)
    · have hw : ∀ c ∈ text.takeWhile Char.isDigit, c.isDigit = true :=
        List.all_eq_true.1 List.all_takeWhile
      exact .inl ⟨_, _, _, hsplit.symm, .digits hdigits hw,
        takes_digits hE h budget hdigits hw hahead _⟩

end

/-! ## In front of a word -/

/-- A word of digits ends where no digit comes next; a word in brackets ends anywhere. -/
def EndsAt (w ahead : List Char) : Prop := w.head? = some '[' ∨ NoDigitAhead ahead

theorem EndsAt.noDigitAhead {w ahead : List Char} (hend : EndsAt w ahead)
    (hw : ∀ c ∈ w, c.isDigit = true) : NoDigitAhead ahead := by
  rcases hend with hhead | hahead
  · have hbracket : '['.isDigit = true := hw '[' (List.mem_of_mem_head? hhead)
    exact absurd hbracket (by decide)
  · exact hahead

section
variable (h : Handle) (budget : Nat)

mutual

/-- **In front of a word the grammar takes that word**, and produces what it stands for. -/
theorem takes_word : ∀ {w : List Char} {v : Value ν}, Word w v → ∀ (n : Nat) (ahead : List Char),
    w.length ≤ n → w.length < budget → EndsAt w ahead →
      (Step.fix (round hE h budget) (n + 1)).Takes w ahead v .keep
  | _, _, .digits hne hw, _, _, _, _, hend =>
    takes_digits hE h budget hne hw (hend.noDigitAhead hw) _
  | _, _, .brackets _, 0, _, hn, _, _ => absurd hn (Nat.not_succ_le_zero _)
  | _, _, .brackets hmembers, n + 1, ahead, hn, hb, _ => by
    rw [List.length_cons, List.length_append] at hn hb
    obtain ⟨count, halternates⟩ := alternates_members hmembers n ahead (by omega) (by omega)
    exact takes_brackets hE h budget halternates (by omega)

/-- Between brackets, the rounds take what stands there. -/
theorem alternates_members : ∀ {w : List Char} {items : List (Value ν)}, Members w items →
    ∀ (n : Nat) (ahead : List Char), w.length ≤ n → w.length < budget →
      ∃ count, Step.Alternates (Step.fix (round hE h budget) (n + 1)) (Step.literal ",") count w
        (']' :: ahead) items
  | _, _, .none, n, ahead, _, _ => by
    have hahead : NoDigitAhead (']' :: ahead) := noDigitAhead_cons (by decide)
    have hopen : ¬ ['['] <+: ']' :: ahead := not_prefix_of_ne (by decide)
    exact ⟨0, .stop (refuses_other hE h budget hahead hopen (Step.fix (round hE h budget) n))⟩
  | _, _, .last hword, n, ahead, hn, hb => by
    have htakes := takes_word hword n (']' :: ahead) hn hb (.inr (noDigitAhead_cons (by decide)))
    exact ⟨1, .last htakes (Step.refuses_literal "," (not_prefix_of_ne (by decide)))⟩
  | _, _, @Members.more _ _ rest _ _ hword hrest, n, ahead, hn, hb => by
    rw [List.length_append, List.length_cons] at hn hb
    obtain ⟨count, halternates⟩ := alternates_members hrest n ahead (by omega) (by omega)
    have hcomma : NoDigitAhead ([','] ++ (rest ++ ']' :: ahead)) := noDigitAhead_cons (by decide)
    have htakes := takes_word hword n _ (by omega) (by omega) (.inr hcomma)
    have hnext := Step.Alternates.next htakes (Step.takes_literal "," _) (by simp) halternates
    rw [List.append_assoc] at hnext
    exact ⟨count + 1, hnext⟩

end

end

/-! ## Whole inputs -/

/-- Where some beginning of a text is a word, there is a longest one. -/
theorem exists_longestWord {text w : List Char} {v : Value ν} (hword : Word w v)
    (hbeginning : w <+: text) : ∃ w', ∃ v' : Value ν, LongestWord text w' v' := by
  induction hk : text.length - w.length using Nat.strongRecOn generalizing w v with
  | ind k ih =>
    by_cases hlonger : ∃ w', ∃ v' : Value ν, Word w' v' ∧ w' <+: text ∧ w.length < w'.length
    · obtain ⟨w', v', hword', hbeginning', hlt⟩ := hlonger
      have hle := hbeginning'.length_le
      exact ih (text.length - w'.length) (by omega) hword' hbeginning' rfl
    · refine ⟨w, v, hword, hbeginning, fun w' v' hword' hbeginning' => ?_⟩
      exact Nat.not_lt.1 fun hlt => hlonger ⟨w', v', hword', hbeginning', hlt⟩

/-- No digit goes on with a longest word. -/
theorem LongestWord.endsAt {w ahead : List Char} {v : Value ν}
    (hw : LongestWord (w ++ ahead) w v) : EndsAt w ahead := by
  cases hw.word with
  | digits hne hdigits =>
    refine .inr fun c rest hahead => ?_
    cases hc : c.isDigit with
    | false => rfl
    | true =>
      have hlonger : ∀ d ∈ w ++ [c], d.isDigit = true := by
        intro d hd
        rcases List.mem_append.1 hd with hd | hd
        · exact hdigits d hd
        · rwa [List.mem_singleton.1 hd]
      have hbeginning : w ++ [c] <+: w ++ ahead := ⟨rest, by rw [hahead, List.append_assoc]; rfl⟩
      have hle := hw.longest (w ++ [c]) _ (.digits (by simp) hlonger) hbeginning
      rw [List.length_append, List.length_singleton] at hle
      omega
  | brackets h => exact .inl rfl

variable (h : Handle) (input : Input)

/-- The longest word is what the grammar reports. -/
theorem run_longestWord {w : List Char} {v : Value ν} (hw : LongestWord input.chars w v) :
    (grammar hE h).run input = some (.ok ⟨v, Text.byteLength w⟩) := by
  obtain ⟨ahead, hahead⟩ := hw.beginning
  have hlength := Parser.length_lt_budgetFor input
  rw [← hahead, List.length_append] at hlength
  rw [← hahead] at hw
  obtain ⟨n, hn⟩ := Nat.exists_eq_add_of_le' (Nat.lt_of_le_of_lt (Nat.zero_le _) hlength)
  refine Parser.run_of_takes hahead.symm (d := .keep) ?_
  rw [step_grammar]
  have htakes := takes_word hE h (Parser.budgetFor input.size) hw.word n ahead (by omega) (by omega)
    hw.endsAt
  rwa [← hn] at htakes

/-- Where no beginning is a word, the grammar fails at the start. -/
theorem run_of_not_word (hnone : ¬ ∃ w, ∃ v : Value ν, Word w v ∧ w <+: input.chars) :
    ∃ message line, (grammar hE h : Parser ν).run input =
      some (.error ⟨.alternativesExhausted, message, 0, line⟩) := by
  have hlength := Parser.length_lt_budgetFor input
  rcases decides hE h (ν := ν) (Parser.budgetFor input.size) input.chars hlength hlength with
    ⟨w, ahead, v, hsplit, hword, _⟩ | hrefuses
  · exact absurd ⟨w, v, hword, ahead, hsplit.symm⟩ hnone
  · rw [← step_grammar hE h _ Scope.none] at hrefuses
    exact ⟨_, _, Parser.run_of_refuses hrefuses⟩

/-- **The grammar of nested lists reads exactly its language.**  On every input it succeeds if some
beginning of the input is a word, and then reports the longest one: where it ends and what it stands
for.  Otherwise it fails at the start.  So the text of a tree is read whole, and gives the tree. -/
theorem run_grammar :
    ((∃ parsed, (grammar hE h : Parser ν).run input = some (.ok parsed)) ↔
        ∃ w, ∃ v : Value ν, Word w v ∧ w <+: input.chars) ∧
      (∀ (v : Value ν) (stop : Nat), (grammar hE h).run input = some (.ok ⟨v, stop⟩) ↔
        ∃ w, LongestWord input.chars w v ∧ stop = Text.byteLength w) ∧
      ((¬ ∃ w, ∃ v : Value ν, Word w v ∧ w <+: input.chars) →
        ∃ message line, (grammar hE h : Parser ν).run input =
          some (.error ⟨.alternativesExhausted, message, 0, line⟩)) ∧
      ∀ tree : Tree, input.chars = tree.render →
        (grammar hE h : Parser ν).run input = some (.ok ⟨tree.value, input.size⟩) := by
  -- a report of success is that of the longest word
  have hsuccess : ∀ parsed, (grammar hE h : Parser ν).run input = some (.ok parsed) →
      ∃ w, LongestWord input.chars w parsed.value ∧ parsed.stop = Text.byteLength w := by
    intro parsed hrun
    by_cases hword : ∃ w, ∃ v : Value ν, Word w v ∧ w <+: input.chars
    · obtain ⟨w, v, hword, hbeginning⟩ := hword
      obtain ⟨w', v', hlongest⟩ := exists_longestWord hword hbeginning
      have hrun' := run_longestWord hE h input hlongest
      rw [hrun] at hrun'
      cases hrun'
      exact ⟨w', hlongest, rfl⟩
    · obtain ⟨message, line, hrun'⟩ := run_of_not_word hE h input hword
      rw [hrun] at hrun'
      cases hrun'
  refine ⟨⟨?_, ?_⟩, fun v stop => ⟨fun hrun => hsuccess _ hrun, ?_⟩, run_of_not_word hE h input, ?_⟩
  · rintro ⟨parsed, hrun⟩
    obtain ⟨w, hlongest, _⟩ := hsuccess parsed hrun
    exact ⟨w, parsed.value, hlongest.word, hlongest.beginning⟩
  · rintro ⟨w, v, hword, hbeginning⟩
    obtain ⟨w', v', hlongest⟩ := exists_longestWord hword hbeginning
    exact ⟨_, run_longestWord hE h input hlongest⟩
  · rintro ⟨w, hlongest, rfl⟩
    exact run_longestWord hE h input hlongest
  · intro tree htree
    have hlongest : LongestWord input.chars tree.render (tree.value : Value ν) := by
      rw [htree]
      exact ⟨tree.word, List.prefix_rfl, fun _ _ _ hbeginning => hbeginning.length_le⟩
    rw [run_longestWord hE h input hlongest, input.size_eq, htree]

/-- A list with lists inside of it is read whole, and a letter is no list. -/
theorem run_grammar_lists :
    (grammar Regex.Engine.everyday_builtIn 0 : Parser Nat).run (.ofString "[12,[],[3]]") =
        some (.ok ⟨.list [.token "12", .list [], .list [.token "3"]], 11⟩) ∧
      ∃ message line, (grammar Regex.Engine.everyday_builtIn 0 : Parser Nat).run (.ofString "x") =
        some (.error ⟨.alternativesExhausted, message, 0, line⟩) := by
  let leaf (w : List Char) (hne : w ≠ []) (hw : w.all Char.isDigit = true) : Tree :=
    .leaf ⟨w, hne, List.all_eq_true.1 hw⟩
  have hlists := run_grammar (ν := Nat) Regex.Engine.everyday_builtIn 0 (.ofString "[12,[],[3]]")
  have hletter := run_grammar (ν := Nat) Regex.Engine.everyday_builtIn 0 (.ofString "x")
  refine ⟨hlists.2.2.2 (.node [leaf ['1', '2'] (List.cons_ne_nil _ _) rfl, .node [],
    .node [leaf ['3'] (List.cons_ne_nil _ _) rfl]]) ?_, hletter.2.2.1 ?_⟩
  · simp [Tree.render, Tree.renderAll, leaf, Input.ofString]
  · rintro ⟨w, v, hword, hbeginning⟩
    cases hword with
    | digits hne hw =>
      obtain ⟨c, cs, rfl⟩ := List.exists_cons_of_ne_nil hne
      obtain rfl : c = 'x' := (List.cons_prefix_cons.1 hbeginning).1
      exact absurd (hw 'x' List.mem_cons_self) (by decide)
    | brackets => exact absurd (List.cons_prefix_cons.1 hbeginning).1 (by decide)

end TextGrammar.NestedList
