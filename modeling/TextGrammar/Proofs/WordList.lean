import TextGrammar.Proofs.Regex.Run
import TextGrammar.Proofs.Step.Yields
import TextGrammar.Proofs.WordList.Words

/-!
# The grammar of word lists

The grammar `between ws (ws &&& endOfInput) (identifier / whitespace)`, with optional white space
`ws`, reads a list of identifiers with white space between and around them.

* `WordList.roundsEnd` — the rounds of the grammar in front of a text: they come to its end if all
  words are identifiers, and otherwise stop in front of something that is no white space.
* `WordList.run_wordList` — the grammar agrees with splitting the text by its white space.
-/

namespace TextGrammar.WordList

open Regex Text

variable {ν : Type}

/-! ## The grammar -/

/-- The engine knows the source of identifiers: a letter or an underscore, and behind it letters,
digits and underscores. -/
def KnowsIdentifiers (E : Engine) : Prop :=
  E.Searches "[A-Za-z_][A-Za-z0-9_]*" (.headThenRun isHead isTail)

variable {E : Engine} (hE : E.Everyday) (hI : KnowsIdentifiers E)

/-- Words that begin with a letter or an underscore. -/
def identifier : Pattern := .ofSource E "[A-Za-z_][A-Za-z0-9_]*" (Engine.Searches.isSome hI)

/-- White space or none. -/
def ws : Parser ν := .ignore (.optional (.whitespace hE))

/-- The grammar of word lists. -/
def grammar : Parser ν :=
  .between (ws hE) (ws hE &&& .endOfInput) (.pattern (identifier hI) / .whitespace hE)

/-- What optional white space does. -/
def wsStep : Step ν := Step.collectedAs .ignore (Step.optional (Step.pattern (.whitespace hE)))

theorem step_grammar (b : Nat) (scope : Scope ν) :
    (grammar hE hI).step b scope = Step.between (wsStep hE) (Step.and (wsStep hE) Step.endOfInput)
      (Step.separated b 0 (Parser.pattern (identifier hI) : Parser ν).label
        (Parser.whitespace hE : Parser ν).label (Step.pattern (identifier hI))
        (Step.pattern (.whitespace hE))) := by
  rw [grammar, Parser.step_between]
  rfl

/-! ## Single words -/

/-- The pattern for identifiers goes as far as their characters do. -/
theorem findsBy_identifier : (identifier hI).FindsBy (headRun isHead isTail) :=
  Engine.Searches.findsBy hI (Term.takes_headThenRun isHead isTail)

/-- Identifiers are taken up to the last character. -/
theorem takes_identifier {w rest : List Char} (hw : isIdentifier w = true)
    (hrest : NoneAhead isTail rest) :
    (Step.pattern (identifier hI) : Step ν).Takes w rest (.token (String.ofList w)) .keep := by
  cases w with
  | nil => cases hw
  | cons c cs =>
    rw [isIdentifier, Bool.and_eq_true, List.all_eq_true] at hw
    refine Step.takes_pattern (findsBy_identifier hI) ?_ (List.cons_ne_nil c cs)
    rw [List.cons_append, headRun, if_pos hw.1, takeWhile_append_of_noneAhead hw.2 hrest]

theorem takes_blank {text : List Char} (h : text.takeWhile isBlank ≠ []) :
    (Step.pattern (.whitespace hE) : Step ν).Takes (text.takeWhile isBlank)
      (text.dropWhile isBlank) (.token (String.ofList (text.takeWhile isBlank))) .keep := by
  refine Step.takes_pattern (Pattern.findsBy_whitespace hE) ?_ h
  rw [List.takeWhile_append_dropWhile]

theorem refuses_blank {text : List Char} (h : NoneAhead isBlank text) :
    (Step.pattern (.whitespace hE) : Step ν).Refuses text
      (.pattern (Pattern.whitespace hE).source text) 0 :=
  Step.refuses_pattern (Pattern.findsBy_whitespace hE) (takeWhile_of_noneAhead h)

/-- Optional white space is taken as far as it goes. -/
theorem takes_ws (text : List Char) : ∃ v, (wsStep hE : Step ν).Takes (text.takeWhile isBlank)
    (text.dropWhile isBlank) v .ignore := by
  by_cases h : text.takeWhile isBlank = []
  · have hsplit := List.takeWhile_append_dropWhile (p := isBlank) (l := text)
    have hahead := noneAhead_dropWhile isBlank text
    rw [h]
    exact ⟨_, (refuses_blank hE hahead).takes_optional.collectedAs .ignore⟩
  · exact ⟨_, (takes_blank hE h).optional.collectedAs .ignore⟩

/-! ## All words -/

/-- Words as tokens. -/
def tokens (ws : List (List Char)) : List (Value ν) := ws.map fun w => .token (String.ofList w)

/-- The rounds of the grammar come to the text `ahead` and list `items`: at the end of the text they
list all of its words, and otherwise one of them is no identifier. -/
structure Comes (text ahead : List Char) (items : List (Value ν)) : Prop where
  noneAhead : NoneAhead isBlank ahead
  at_end : ahead = [] → (∀ w ∈ words text, isIdentifier w = true) ∧ items = tokens (words text)
  not_at_end : ahead ≠ [] → ∃ w ∈ words text, isIdentifier w = false

/-- A word that goes on with another character than those of identifiers is none. -/
theorem exists_word_of_not_isTail {w ds : List Char} {d : Char} (hw : isIdentifier w = true)
    (hd : isTail d = false) (hblank : isBlank d = false) :
    ∃ w' ∈ words (w ++ d :: ds), isIdentifier w' = false := by
  have hwords := isBlank_of_mem_identifier hw
  cases w with
  | nil => cases hw
  | cons c cs =>
    have hcs : ∀ e ∈ cs, (!isBlank e) = true := fun e he => by
      rw [hwords e (List.mem_cons_of_mem c he)]
      rfl
    rw [List.cons_append, words_cons (hwords c List.mem_cons_self),
      List.takeWhile_append_of_pos hcs, List.takeWhile_cons_of_pos (by rw [hblank]; rfl)]
    refine ⟨_, List.mem_cons_self, ?_⟩
    simp [isIdentifier, hd]

/-- An identifier in front of more words is the first word. -/
theorem Comes.cons {w rest ahead : List Char} {items : List (Value ν)} (hw : isIdentifier w = true)
    (hrest : ∀ c text, rest = c :: text → isBlank c = true)
    (h : Comes (rest.dropWhile isBlank) ahead items) :
    Comes (w ++ rest) ahead (.token (String.ofList w) :: items) := by
  have hne : w ≠ [] := by
    rintro rfl
    cases hw
  have hwords : words (w ++ rest) = w :: words (rest.dropWhile isBlank) := by
    rw [words_append hne (isBlank_of_mem_identifier hw) hrest, words_dropWhile]
  refine ⟨h.noneAhead, fun hahead => ?_, fun hahead => ?_⟩
  · obtain ⟨hall, hitems⟩ := h.at_end hahead
    rw [hwords, hitems]
    exact ⟨List.forall_mem_cons.2 ⟨hw, hall⟩, rfl⟩
  · obtain ⟨w', hmem, hw'⟩ := h.not_at_end hahead
    rw [hwords]
    exact ⟨w', List.mem_cons_of_mem _ hmem, hw'⟩

theorem comes_nil (ν : Type) : Comes [] [] ([] : List (Value ν)) := by
  refine ⟨nofun, fun _ => ?_, fun hne => absurd rfl hne⟩
  rw [words_nil]
  exact ⟨nofun, rfl⟩

variable (ν) in
/-- The rounds of the grammar end in front of the text, and come to the end of its words or to
something that is neither a word nor white space. -/
def RoundsEnd (text : List Char) : Prop :=
  ∃ count taken ahead, ∃ items : List (Value ν), text = taken ++ ahead ∧
    Step.Alternates (Step.pattern (identifier hI)) (Step.pattern (.whitespace hE)) count taken ahead items ∧
    Comes text ahead items

variable (ν) in
theorem roundsEnd_nil : RoundsEnd ν hE hI [] :=
  ⟨0, [], [], [], rfl, .stop (Step.refuses_pattern (findsBy_identifier hI) rfl), comes_nil ν⟩

/-- There is no round if no identifier comes first. -/
theorem roundsEnd_of_not_isHead {c : Char} {cs : List Char} (hblank : isBlank c = false)
    (hc : isHead c = false) : RoundsEnd ν hE hI (c :: cs) := by
  have hrefuses : (Step.pattern (identifier hI) : Step ν).Refuses (c :: cs) _ 0 :=
    Step.refuses_pattern (findsBy_identifier hI) (by rw [headRun, hc, if_neg Bool.false_ne_true])
  have hword : ∃ w ∈ words (c :: cs), isIdentifier w = false := by
    rw [words_cons hblank]
    exact ⟨_, List.mem_cons_self, by rw [isIdentifier, hc, Bool.false_and]⟩
  exact ⟨0, [], c :: cs, [], rfl, .stop hrefuses, noneAhead_cons hblank cs,
    fun hnil => absurd hnil (List.cons_ne_nil c cs), fun _ => hword⟩

section
variable {w : List Char} (hw : isIdentifier w = true)
include hw

/-- The last identifier is the last round. -/
theorem roundsEnd_identifier : RoundsEnd ν hE hI w := by
  have htakes := takes_identifier (ν := ν) hI hw (noneAhead_nil isTail)
  have hcomes : Comes (w ++ []) [] _ := Comes.cons hw (by rintro _ _ ⟨⟩) (comes_nil ν)
  rw [List.append_nil] at hcomes
  exact ⟨1, w, [], _, (List.append_nil w).symm,
    .last htakes (refuses_blank hE (noneAhead_nil isBlank)), hcomes⟩

/-- So is an identifier that no white space ends. -/
theorem roundsEnd_of_not_isTail {d : Char} {ds : List Char} (hd : isTail d = false)
    (hblank : isBlank d = false) : RoundsEnd ν hE hI (w ++ d :: ds) := by
  have htakes := takes_identifier (ν := ν) hI hw (noneAhead_cons hd ds)
  have hstop := noneAhead_cons hblank ds
  exact ⟨1, w, d :: ds, _, rfl, .last htakes (refuses_blank hE hstop), hstop,
    fun hnil => absurd hnil (List.cons_ne_nil d ds),
    fun _ => exists_word_of_not_isTail hw hd hblank⟩

/-- Behind an identifier and white space the rounds go on. -/
theorem RoundsEnd.next {d : Char} {ds : List Char} (hd : isTail d = false)
    (hblank : isBlank d = true) (h : RoundsEnd ν hE hI ((d :: ds).dropWhile isBlank)) :
    RoundsEnd ν hE hI (w ++ d :: ds) := by
  obtain ⟨count, taken, ahead, items, htext, halternates, hcomes⟩ := h
  have htakes := takes_identifier (ν := ν) hI hw (noneAhead_cons hd ds)
  have hsep : (d :: ds).takeWhile isBlank ≠ [] := by
    rw [List.takeWhile_cons_of_pos hblank]
    exact List.cons_ne_nil _ _
  have hseparator := takes_blank (ν := ν) hE hsep
  have hcomes' := Comes.cons hw (by rintro _ _ ⟨⟩; exact hblank) hcomes
  have hsplit := List.takeWhile_append_dropWhile (p := isBlank) (l := d :: ds)
  rw [htext] at hseparator hsplit
  rw [← hsplit] at htakes hcomes' ⊢
  refine ⟨count + 1, _, ahead, _, ?_, .next htakes hseparator (by simp [hsep]) halternates, hcomes'⟩
  simp only [List.append_assoc]

end

/-- **In front of any text that does not begin with white space, the rounds of the grammar end.** -/
theorem roundsEnd (text : List Char) (h : NoneAhead isBlank text) : RoundsEnd ν hE hI text := by
  induction hlength : text.length using Nat.strongRecOn generalizing text with
  | ind k ih =>
    cases text with
    | nil => exact roundsEnd_nil ν hE hI
    | cons c cs =>
      have hblank := h c cs rfl
      cases hc : isHead c with
      | false => exact roundsEnd_of_not_isHead hE hI hblank hc
      | true =>
        -- the identifier goes as far as it can, and what comes behind decides about the rest
        have hw : isIdentifier (c :: cs.takeWhile isTail) = true := by
          rw [isIdentifier, hc, List.all_takeWhile, Bool.and_true]
        have hrest := noneAhead_dropWhile isTail cs
        have hsplit : c :: cs.takeWhile isTail ++ cs.dropWhile isTail = c :: cs := by
          rw [List.cons_append, List.takeWhile_append_dropWhile]
        generalize c :: cs.takeWhile isTail = w at hw hsplit
        rw [← hsplit] at hlength ⊢
        cases hcons : cs.dropWhile isTail with
        | nil =>
          rw [List.append_nil]
          exact roundsEnd_identifier hE hI hw
        | cons d ds =>
          rw [hcons] at hlength
          have hd := hrest d ds hcons
          cases hblank : isBlank d with
          | false => exact roundsEnd_of_not_isTail hE hI hw hd hblank
          | true =>
            have hlt : ((d :: ds).dropWhile isBlank).length < k := by
              have hle := (List.dropWhile_sublist isBlank (l := ds)).length_le
              rw [List.length_append, List.length_cons] at hlength
              rw [List.dropWhile_cons_of_pos hblank]
              omega
            exact .next hE hI hw hd hblank (ih _ hlt _ (noneAhead_dropWhile isBlank (d :: ds)) rfl)

/-! ## Whole inputs -/

/-- The closing delimiter takes what is left at the end of the input. -/
theorem takes_closing : (Step.and (wsStep hE) Step.endOfInput : Step ν).Takes [] [] (.list []) .splice := by
  obtain ⟨v, hws⟩ := takes_ws (ν := ν) hE []
  exact Step.Takes.and hws Step.takes_endOfInput

/-- Without white space ahead, the closing delimiter fails before the end of the input. -/
theorem refuses_closing {ahead : List Char} (h : NoneAhead isBlank ahead) (hne : ahead ≠ []) :
    (Step.and (wsStep hE) Step.endOfInput : Step ν).Refuses ahead (.trailing ahead) 0 :=
  Step.Takes.refuses_and ((refuses_blank hE h).takes_optional.collectedAs .ignore)
    (Step.refuses_endOfInput hne)

variable (ν) in
/-- **On every input the grammar lists all words**, or one of them is no identifier and it fails. -/
theorem run_cases (input : Input) :
    ((∀ w ∈ words input.chars, isIdentifier w = true) ∧ (grammar hE hI : Parser ν).run input =
        some (.ok ⟨.list (tokens (words input.chars)), input.size⟩)) ∨
      (∃ w ∈ words input.chars, isIdentifier w = false) ∧
        ∃ e, (grammar hE hI : Parser ν).run input = some (.error e) := by
  have hsplit := List.takeWhile_append_dropWhile (p := isBlank) (l := input.chars)
  obtain ⟨v, hopening⟩ := takes_ws (ν := ν) hE input.chars
  obtain ⟨count, taken, ahead, items, htext, halternates, hcomes⟩ :=
    roundsEnd (ν := ν) hE hI _ (noneAhead_dropWhile isBlank input.chars)
  have hlength : taken.length < Parser.budgetFor input.size := by
    have hle := (List.dropWhile_sublist isBlank (l := input.chars)).length_le
    have hlt := Parser.length_lt_budgetFor input
    rw [htext, List.length_append] at hle
    omega
  have hvalues := halternates.takes hlength (Nat.zero_le count)
    (Parser.pattern (identifier hI) : Parser ν).label (Parser.whitespace hE : Parser ν).label
  rw [htext] at hopening hsplit
  have hwords : words (input.chars.dropWhile isBlank) = words input.chars :=
    words_dropWhile input.chars
  by_cases hahead : ahead = []
  · obtain ⟨hall, hitems⟩ := hcomes.at_end hahead
    subst hahead
    rw [hwords] at hall hitems
    refine .inl ⟨hall, ?_⟩
    have htakes := hopening.between hvalues (takes_closing hE) fun _ => rfl
    rw [List.append_nil] at htakes
    rw [List.append_nil] at hsplit
    rw [← step_grammar] at htakes
    rw [← hitems, Parser.run_of_takes (hsplit.symm.trans (List.append_nil _).symm) htakes,
      input.size_eq, hsplit]
  · obtain ⟨w, hmem, hw⟩ := hcomes.not_at_end hahead
    rw [hwords] at hmem
    refine .inr ⟨⟨w, hmem, hw⟩, ?_⟩
    have hrefuses := hopening.refuses_between hvalues (refuses_closing hE hcomes.noneAhead hahead)
    rw [hsplit, ← step_grammar] at hrefuses
    exact ⟨_, Parser.run_of_refuses hrefuses⟩

variable (ν) in
/-- **The grammar of word lists agrees with splitting by white space.**  It succeeds if and only if
every word of the input is an identifier; then it reports the list of exactly those words, and ends
with the input.  Otherwise it fails. -/
theorem run_wordList (input : Input) :
    ((∃ parsed, (grammar hE hI : Parser ν).run input = some (.ok parsed)) ↔
        ∀ w ∈ words input.chars, isIdentifier w = true) ∧
      (∀ parsed, (grammar hE hI : Parser ν).run input = some (.ok parsed) →
        parsed = ⟨.list (tokens (words input.chars)), input.size⟩) ∧
      ((∃ w ∈ words input.chars, isIdentifier w = false) →
        ∃ e, (grammar hE hI : Parser ν).run input = some (.error e)) := by
  rcases run_cases ν hE hI input with ⟨hall, hrun⟩ | ⟨⟨w, hmem, hw⟩, e, hrun⟩
  · refine ⟨⟨fun _ => hall, fun _ => ⟨_, hrun⟩⟩, fun parsed h => ?_, ?_⟩
    · rw [hrun] at h
      cases h
      rfl
    · rintro ⟨w, hmem, hw⟩
      rw [hall w hmem] at hw
      cases hw
  · refine ⟨⟨?_, fun hall => ?_⟩, fun parsed h => ?_, fun _ => ⟨e, hrun⟩⟩
    · rintro ⟨parsed, h⟩
      rw [hrun] at h
      cases h
    · rw [hall w hmem] at hw
      cases hw
    · rw [hrun] at h
      cases h

/-! ## The built-in engine -/

/-- The first characters of identifiers. -/
def headSet : CharSet := ⟨[(65, 90), (95, 95), (97, 122)], by decide⟩

/-- The other characters of identifiers. -/
def tailSet : CharSet := ⟨[(48, 57), (65, 90), (95, 95), (97, 122)], by decide⟩

theorem mem_headSet : headSet.mem = isHead := by
  funext c
  rw [Bool.eq_iff_iff, isHead_iff]
  simp only [CharSet.mem, headSet, inRanges, Bool.and_eq_true, Bool.or_eq_true, decide_eq_true_eq,
    Bool.false_eq_true, or_false]
  omega

theorem mem_tailSet : tailSet.mem = isTail := by
  funext c
  rw [Bool.eq_iff_iff, isTail_iff, isHead_iff]
  simp only [CharSet.mem, tailSet, inRanges, Bool.and_eq_true, Bool.or_eq_true, decide_eq_true_eq,
    Bool.false_eq_true, or_false]
  omega

/-- **The built-in engine knows identifiers.** -/
theorem knowsIdentifiers_builtIn : KnowsIdentifiers Engine.builtIn := by
  refine Engine.searches_builtIn (p := .headThenRun headSet tailSet) rfl (fun text => ?_)
    (Term.takes_headThenRun isHead isTail)
  rw [(Program.takesRun_headThenRun _ _).search_eq, mem_headSet, mem_tailSet]

/-- White space goes around the words and between them, also that beyond ASCII, but no digit starts a
word. -/
theorem run_wordList_words :
    (grammar Engine.everyday_builtIn knowsIdentifiers_builtIn : Parser Nat).run
        (.ofString " a1\u00a0_b\n") = some (.ok ⟨.list [.token "a1", .token "_b"], 8⟩) ∧
      ∃ e, (grammar Engine.everyday_builtIn knowsIdentifiers_builtIn : Parser Nat).run
        (.ofString "a 1") = some (.error e) := by
  obtain ⟨hsuccess, hvalue, -⟩ := run_wordList (ν := Nat) Engine.everyday_builtIn
    knowsIdentifiers_builtIn (.ofString " a1\u00a0_b\n")
  obtain ⟨-, -, hfailure⟩ := run_wordList (ν := Nat) Engine.everyday_builtIn
    knowsIdentifiers_builtIn (.ofString "a 1")
  refine ⟨?_, hfailure ⟨['1'], by decide, by decide⟩⟩
  obtain ⟨parsed, hrun⟩ := hsuccess.2 (by decide)
  rw [hrun, hvalue parsed hrun]
  rfl

end TextGrammar.WordList
