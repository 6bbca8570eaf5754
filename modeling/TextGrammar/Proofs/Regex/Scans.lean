import TextGrammar.Pattern

/-!
# Scans of text

A few scanners take a piece from the start of a text by its characters alone, and there are terms that
find just what these scanners take.

* `Text.headRun`, `Text.lineEnd` — a character of one kind with the longest run of another kind behind
  it, and the end of one line.
* `Text.NoneAhead` — no character of a kind comes next; so it is behind the longest run, and a run in front
  of such a text is the longest one.
* `Term.headThenRun` — the term for the first; the others are `Term.run` and `Term.lineEnd`.
* `Match.taking` — the match with a piece at the start of a text.
* `Term.Takes` — at the start of every text the term finds what a scanner takes.
* `Term.takes_headThenRun`, `Term.takes_run`, `Term.takes_lineEnd` — these terms do.
* `Pattern.FindsBy` — patterns that find what a scanner takes; those of everyday use do, with every engine
  that knows their sources.
-/

namespace TextGrammar

/-! ## Scanners -/

namespace Text

/-- A character of the first kind at the start of a text, and behind it as many of the second kind as
there are. -/
def headRun (head tail : Char → Bool) : List Char → List Char
  | [] => []
  | c :: cs => if head c then c :: cs.takeWhile tail else []

theorem headRun_self (kind : Char → Bool) (text : List Char) :
    headRun kind kind text = text.takeWhile kind := by
  cases text with
  | nil => rfl
  | cons c cs => rw [headRun, List.takeWhile_cons]

/-- What is taken of a text to end a line, if a line ends there. -/
def lineEnd : List Char → List Char
  | [] => []
  | c :: text =>
    if c = '\r' then if text.head? = some '\n' then ['\r', '\n'] else ['\r']
    else if c = '\n' then ['\n']
    else []

theorem lineEnd_prefix (text : List Char) : lineEnd text <+: text := by
  cases text with
  | nil => exact List.nil_prefix
  | cons c text =>
    rw [lineEnd]
    split
    · next hreturn =>
      split
      · next hnext =>
        obtain ⟨back, rfl⟩ : ∃ back, text = '\n' :: back := List.head?_eq_some_iff.1 hnext
        exact ⟨back, by rw [hreturn]; rfl⟩
      · exact ⟨text, by rw [hreturn]; rfl⟩
    · split
      · next hnewline => exact ⟨text, by rw [hnewline]; rfl⟩
      · exact List.nil_prefix

/-! ## What comes behind a run -/

/-- No character of the kind comes next. -/
def NoneAhead (kind : Char → Bool) (text : List Char) : Prop :=
  ∀ c rest, text = c :: rest → kind c = false

variable {kind : Char → Bool} {c : Char} {w text rest : List Char}

theorem noneAhead_nil (kind : Char → Bool) : NoneAhead kind [] := fun _ _ h => nomatch h

theorem noneAhead_cons (h : kind c = false) (rest : List Char) : NoneAhead kind (c :: rest) := by
  rintro _ _ ⟨⟩
  exact h

theorem noneAhead_dropWhile (kind : Char → Bool) (text : List Char) :
    NoneAhead kind (text.dropWhile kind) := by
  intro c rest h
  have hne : text.dropWhile kind ≠ [] := by
    rw [h]
    exact List.cons_ne_nil c rest
  have hhead := List.head_dropWhile_not kind hne
  simp only [h, List.head_cons] at hhead
  exact hhead

theorem takeWhile_of_noneAhead (h : NoneAhead kind text) : text.takeWhile kind = [] := by
  cases text with
  | nil => rfl
  | cons c rest => rw [List.takeWhile_cons_of_neg (by rw [h c rest rfl]; exact Bool.false_ne_true)]

/-- A run is taken to its end. -/
theorem takeWhile_append_of_noneAhead (hw : ∀ c ∈ w, kind c = true) (h : NoneAhead kind rest) :
    (w ++ rest).takeWhile kind = w := by
  rw [List.takeWhile_append_of_pos hw, takeWhile_of_noneAhead h, List.append_nil]

end Text

/-! ## Terms -/

namespace Regex

/-- The match with a piece at the start of a text; no piece is no match. -/
def Match.taking (piece : List Char) : Option Match :=
  if piece = [] then none else some ⟨0, Text.byteLength piece⟩

theorem Match.taking_of_ne_nil {piece : List Char} (h : piece ≠ []) :
    taking piece = some ⟨0, Text.byteLength piece⟩ := if_neg h

namespace Term

variable {t : Term}

/-- A match that leaves the rest of a text takes the piece in front. -/
theorem byteLength_sub {text piece rest : List Char} (h : piece ++ rest = text) :
    Text.byteLength text - Text.byteLength rest = Text.byteLength piece := by
  rw [← h, Text.byteLength_append, Nat.add_sub_cancel_right]

/-- At the start of every text, the term finds what the scanner takes. -/
def Takes (t : Term) (scan : List Char → List Char) : Prop :=
  ∀ text, (seq textStart t).first text = Match.taking (scan text)

/-- It is enough to look at the preferred way from there. -/
theorem takes_of_head? {scan : List Char → List Char}
    (hnone : ∀ text, scan text = [] → (t.ways ⟨none, text⟩).head? = none)
    (hsome : ∀ text, scan text ≠ [] →
      ∃ y, (t.ways ⟨none, text⟩).head? = some y ∧ scan text ++ y.ahead = text) : t.Takes scan := by
  intro text
  rw [first_seq_textStart, matchAt]
  by_cases h : scan text = []
  · rw [hnone text h, h]
    rfl
  · obtain ⟨y, hy, htext⟩ := hsome text h
    rw [hy, Match.taking_of_ne_nil h, Option.map_some, Nat.zero_add, byteLength_sub htext]

/-! ### Runs -/

/-- A character of one kind, and any number of another kind behind it, as many as there are. -/
def headThenRun (head tail : Char → Bool) : Term :=
  seq (one head) (repeated true 0 none (one tail))

/-- More is preferred, so all characters of the kind are taken. -/
theorem head?_rounds_one (kind : Char → Bool) (n : Nat) (x : Place) (hn : x.ahead.length ≤ n) :
    ∃ y, (rounds true (one kind).ways n x).head? = some y ∧
      y.ahead = x.ahead.dropWhile kind := by
  induction n generalizing x with
  | zero =>
    rw [Nat.le_zero, List.length_eq_zero_iff] at hn
    exact ⟨x, rfl, by rw [hn]; rfl⟩
  | succ n ih =>
    obtain ⟨before, ahead⟩ := x
    cases ahead with
    | nil => exact ⟨⟨before, []⟩, rfl, rfl⟩
    | cons c cs =>
      cases hc : kind c with
      | false =>
        refine ⟨⟨before, c :: cs⟩, by simp [rounds, hc], ?_⟩
        rw [List.dropWhile_cons_of_neg (by rw [hc]; exact Bool.false_ne_true)]
      | true =>
        obtain ⟨y, hy, hahead⟩ := ih ⟨some c, cs⟩ (Nat.le_of_succ_le_succ hn)
        refine ⟨y, ?_, ?_⟩
        · simp [rounds, hc, hy]
        · rw [hahead, List.dropWhile_cons_of_pos hc]

/-- **Characters are taken as far as they are of the kind.** -/
theorem takes_headThenRun (head tail : Char → Bool) :
    (headThenRun head tail).Takes (Text.headRun head tail) := by
  refine takes_of_head? (fun text h => ?_) (fun text h => ?_)
  · cases text with
    | nil => rfl
    | cons c cs =>
      rw [Text.headRun] at h
      split at h
      · cases h
      · next hc => simp [headThenRun, ways, hc]
  · cases text with
    | nil => exact absurd rfl h
    | cons c cs =>
      rw [Text.headRun] at h ⊢
      split at h
      · next hc =>
        obtain ⟨y, hy, hahead⟩ := head?_rounds_one tail cs.length ⟨some c, cs⟩ (Nat.le_refl _)
        refine ⟨y, by simpa [headThenRun, ways, copies, left, hc] using hy, ?_⟩
        rw [if_pos hc, hahead, List.cons_append, List.takeWhile_append_dropWhile]
      · exact absurd rfl h

/-- One or more are one with any number behind it. -/
theorem same_run (kind : Char → Bool) : (run kind).Same (headThenRun kind kind) := by
  intro x
  simp [run, headThenRun, ways, copies, left]

theorem takes_run (kind : Char → Bool) : (run kind).Takes (List.takeWhile kind) := by
  intro text
  have htakes := takes_headThenRun kind kind text
  rw [first_seq_textStart, matchAt, ← same_run, Text.headRun_self] at htakes
  rw [first_seq_textStart, matchAt, htakes]

/-! ### Ends of lines -/

/-- **Of the ways to end a line, the longest that is there is taken.** -/
theorem takes_lineEnd : lineEnd.Takes Text.lineEnd := by
  refine takes_of_head? (fun text h => ?_) (fun text h => ?_)
  · cases text with
    | nil => rfl
    | cons c cs =>
      rw [Text.lineEnd] at h
      split at h
      · split at h <;> cases h
      · split at h
        · cases h
        · next hreturn hnewline => simp [lineEnd, char, ways, hreturn, hnewline]
  · cases text with
    | nil => exact absurd rfl h
    | cons c cs =>
      rw [Text.lineEnd] at h ⊢
      split
      · next hreturn =>
        split
        · next hnext =>
          obtain ⟨cs, rfl⟩ := List.head?_eq_some_iff.1 hnext
          exact ⟨⟨some '\n', cs⟩, by simp [lineEnd, char, ways, hreturn], by simp [hreturn]⟩
        · next hnext =>
          refine ⟨⟨some '\r', cs⟩, ?_, by rw [hreturn]; rfl⟩
          cases cs with
          | nil => simp [lineEnd, char, ways, hreturn]
          | cons d ds =>
            rw [List.head?_cons, Option.some.injEq] at hnext
            simp [lineEnd, char, ways, hreturn, hnext]
      · next hreturn =>
        rw [if_neg hreturn] at h
        split
        · next hnewline =>
          exact ⟨⟨some '\n', cs⟩, by simp [lineEnd, char, ways, hnewline], by simp [hnewline]⟩
        · next hnewline => exact absurd (if_neg hnewline) h

end Term

end Regex

/-! ## Patterns -/

/-- The pattern finds what the scanner takes at the start of a text. -/
def Pattern.FindsBy (p : Pattern) (scan : List Char → List Char) : Prop :=
  ∀ text, p.find text = Regex.Match.taking (scan text)

variable {E : Regex.Engine}

/-- A source that is searched for as a term finds what the term does. -/
theorem Regex.Engine.Searches.findsBy {source : String} {t : Regex.Term}
    {scan : List Char → List Char} (h : E.Searches source t) (ht : t.Takes scan) :
    (Pattern.ofSource E source h.isSome).FindsBy scan :=
  fun text => (h.find_eq text).trans (ht text)

namespace Pattern

variable (hE : E.Everyday)

theorem findsBy_letters : (letters hE).FindsBy (List.takeWhile Char.isAlpha) :=
  hE.letters.findsBy (Regex.Term.takes_run _)

theorem findsBy_digits : (digits hE).FindsBy (List.takeWhile Char.isDigit) :=
  hE.digits.findsBy (Regex.Term.takes_run _)

theorem findsBy_whitespace : (whitespace hE).FindsBy (List.takeWhile Text.isBlank) :=
  hE.whitespace.findsBy (Regex.Term.takes_run _)

theorem findsBy_newline : (newline hE).FindsBy Text.lineEnd :=
  hE.newline.findsBy Regex.Term.takes_lineEnd

end Pattern

end TextGrammar
