import TextGrammar.Proofs.Regex.Scans

/-!
# Words

A text is split into words by its white space.

* `WordList.words` — the words of a text, in order.
* `WordList.words_append_blank` — text on both sides of white space is split by itself, from which
  the other equations follow.
* `WordList.isIdentifier` — words that begin with a letter of ASCII or an underscore and go on with
  such or with digits.
-/

namespace TextGrammar.WordList

open Text

/-! ## Splitting -/

/-- The runs of other characters between the white space of a text. -/
def words (text : List Char) : List (List Char) :=
  (text.splitOnP isBlank).filter fun w => !w.isEmpty

theorem words_nil : words [] = [] := by simp [words, List.splitOnP_nil]

theorem words_append_blank {c : Char} (hc : isBlank c = true) (before behind : List Char) :
    words (before ++ c :: behind) = words before ++ words behind := by
  rw [words, List.splitOnP_append_cons before behind hc, List.filter_append]
  rfl

theorem words_cons_blank {c : Char} (hc : isBlank c = true) (text : List Char) :
    words (c :: text) = words text := by
  simpa [words_nil] using words_append_blank hc [] text

/-- Without white space in it, a text is one word. -/
theorem words_of_forall {w : List Char} (hne : w ≠ []) (hw : ∀ c ∈ w, isBlank c = false) :
    words w = [w] := by
  rw [words, List.splitOnP_eq_singleton hw]
  simp [hne]

/-- White space ahead belongs to no word. -/
theorem words_dropWhile (text : List Char) : words (text.dropWhile isBlank) = words text := by
  induction text with
  | nil => rfl
  | cons c text ih =>
    cases hc : isBlank c with
    | true => rw [List.dropWhile_cons_of_pos hc, ih, words_cons_blank hc]
    | false => rw [List.dropWhile_cons_of_neg (by rw [hc]; exact Bool.false_ne_true)]

/-- The first word ends at the first white space. -/
theorem words_append {w rest : List Char} (hne : w ≠ []) (hw : ∀ c ∈ w, isBlank c = false)
    (hrest : ∀ c text, rest = c :: text → isBlank c = true) : words (w ++ rest) = w :: words rest := by
  cases rest with
  | nil => rw [List.append_nil, words_of_forall hne hw, words_nil]
  | cons c text =>
    have hc := hrest c text rfl
    rw [words_append_blank hc, words_of_forall hne hw, words_cons_blank hc]
    rfl

/-- A text that does not begin with white space begins with a word. -/
theorem words_cons {c : Char} {text : List Char} (hc : isBlank c = false) :
    words (c :: text) = (c :: text.takeWhile fun d => !isBlank d) ::
      words (text.dropWhile fun d => !isBlank d) := by
  have hw : ∀ d ∈ c :: text.takeWhile fun d => !isBlank d, isBlank d = false := by
    intro d hd
    rcases List.mem_cons.1 hd with rfl | hd
    · exact hc
    · simpa using List.all_eq_true.1 List.all_takeWhile d hd
  have hrest : ∀ d rest, (text.dropWhile fun d => !isBlank d) = d :: rest → isBlank d = true :=
    fun d rest h => by simpa using noneAhead_dropWhile _ text d rest h
  have hwords := words_append (List.cons_ne_nil _ _) hw hrest
  rwa [List.cons_append, List.takeWhile_append_dropWhile] at hwords

/-! ## Identifiers -/

/-- A letter of ASCII or an underscore. -/
def isHead (c : Char) : Bool := c.isAlpha || c == '_'

/-- A letter or a digit of ASCII, or an underscore. -/
def isTail (c : Char) : Bool := c.isAlphanum || c == '_'

/-- A first character and any number of others. -/
def isIdentifier : List Char → Bool
  | [] => false
  | c :: cs => isHead c && cs.all isTail

theorem eq_underscore_iff (c : Char) : c = '_' ↔ c.toNat = 95 := (Char.toNat_inj (d := '_')).symm

theorem isDigit_iff (c : Char) : c.isDigit = true ↔ 48 ≤ c.toNat ∧ c.toNat ≤ 57 := by
  change (decide (c.val ≥ '0'.val) && decide (c.val ≤ '9'.val)) = true ↔ _
  simp only [Bool.and_eq_true, decide_eq_true_eq]
  rfl

theorem isHead_iff (c : Char) : isHead c = true ↔
    (65 ≤ c.toNat ∧ c.toNat ≤ 90) ∨ c.toNat = 95 ∨ (97 ≤ c.toNat ∧ c.toNat ≤ 122) := by
  rw [isHead, Bool.or_eq_true, isAlpha_iff, beq_iff_eq, eq_underscore_iff]
  omega

theorem isTail_iff (c : Char) :
    isTail c = true ↔ (48 ≤ c.toNat ∧ c.toNat ≤ 57) ∨ isHead c = true := by
  rw [isTail, isHead, Char.isAlphanum, Bool.or_eq_true, Bool.or_eq_true, Bool.or_eq_true,
    isDigit_iff, or_assoc, or_left_comm]

/-- No character of an identifier is white space. -/
theorem isBlank_of_isTail {c : Char} (h : isTail c = true) : isBlank c = false := by
  rw [isTail_iff, isHead_iff] at h
  rw [isBlank, ← Bool.not_eq_true]
  simp only [blankRanges, inRanges, Bool.and_eq_true, Bool.or_eq_true, decide_eq_true_eq]
  omega

theorem isTail_of_isHead {c : Char} (h : isHead c = true) : isTail c = true :=
  (isTail_iff c).2 (.inr h)

/-- An identifier has no white space in it. -/
theorem isBlank_of_mem_identifier {w : List Char} (hw : isIdentifier w = true) :
    ∀ c ∈ w, isBlank c = false := by
  cases w with
  | nil => exact nofun
  | cons c cs =>
    rw [isIdentifier, Bool.and_eq_true, List.all_eq_true] at hw
    intro d hd
    rcases List.mem_cons.1 hd with rfl | hd
    · exact isBlank_of_isTail (isTail_of_isHead hw.1)
    · exact isBlank_of_isTail (hw.2 d hd)

end TextGrammar.WordList
