/-!
# Ranges of numbers

A set of numbers is written down as a list of ranges, both ends included.  The ranges stand in
increasing order, and between two of them at least one number is left out, so that every set has one
list only.

* `Separated` — order and gaps.
* `inRanges` — membership; it reads the list no farther than the number.
* `insertRange` — the set with one more range; `inRanges_insertRange`.
* `gaps` — the numbers between the ranges; `inRanges_gaps`.
* `Utf8.sequences` — the characters from one code point to another, as sequences of ranges of bytes: the
  UTF-8 form of a character among them has its bytes in the ranges of one of the sequences, one in each.
* `Utf8.bytes` — the form of a single character.
-/

namespace TextGrammar.Text

/-- The ranges are in increasing order with gaps between them, none is empty, and the first does not
start below `least`. -/
def Separated : (least : Nat) → List (Nat × Nat) → Prop
  | _, [] => True
  | least, (lo, hi) :: rest => least ≤ lo ∧ lo ≤ hi ∧ Separated (hi + 2) rest

instance decidableSeparated : ∀ least ranges, Decidable (Separated least ranges)
  | _, [] => isTrue trivial
  | _, (_, hi) :: rest =>
    have := decidableSeparated (hi + 2) rest
    inferInstanceAs (Decidable (_ ∧ _ ∧ _))

/-- Some range contains the number. -/
def inRanges : List (Nat × Nat) → Nat → Bool
  | [], _ => false
  | (lo, hi) :: rest, n => lo ≤ n && (n ≤ hi || inRanges rest n)

/-- The ranges with one more, which takes in those that it meets or touches. -/
def insertRange (lo hi : Nat) : List (Nat × Nat) → List (Nat × Nat)
  | [] => [(lo, hi)]
  | (a, b) :: rest =>
    if hi + 1 < a then (lo, hi) :: (a, b) :: rest
    else if b + 1 < lo then (a, b) :: insertRange lo hi rest
    else insertRange (min lo a) (max hi b) rest

/-- The numbers from `lo` to `top` that no range contains. -/
def gaps (top lo : Nat) : List (Nat × Nat) → List (Nat × Nat)
  | [] => if lo ≤ top then [(lo, top)] else []
  | (a, b) :: rest => if lo < a then (lo, a - 1) :: gaps top (b + 1) rest else gaps top (b + 1) rest

theorem Separated.mono {least less : Nat} {ranges : List (Nat × Nat)} (h : Separated least ranges)
    (hl : less ≤ least) : Separated less ranges := by
  cases ranges with
  | nil => trivial
  | cons r rest => exact ⟨Nat.le_trans hl h.1, h.2⟩

theorem Separated.le_of_inRanges {least n : Nat} {ranges : List (Nat × Nat)}
    (h : Separated least ranges) (hn : inRanges ranges n = true) : least ≤ n := by
  cases ranges with
  | nil => simp [inRanges] at hn
  | cons r rest =>
    simp only [inRanges, Bool.and_eq_true, decide_eq_true_eq] at hn
    exact Nat.le_trans h.1 hn.1

theorem Separated.insertRange {least lo hi : Nat} {ranges : List (Nat × Nat)}
    (h : Separated least ranges) (hl : least ≤ lo) (hr : lo ≤ hi) :
    Separated least (insertRange lo hi ranges) := by
  induction ranges generalizing least lo hi with
  | nil => exact ⟨hl, hr, trivial⟩
  | cons r rest ih =>
    obtain ⟨a, b⟩ := r
    obtain ⟨h1, h2, h3⟩ := h
    simp only [Text.insertRange]
    split
    · exact ⟨hl, hr, by omega, h2, h3⟩
    · split
      · exact ⟨h1, h2, ih h3 (by omega) hr⟩
      · exact ih (h3.mono (by omega)) (by omega) (by omega)

theorem inRanges_insertRange {least lo hi : Nat} {ranges : List (Nat × Nat)}
    (h : Separated least ranges) (hr : lo ≤ hi) (n : Nat) :
    inRanges (insertRange lo hi ranges) n = (decide (lo ≤ n ∧ n ≤ hi) || inRanges ranges n) := by
  induction ranges generalizing least lo hi with
  | nil => simp [insertRange, inRanges]
  | cons r rest ih =>
    obtain ⟨a, b⟩ := r
    obtain ⟨_, h2, h3⟩ := h
    have hrest := h3.le_of_inRanges (n := n)
    simp only [insertRange]
    split
    · cases hm : inRanges rest n <;> grind [inRanges]
    · split
      · cases hm : inRanges rest n <;> grind [inRanges]
      · rw [ih h3 (by omega)]
        cases hm : inRanges rest n <;> grind [inRanges]

theorem Separated.gaps {top lo : Nat} {ranges : List (Nat × Nat)} (h : Separated lo ranges)
    {least : Nat} (hl : least ≤ lo) : Separated least (gaps top lo ranges) := by
  induction ranges generalizing lo least with
  | nil =>
    simp only [Text.gaps]
    split
    · next h => exact ⟨hl, h, trivial⟩
    · trivial
  | cons r rest ih =>
    obtain ⟨a, b⟩ := r
    obtain ⟨h1, h2, h3⟩ := h
    have h3 := h3.mono (Nat.le_succ (b + 1))
    simp only [Text.gaps]
    split
    · exact ⟨hl, by omega, ih h3 (by omega)⟩
    · exact ih h3 (by omega)

/-- Up to `top`, a number lies in a gap or in a range. -/
theorem inRanges_gaps {top lo n : Nat} {ranges : List (Nat × Nat)} (h : Separated lo ranges)
    (hn : n ≤ top) : inRanges (gaps top lo ranges) n = (decide (lo ≤ n) && !inRanges ranges n) := by
  induction ranges generalizing lo with
  | nil =>
    simp only [gaps]
    split <;> simp [inRanges, hn]
    omega
  | cons r rest ih =>
    obtain ⟨a, b⟩ := r
    obtain ⟨h1, h2, h3⟩ := h
    have hrest := h3.le_of_inRanges (n := n)
    have ih := ih (h3.mono (Nat.le_succ (b + 1)))
    simp only [gaps]
    split <;> cases hm : inRanges rest n <;> grind [inRanges]

end TextGrammar.Text

/-! ## UTF-8 by ranges -/

namespace TextGrammar.Text.Utf8

/-- A range of bytes, both ends included. -/
abbrev ByteRange := Nat × Nat

/-- Each sequence behind the digit `d`. -/
def lead (d : Nat) (tails : List (List ByteRange)) : List (List ByteRange) :=
  tails.map ((d, d) :: ·)

/-- The numbers from `lo` to `hi`, written with a first digit of any size and `count` digits in base
64 behind it, as sequences of ranges of digits. -/
def digits : (count lo hi : Nat) → List (List ByteRange)
  | 0, lo, hi => [[(lo, hi)]]
  | count + 1, lo, hi =>
    let unit := 64 ^ (count + 1)
    let a := lo / unit
    let b := hi / unit
    if a = b then lead a (digits count (lo % unit) (hi % unit))
    else
      let (before, a) :=
        if lo % unit = 0 then ([], a) else (lead a (digits count (lo % unit) (unit - 1)), a + 1)
      let (after, b) :=
        if hi % unit + 1 = unit then ([], b + 1) else (lead b (digits count 0 (hi % unit)), b)
      let between := if a < b then [(a, b - 1) :: List.replicate (count + 1) (0, 63)] else []
      before ++ between ++ after

/-- The code points with forms of one length: the first and the last, the count of bytes behind the
first byte, and what is added to the first digit to make up that byte. -/
structure Block where
  first : Nat
  last : Nat
  count : Nat
  mark : Nat

/-- The blocks, without the surrogates. -/
def blocks : List Block := [
  ⟨0, 0x7f, 0, 0⟩, ⟨0x80, 0x7ff, 1, 0xc0⟩, ⟨0x800, 0xd7ff, 2, 0xe0⟩, ⟨0xe000, 0xffff, 2, 0xe0⟩,
  ⟨0x10000, 0x10ffff, 3, 0xf0⟩]

/-- The bytes with given digits. -/
def Block.toBytes (block : Block) : List ByteRange → List ByteRange
  | [] => []
  | (a, b) :: tail =>
    (a + block.mark, b + block.mark) :: tail.map fun (a, b) => (a + 0x80, b + 0x80)

/-- The sequences for the code points from `lo` to `hi`. -/
def sequences (lo hi : Nat) : List (List ByteRange) :=
  blocks.flatMap fun block =>
    let lo := max lo block.first
    let hi := min hi block.last
    if lo ≤ hi then (digits block.count lo hi).map block.toBytes else []

/-- The bytes of a character. -/
def bytes (c : Char) : List ByteRange := (sequences c.toNat c.toNat).flatten

end TextGrammar.Text.Utf8
