import TextGrammar.Text.Input
import TextGrammar.Proofs.Text.Offset

/-!
# Checked offsets

Offsets are words of a machine there, slices must begin on a boundary, and a walk back to a boundary
must find one before it has passed the start.  Here these operations are partial: `none` stands for
an access that is refused.

* `from?`, `from?_isSome_iff` — the text from an offset on, which must be a boundary.
* `walkBack?`, `walkBack?_eq` — the walk back to a boundary, one byte at a time; it finds the last
  one.
* `addWord` — the sum of two words, which stays a word.
* `Input.walkBack?_addWord` — over an input that fits into a word, the checked way to move a cursor
  gives what `Input.floor` does.
-/

namespace TextGrammar

namespace Text

/-! ## Slices -/

/-- The text from offset `n` on, unless `n` falls inside a character or behind the text. -/
def from? : Nat → List Char → Option (List Char)
  | 0, text => some text
  | _ + 1, [] => none
  | n + 1, c :: cs => if c.utf8Size ≤ n + 1 then from? (n + 1 - c.utf8Size) cs else none

theorem from?_byteLength_append (before after : List Char) :
    from? (byteLength before) (before ++ after) = some after := by
  induction before with
  | nil => rw [byteLength_nil, List.nil_append, from?]
  | cons c cs ih =>
    have hc := c.utf8Size_pos
    obtain ⟨n, hn⟩ : ∃ n, byteLength (c :: cs) = n + 1 := by
      rw [byteLength_cons]
      exact ⟨c.utf8Size + byteLength cs - 1, by omega⟩
    rw [byteLength_cons] at hn
    rw [byteLength_cons, hn, List.cons_append, from?, if_pos (by omega),
      show n + 1 - c.utf8Size = byteLength cs by omega]
    exact ih

theorem isBoundary_of_from? {n : Nat} {text rest : List Char} (h : from? n text = some rest) :
    IsBoundary text n := by
  induction text generalizing n with
  | nil =>
    cases n with
    | zero => exact isBoundary_zero []
    | succ n => cases h
  | cons c cs ih =>
    cases n with
    | zero => exact isBoundary_zero (c :: cs)
    | succ n =>
      rw [from?] at h
      split at h
      · rename_i hc
        obtain ⟨before, after, rfl, hlength⟩ := ih h
        refine ⟨c :: before, after, rfl, ?_⟩
        rw [byteLength_cons, hlength]
        omega
      · cases h

/-- **A slice from a boundary is not refused**, and it is the text behind that boundary. -/
theorem IsBoundary.from?_eq {text : List Char} {n : Nat} (h : IsBoundary text n) :
    from? n text = some (dropBytes n text) := by
  obtain ⟨before, after, rfl, rfl⟩ := h
  rw [from?_byteLength_append, dropBytes_byteLength_append]

theorem from?_isSome_iff {n : Nat} {text : List Char} :
    (from? n text).isSome = true ↔ IsBoundary text n := by
  constructor
  · intro h
    obtain ⟨rest, hrest⟩ := Option.isSome_iff_exists.1 h
    exact isBoundary_of_from? hrest
  · intro h
    rw [h.from?_eq, Option.isSome_some]

/-! ## Walking back -/

/-- The first boundary that a walk from offset `n` towards the start comes to, unless the walk
passes the start. -/
def walkBack? (text : List Char) : Nat → Option Nat
  | 0 => if (from? 0 text).isSome then some 0 else none
  | n + 1 => if (from? (n + 1) text).isSome then some (n + 1) else walkBack? text n

theorem IsBoundary.le_lastBoundary {text : List Char} {k n : Nat} (h : IsBoundary text k)
    (hk : k ≤ n) : k ≤ lastBoundary text n := by
  obtain ⟨m, rfl⟩ := Nat.exists_eq_add_of_le hk
  rw [h.lastBoundary_add]
  exact Nat.le_add_right _ _

/-- An offset that is no boundary has the same last boundary as the offset before it. -/
theorem lastBoundary_succ {text : List Char} {n : Nat} (h : ¬ IsBoundary text (n + 1)) :
    lastBoundary text (n + 1) = lastBoundary text n := by
  have hle := lastBoundary_le text (n + 1)
  have hne : lastBoundary text (n + 1) ≠ n + 1 := mt lastBoundary_eq_self_iff.1 h
  have hlow := lastBoundary_le text n
  have h₁ := (isBoundary_lastBoundary text (n + 1)).le_lastBoundary (n := n) (by omega)
  have h₂ := (isBoundary_lastBoundary text n).le_lastBoundary (n := n + 1) (by omega)
  omega

/-- **A walk back never passes the start:** it ends at the last boundary. -/
theorem walkBack?_eq (text : List Char) (n : Nat) :
    walkBack? text n = some (lastBoundary text n) := by
  induction n with
  | zero =>
    have hzero := isBoundary_zero text
    rw [walkBack?, if_pos (from?_isSome_iff.2 hzero), hzero.lastBoundary_eq_self]
  | succ n ih =>
    rw [walkBack?]
    split
    · rename_i h
      rw [(from?_isSome_iff.1 h).lastBoundary_eq_self]
    · rename_i h
      rw [ih, lastBoundary_succ (mt from?_isSome_iff.2 h)]

/-! ## Words -/

/-- The greatest word of 64 bits. -/
def maxWord : Nat := 0xFFFFFFFFFFFFFFFF

/-- The sum of two words, or the greatest word if the sum is none. -/
def addWord (a b : Nat) : Nat := min (a + b) maxWord

theorem lastBoundary_min (text : List Char) (n : Nat) :
    lastBoundary text (min n (byteLength text)) = lastBoundary text n := by
  rcases Nat.le_total n (byteLength text) with h | h
  · rw [Nat.min_eq_left h]
  · rw [Nat.min_eq_right h, lastBoundary_of_byteLength_le h,
      lastBoundary_of_byteLength_le (Nat.le_refl _)]

end Text

/-- **Words and checked walks lose nothing:** over an input whose length is a word, they move a
cursor to where it would come without any limit to numbers. -/
theorem Input.walkBack?_addWord (input : Input) (hsize : input.size ≤ Text.maxWord) (a b : Nat) :
    Text.walkBack? input.chars (min (Text.addWord a b) input.size) =
      some (input.floor (a + b)) := by
  have hmin : min (Text.addWord a b) input.size = min (a + b) input.size := by
    rw [Text.addWord]
    omega
  rw [hmin, Text.walkBack?_eq, input.size_eq, Text.lastBoundary_min, Input.floor_eq]

end TextGrammar
