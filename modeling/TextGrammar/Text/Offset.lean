/-!
# Byte offsets in text

A text is a list of characters.  Positions in it count the bytes of its UTF-8 form, so that a
character takes one to four of them, and a position is a *boundary* when it does not fall inside
a character.

* `byteLength` — the number of bytes of a text; `byteLength_append`: it adds up.
* `dropBytes`, `takeBytes` — the text after a position and the longest beginning that fits into a
  number of bytes; at a boundary they split a text.
* `lastBoundary` — the last boundary at or before an offset (`floor_boundary`).
-/

namespace TextGrammar.Text

/-- Number of bytes of the UTF-8 form. -/
def byteLength : List Char → Nat
  | [] => 0
  | c :: cs => c.utf8Size + byteLength cs

/-- The text from byte `n` on.  When `n` falls inside a character, that character is left out. -/
def dropBytes : Nat → List Char → List Char
  | _, [] => []
  | n, c :: cs => if n = 0 then c :: cs else dropBytes (n - c.utf8Size) cs

/-- The longest beginning of the text that takes at most `n` bytes. -/
def takeBytes : Nat → List Char → List Char
  | _, [] => []
  | n, c :: cs => if c.utf8Size ≤ n then c :: takeBytes (n - c.utf8Size) cs else []

/-- The last boundary at or before offset `n`: the end of the text when `n` lies behind it, and
the start of the character around `n` when `n` falls inside one. -/
def lastBoundary : List Char → Nat → Nat
  | [], _ => 0
  | c :: cs, n => if c.utf8Size ≤ n then c.utf8Size + lastBoundary cs (n - c.utf8Size) else 0

/-- Offset `n` is the start of a character of the text, or its end. -/
def IsBoundary (text : List Char) (n : Nat) : Prop :=
  ∃ before after, text = before ++ after ∧ byteLength before = n

/-- The text between the offsets `start` and `stop`. -/
def slice (text : List Char) (start stop : Nat) : List Char :=
  takeBytes (stop - start) (dropBytes start text)

@[simp] theorem byteLength_nil : byteLength [] = 0 := rfl

@[simp] theorem byteLength_cons (c : Char) (cs : List Char) :
    byteLength (c :: cs) = c.utf8Size + byteLength cs := rfl

@[simp] theorem byteLength_append (a b : List Char) :
    byteLength (a ++ b) = byteLength a + byteLength b := by
  induction a with
  | nil => simp
  | cons c cs ih => simp [ih, Nat.add_assoc]

@[simp] theorem dropBytes_zero (text : List Char) : dropBytes 0 text = text := by
  cases text <;> simp [dropBytes]

/-- Behind a whole beginning, the rest is what is left. -/
@[simp] theorem dropBytes_byteLength_append (a b : List Char) :
    dropBytes (byteLength a) (a ++ b) = b := by
  induction a with
  | nil => simp
  | cons c cs ih =>
    have : c.utf8Size ≠ 0 := by have := c.utf8Size_pos; omega
    simp [dropBytes, this, ih]

/-- The beginning that ends at a boundary is given back whole. -/
@[simp] theorem takeBytes_byteLength_append (a b : List Char) :
    takeBytes (byteLength a) (a ++ b) = a := by
  induction a with
  | nil =>
    cases b with
    | nil => rfl
    | cons c cs => have := c.utf8Size_pos; simp [takeBytes]; omega
  | cons c cs ih => simp [takeBytes, ih]

theorem lastBoundary_eq (text : List Char) (n : Nat) :
    lastBoundary text n = byteLength (takeBytes n text) := by
  induction text generalizing n with
  | nil => rfl
  | cons c cs ih =>
    simp only [lastBoundary, takeBytes]
    split <;> simp [ih]

theorem lastBoundary_le (text : List Char) (n : Nat) : lastBoundary text n ≤ n := by
  induction text generalizing n with
  | nil => simp [lastBoundary]
  | cons c cs ih =>
    simp only [lastBoundary]
    split
    · have := ih (n - c.utf8Size); omega
    · omega

/-- From the end on, there is no text. -/
theorem dropBytes_of_byteLength_le {text : List Char} {n : Nat} (h : byteLength text ≤ n) :
    dropBytes n text = [] := by
  induction text generalizing n with
  | nil => rfl
  | cons c cs ih =>
    rw [byteLength_cons] at h
    have := c.utf8Size_pos
    rw [dropBytes, if_neg (by omega), ih (by omega)]

/-- From the end on, the last boundary is the end. -/
theorem lastBoundary_of_byteLength_le {text : List Char} {n : Nat} (h : byteLength text ≤ n) :
    lastBoundary text n = byteLength text := by
  induction text generalizing n with
  | nil => rfl
  | cons c cs ih =>
    rw [byteLength_cons] at h
    rw [lastBoundary, if_pos (by omega), ih (by omega), byteLength_cons]

end TextGrammar.Text
