import TextGrammar.Text.Offset

/-!
# Inputs

An `Input` is a text prepared for parsing: its characters, its length in bytes, the table of its
newlines, and for every offset what lies there, each computed once.

* `Text.newlinesBefore` — the newlines before a position, counted in the text itself.
* `Text.newlineOffsets` — the table of the offsets of all newlines, in increasing order.
* `Text.lineAt` — the line of a position, read off the table by halving (`LineIndex.line`).
* `Text.Cut`, `Text.cuts` — the boundary at or before an offset and the text behind the offset, for
  all offsets of a text.
* `Input.drop`, `Input.floor` — the same read off the table; `drop_eq` and `floor_eq` say what they
  find there.
-/

namespace TextGrammar

namespace Text

/-! ## Lines -/

/-- Newlines that start before byte `n`. -/
def newlinesBefore : List Char → Nat → Nat
  | [], _ => 0
  | c :: cs, n =>
    if n = 0 then 0
    else (if c = '\n' then 1 else 0) + newlinesBefore cs (n - c.utf8Size)

/-- Offsets of the newlines of a text that starts at offset `start`. -/
def newlineOffsetsFrom : Nat → List Char → List Nat
  | _, [] => []
  | start, c :: cs =>
    if c = '\n' then start :: newlineOffsetsFrom (start + c.utf8Size) cs
    else newlineOffsetsFrom (start + c.utf8Size) cs

/-- Offsets of all newlines of a text, in increasing order. -/
def newlineOffsets (text : List Char) : Array Nat := (newlineOffsetsFrom 0 text).toArray

/-- The first index from `lo` to `hi` whose entry is not below `bound`, in a table whose entries
increase: the number of entries below `bound`. -/
def countBelow (table : Array Nat) (bound lo hi : Nat) : Nat :=
  if lo < hi then
    let mid := (lo + hi) / 2
    if table.getD mid 0 < bound then countBelow table bound (mid + 1) hi
    else countBelow table bound lo mid
  else lo
termination_by hi - lo

/-- The line (starting from 1) of byte `offset`, for the table of newlines. -/
def lineAt (newlines : Array Nat) (offset : Nat) : Nat :=
  1 + countBelow newlines offset 0 newlines.size

/-! ## Cuts -/

/-- What lies at an offset of a text: the last boundary at or before it, and the text from it on. -/
structure Cut where
  floor : Nat
  rest : List Char

/-- The cuts of a text that starts at offset `start`, one for every offset, behind those in
`before`. -/
def cutsFrom (start : Nat) (before : Array Cut) : List Char → Array Cut
  | [] => before.push ⟨start, []⟩
  | c :: cs =>
    cutsFrom (start + c.utf8Size)
      (before.push ⟨start, c :: cs⟩ ++ Array.replicate (c.utf8Size - 1) ⟨start, cs⟩) cs

/-- The cuts of a text, from offset 0 to its end. -/
def cuts (text : List Char) : Array Cut := cutsFrom 0 #[] text

theorem getElem?_cutsFrom_of_lt {start n : Nat} {before : Array Cut} (text : List Char)
    (h : n < before.size) : (cutsFrom start before text)[n]? = before[n]? := by
  induction text generalizing start before with
  | nil => simp [cutsFrom, Array.getElem?_push, Nat.ne_of_lt h]
  | cons c cs ih =>
    rw [cutsFrom, ih (by simp; omega), Array.getElem?_append_left (by simp; omega)]
    simp [Array.getElem?_push, Nat.ne_of_lt h]

theorem getElem?_cutsFrom (start : Nat) (before : Array Cut) (text : List Char) (n : Nat) :
    (cutsFrom start before text)[before.size + n]? =
      if n ≤ byteLength text then some ⟨start + lastBoundary text n, dropBytes n text⟩
      else none := by
  induction text generalizing start before n with
  | nil => cases n <;> simp [cutsFrom, lastBoundary, dropBytes]
  | cons c cs ih =>
    have hc := c.utf8Size_pos
    rw [cutsFrom]
    by_cases hn : c.utf8Size ≤ n
    · obtain ⟨k, rfl⟩ := Nat.exists_eq_add_of_le hn
      have := ih (start + c.utf8Size)
        (before.push ⟨start, c :: cs⟩ ++ Array.replicate (c.utf8Size - 1) ⟨start, cs⟩) k
      simp only [Array.size_append, Array.size_push, Array.size_replicate] at this
      rw [show before.size + 1 + (c.utf8Size - 1) + k = before.size + (c.utf8Size + k) by omega]
        at this
      rw [this]
      have : c.utf8Size ≠ 0 := by omega
      simp [lastBoundary, dropBytes, this, Nat.add_assoc]
    · have hlt : n < c.utf8Size := by omega
      rw [getElem?_cutsFrom_of_lt _ (by simp; omega)]
      cases n with
      | zero =>
        rw [Array.getElem?_append_left (by simp)]
        have : ¬ c.utf8Size ≤ 0 := by omega
        simp [lastBoundary, this]
      | succ n =>
        rw [Array.getElem?_append_right (by simp)]
        have h1 : before.size + (n + 1) - (before.size + 1) < c.utf8Size - 1 := by omega
        have h2 : n + 1 ≤ c.utf8Size + byteLength cs := by omega
        have h3 : n + 1 - c.utf8Size = 0 := by omega
        simp [lastBoundary, dropBytes, h1, h2, h3, hn]

/-- The table of cuts has an entry for every offset of the text, and no other. -/
theorem getElem?_cuts (text : List Char) (n : Nat) :
    (cuts text)[n]? =
      if n ≤ byteLength text then some ⟨lastBoundary text n, dropBytes n text⟩ else none := by
  simpa [cuts] using getElem?_cutsFrom 0 #[] text n

end Text

/-- A text to parse, with its length in bytes, the offsets of its newlines and its cuts. -/
structure Input where
  chars : List Char
  size : Nat := Text.byteLength chars
  newlines : Array Nat := Text.newlineOffsets chars
  cuts : Array Text.Cut := Text.cuts chars
  size_eq : size = Text.byteLength chars := by rfl
  newlines_eq : newlines = Text.newlineOffsets chars := by rfl
  cuts_eq : cuts = Text.cuts chars := by rfl

namespace Input

/-- Prepares a text. -/
def ofChars (chars : List Char) : Input := { chars }

/-- Prepares a string. -/
def ofString (text : String) : Input := ofChars text.toList

/-- The text from byte `offset` on. -/
def drop (input : Input) (offset : Nat) : List Char :=
  match input.cuts[offset]? with
  | some cut => cut.rest
  | none => []

/-- The last boundary at or before `offset`. -/
def floor (input : Input) (offset : Nat) : Nat :=
  match input.cuts[offset]? with
  | some cut => cut.floor
  | none => input.size

/-- The line (starting from 1) of byte `offset`. -/
def line (input : Input) (offset : Nat) : Nat := Text.lineAt input.newlines offset

@[simp] theorem chars_ofChars (chars : List Char) : (ofChars chars).chars = chars := rfl

theorem drop_eq (input : Input) (offset : Nat) :
    input.drop offset = Text.dropBytes offset input.chars := by
  unfold drop
  rw [input.cuts_eq, Text.getElem?_cuts]
  by_cases h : offset ≤ Text.byteLength input.chars
  · simp [h]
  · simp [h, Text.dropBytes_of_byteLength_le (Nat.le_of_not_le h)]

theorem floor_eq (input : Input) (offset : Nat) :
    input.floor offset = Text.lastBoundary input.chars offset := by
  unfold floor
  rw [input.cuts_eq, Text.getElem?_cuts]
  by_cases h : offset ≤ Text.byteLength input.chars
  · simp [h]
  · simp [h, input.size_eq, Text.lastBoundary_of_byteLength_le (Nat.le_of_not_le h)]

/-- Two inputs with the same characters are the same input. -/
@[ext] theorem ext {a b : Input} (h : a.chars = b.chars) : a = b := by
  obtain ⟨ca, sa, na, ka, hsa, hna, hka⟩ := a
  obtain ⟨cb, sb, nb, kb, hsb, hnb, hkb⟩ := b
  cases h
  cases hsa.trans hsb.symm
  cases hna.trans hnb.symm
  cases hka.trans hkb.symm
  rfl

end Input

end TextGrammar
