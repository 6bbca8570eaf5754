import TextGrammar.Text.Ranges
import TextGrammar.Text.Table.Word
import TextGrammar.Text.Table.Hidden

/-!
# Classes of characters, and quoted text

A class is given by the ranges of its code points.

* `isBlank` — the characters with the Unicode property White_Space.
* `isDigit`, `isWord` — decimal digits and the characters that make up words.
* `isShown` — the characters that stand for themselves when a text is quoted.
* `escape`, `quote` — one character and a whole text as messages show them, between quotation marks.
* `preview` — the beginning of a text in that form, or words for the empty text (`found`).
-/

namespace TextGrammar.Text

/-- Ranges of the property White_Space. -/
def blankRanges : List (Nat × Nat) := [
  (0x9, 0xd), (0x20, 0x20), (0x85, 0x85), (0xa0, 0xa0), (0x1680, 0x1680), (0x2000, 0x200a),
  (0x2028, 0x2029), (0x202f, 0x202f), (0x205f, 0x205f), (0x3000, 0x3000)]

/-- Ranges of the decimal digits from U+0080 on, both ends included, in increasing order. -/
def Table.digit : List (Nat × Nat) := [
  (0x660, 0x669), (0x6f0, 0x6f9), (0x7c0, 0x7c9), (0x966, 0x96f), (0x9e6, 0x9ef), (0xa66, 0xa6f),
  (0xae6, 0xaef), (0xb66, 0xb6f), (0xbe6, 0xbef), (0xc66, 0xc6f), (0xce6, 0xcef), (0xd66, 0xd6f),
  (0xde6, 0xdef), (0xe50, 0xe59), (0xed0, 0xed9), (0xf20, 0xf29), (0x1040, 0x1049),
  (0x1090, 0x1099), (0x17e0, 0x17e9), (0x1810, 0x1819), (0x1946, 0x194f), (0x19d0, 0x19d9),
  (0x1a80, 0x1a89), (0x1a90, 0x1a99), (0x1b50, 0x1b59), (0x1bb0, 0x1bb9), (0x1c40, 0x1c49),
  (0x1c50, 0x1c59), (0xa620, 0xa629), (0xa8d0, 0xa8d9), (0xa900, 0xa909), (0xa9d0, 0xa9d9),
  (0xa9f0, 0xa9f9), (0xaa50, 0xaa59), (0xabf0, 0xabf9), (0xff10, 0xff19), (0x104a0, 0x104a9),
  (0x10d30, 0x10d39), (0x10d40, 0x10d49), (0x11066, 0x1106f), (0x110f0, 0x110f9),
  (0x11136, 0x1113f), (0x111d0, 0x111d9), (0x112f0, 0x112f9), (0x11450, 0x11459),
  (0x114d0, 0x114d9), (0x11650, 0x11659), (0x116c0, 0x116c9), (0x116d0, 0x116e3),
  (0x11730, 0x11739), (0x118e0, 0x118e9), (0x11950, 0x11959), (0x11bf0, 0x11bf9),
  (0x11c50, 0x11c59), (0x11d50, 0x11d59), (0x11da0, 0x11da9), (0x11f50, 0x11f59),
  (0x16130, 0x16139), (0x16a60, 0x16a69), (0x16ac0, 0x16ac9), (0x16b50, 0x16b59),
  (0x16d70, 0x16d79), (0x1ccf0, 0x1ccf9), (0x1d7ce, 0x1d7ff), (0x1e140, 0x1e149),
  (0x1e2f0, 0x1e2f9), (0x1e4f0, 0x1e4f9), (0x1e5f1, 0x1e5fa), (0x1e950, 0x1e959),
  (0x1fbf0, 0x1fbf9)]

/-- Ranges of the decimal digits. -/
def digitRanges : List (Nat × Nat) := (0x30, 0x39) :: Table.digit

/-- Ranges of the word characters: in ASCII, digits, letters and the underscore. -/
def wordRanges : List (Nat × Nat) :=
  (0x30, 0x39) :: (0x41, 0x5a) :: (0x5f, 0x5f) :: (0x61, 0x7a) :: Table.word

/-- White space, with all line and paragraph separators. -/
def isBlank (c : Char) : Bool := inRanges blankRanges c.toNat

/-- A decimal digit of any script. -/
def isDigit (c : Char) : Bool := inRanges digitRanges c.toNat

/-- A character of a word: a letter, a mark, a digit, an underscore or one like it. -/
def isWord (c : Char) : Bool := inRanges wordRanges c.toNat

/-- A character that can be shown as it is: it has a sign of its own, or is the plain space. -/
def isShown (c : Char) : Bool :=
  if c.toNat < 0x80 then 0x20 ≤ c.toNat && c.toNat < 0x7f else !inRanges Table.hidden c.toNat

theorem separated_blankRanges : Separated 0 blankRanges := by decide

theorem separated_digitRanges : Separated 0 digitRanges := by decide +kernel

theorem separated_wordRanges : Separated 0 wordRanges := by decide +kernel

/-- The letters of ASCII, by their code points. -/
theorem isAlpha_iff (c : Char) : c.isAlpha = true ↔
    (65 ≤ c.toNat ∧ c.toNat ≤ 90) ∨ (97 ≤ c.toNat ∧ c.toNat ≤ 122) := by
  change (decide (c.val ≥ 'A'.val ∧ c.val ≤ 'Z'.val) ||
    (decide (c.val ≥ 'a'.val) && decide (c.val ≤ 'z'.val))) = true ↔ _
  simp only [Bool.or_eq_true, Bool.and_eq_true, decide_eq_true_eq]
  rfl

/-! ## Quoted text

A quotation mark and a backslash get a backslash, four controls have letters of their own, and every
other character that has no sign of its own is given by its number in hexadecimal digits between
braces. -/

/-- The number of a character, in hexadecimal digits between braces. -/
def numbered (c : Char) : List Char :=
  ['\\', 'u', '\x7b'] ++ Nat.toDigits 16 c.toNat ++ ['\x7d']

/-- A character as it is written between quotation marks. -/
def escape (c : Char) : List Char :=
  if c = '"' then ['\\', '"']
  else if c = '\\' then ['\\', '\\']
  else if c = '\x00' then ['\\', '0']
  else if c = '\t' then ['\\', 't']
  else if c = '\n' then ['\\', 'n']
  else if c = '\r' then ['\\', 'r']
  else if isShown c then [c]
  else numbered c

/-- A text between quotation marks. -/
def quoted (text : List Char) : List Char := ['"'] ++ text.flatMap escape ++ ['"']

/-- A string between quotation marks. -/
def quote (text : String) : String := String.ofList (quoted text.toList)

/-- How many characters of the text ahead a message shows. -/
def previewLength : Nat := 10

/-- The text ahead as a message shows it: its first characters, quoted, or that it has ended. -/
def preview : List Char → String
  | [] => "end of input"
  | text => String.ofList (quoted (text.take previewLength))

end TextGrammar.Text
