import TextGrammar.Value

/-!
# Nested lists of numbers

The language of nested lists: a run of digits is a word, and so are brackets around any number of
words with commas between them, where one comma more may stand behind the last.

* `NestedList.Word` — the words, each with the value that it stands for.
* `NestedList.LongestWord` — the longest beginning of a text that is a word.
* `NestedList.Tree` — finite trees of digits, with the text and the value of each; `Tree.word` says
  that the text is a word for the value.
-/

namespace TextGrammar.NestedList

variable {ν : Type}

/-! ## Words -/

mutual

/-- `Word w v`: the text `w` is a word of the language, and stands for `v`. -/
inductive Word : List Char → Value ν → Prop where
  | digits {w : List Char} (hne : w ≠ []) (hw : ∀ c ∈ w, c.isDigit = true) :
      Word w (.token (String.ofList w))
  | brackets {w : List Char} {items : List (Value ν)} (h : Members w items) :
      Word ('[' :: (w ++ [']'])) (.list items)

/-- `Members w items`: the text `w` may stand between brackets, and its words stand for `items`. -/
inductive Members : List Char → List (Value ν) → Prop where
  | none : Members [] []
  | last {w : List Char} {v : Value ν} (h : Word w v) : Members w [v]
  | more {w rest : List Char} {v : Value ν} {items : List (Value ν)} (h : Word w v)
      (hrest : Members rest items) : Members (w ++ ',' :: rest) (v :: items)

end

/-- The text `w` is a word that stands for `v`, and no longer beginning of the text is a word. -/
structure LongestWord (text w : List Char) (v : Value ν) : Prop where
  word : Word w v
  beginning : w <+: text
  longest : ∀ w' v', Word w' (v' : Value ν) → w' <+: text → w'.length ≤ w.length

/-! ## Trees -/

/-- A run of digits. -/
structure Numeral where
  chars : List Char
  chars_ne_nil : chars ≠ []
  isDigit : ∀ c ∈ chars, c.isDigit = true

/-- A finite tree with runs of digits at its leaves. -/
inductive Tree where
  | leaf (numeral : Numeral)
  | node (children : List Tree)

namespace Tree

mutual

/-- A tree in brackets and commas. -/
def render : Tree → List Char
  | leaf numeral => numeral.chars
  | node children => '[' :: (renderAll children ++ [']'])

/-- Trees with commas between them. -/
def renderAll : List Tree → List Char
  | [] => []
  | [t] => t.render
  | t :: u :: ts => t.render ++ ',' :: renderAll (u :: ts)

end

mutual

/-- The tree as a value. -/
def value : Tree → Value ν
  | leaf numeral => .token (String.ofList numeral.chars)
  | node children => .list (values children)

/-- Trees as values. -/
def values : List Tree → List (Value ν)
  | [] => []
  | t :: ts => t.value :: values ts

end

mutual

/-- **A tree is written as a word that stands for it.** -/
theorem word : ∀ t : Tree, Word t.render (t.value : Value ν)
  | leaf numeral => by
    rw [render, value]
    exact .digits numeral.chars_ne_nil numeral.isDigit
  | node children => by
    rw [render, value]
    exact .brackets (members children)

theorem members : ∀ ts : List Tree, Members (renderAll ts) (values ts : List (Value ν))
  | [] => by
    rw [renderAll, values]
    exact .none
  | [t] => by
    rw [renderAll, values, values]
    exact .last (word t)
  | t :: u :: ts => by
    rw [renderAll, values]
    exact .more (word t) (members (u :: ts))

end

end Tree

end TextGrammar.NestedList
