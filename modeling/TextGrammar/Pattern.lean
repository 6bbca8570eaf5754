import TextGrammar.Regex.Match
import TextGrammar.Regex.Reader

/-!
# Patterns

A pattern is a regular expression that is meant to match at the start of the text ahead, as
`Pattern.new` makes it.  Its source is put behind a sign for the start of the text, in a group, and
compiled as a whole.  So a source that closes that group, and opens another, has branches that may
match farther on.

Which texts are well formed and what they match is up to an engine, as `Regex.new` and `Regex.find`
are one: it compiles the text of a regular expression and then finds matches in other texts.  What is
built on one asks for no more than is said of it here.

* `Regex.Engine` — the function from texts to what finds their matches.
* `Regex.Engine.Finds` — all that is found are matches of what the text means.
* `Regex.Engine.builtIn` — the engine that reads expressions and runs their programs.
* `Pattern.ofSource?` — the pattern with a source, if the source is well formed in its frame
  (`pattern`, `Pattern.new`).
* `Regex.Engine.Frames`, `Regex.Engine.Searches` — what can be asked of an engine for sources in their
  frames, and for one such source.
* `Regex.Engine.Everyday` — the engine searches for a few sources of everyday use.
* `Pattern.letters`, `Pattern.digits`, `Pattern.whitespace`, `Pattern.newline` — the patterns with
  these sources (`letters`, `digits`, `whitespace`, `newline`).
-/

namespace TextGrammar

/-! ## Engines -/

namespace Regex

/-- Gives, for the text of a regular expression that is well formed, what finds its match in a text. -/
structure Engine where
  compile? : List Char → Option (List Char → Option Match)

namespace Engine

/-- Whatever is found for an expression is a match of what the expression means. -/
def Finds (E : Engine) (meaning : List Char → Term) : Prop :=
  ∀ source find, E.compile? source = some find →
    ∀ text m, find text = some m → (meaning source).MatchesIn text m

/-- The engine that reads expressions and runs their programs. -/
def builtIn : Engine where
  compile? text :=
    match Expr.read? text with
    | some e => some (Program.ofExpr e).search
    | none => none

end Engine

/-- What a text means as the built-in engine reads it. -/
def meaning (text : List Char) : Term :=
  match Expr.read? text with
  | some e => e.term
  | none => .empty

end Regex

/-! ## Sources in their frames -/

/-- A regular expression to match at the start of the text ahead: its source, and what finds its match
in a text. -/
structure Pattern where
  source : String
  find : List Char → Option Regex.Match

namespace Pattern

/-- The source in a group behind a sign for the start of the text. -/
def framed (source : String) : List Char := "^(?:".toList ++ source.toList ++ [')']

/-- The pattern with a source. -/
def ofSource? (E : Regex.Engine) (source : String) : Option Pattern :=
  match E.compile? (framed source) with
  | some find => some ⟨source, find⟩
  | none => none

/-- The pattern with a source that is known to be well formed. -/
def ofSource (E : Regex.Engine) (source : String)
    (wellFormed : (ofSource? E source).isSome = true) : Pattern :=
  (ofSource? E source).get wellFormed

theorem ofSource?_eq_some {E : Regex.Engine} {source : String}
    (h : (ofSource? E source).isSome = true) : ofSource? E source = some (ofSource E source h) :=
  (Option.some_get h).symm

/-- A pattern finds what the engine finds for its source in the frame. -/
theorem compile?_of_ofSource? {E : Regex.Engine} {source : String} {p : Pattern}
    (h : ofSource? E source = some p) : E.compile? (framed source) = some p.find := by
  rw [ofSource?] at h
  split at h
  · next hcompile =>
    cases h
    exact hcompile
  · cases h

end Pattern

/-! ## What is asked of engines -/

namespace Regex.Engine

variable {E : Engine} {source : String} {t : Term}

/-- A source that is well formed by itself, and in its frame too, means there what it means by itself,
at the start of the text. -/
def Frames (E : Engine) (meaning : List Char → Term) : Prop :=
  ∀ source : String, (E.compile? source.toList).isSome = true →
    (E.compile? (Pattern.framed source)).isSome = true →
      (meaning (Pattern.framed source)).Same (.seq .textStart (meaning source.toList))

/-- The source is well formed in its frame, and the search is for the leftmost match of the term at the
start of the text, and of these for the preferred one. -/
def Searches (E : Engine) (source : String) (t : Term) : Prop :=
  ∃ find, E.compile? (Pattern.framed source) = some find ∧
    ∀ text, find text = (Term.seq .textStart t).first text

theorem Searches.isSome (h : E.Searches source t) : (Pattern.ofSource? E source).isSome = true := by
  obtain ⟨find, hcompile, -⟩ := h
  rw [Pattern.ofSource?, hcompile]
  rfl

/-- The pattern with such a source finds what is searched for. -/
theorem Searches.find_eq (h : E.Searches source t) (text : List Char) :
    (Pattern.ofSource E source h.isSome).find text = (Term.seq .textStart t).first text := by
  obtain ⟨find, hcompile, hfind⟩ := id h
  have hpattern := Pattern.compile?_of_ofSource? (Pattern.ofSource?_eq_some h.isSome)
  rw [hcompile] at hpattern
  rw [← Option.some.inj hpattern]
  exact hfind text

/-- The engine knows the sources of everyday use. -/
structure Everyday (E : Engine) : Prop where
  letters : E.Searches "[A-Za-z]+" (.run Char.isAlpha)
  digits : E.Searches "[0-9]+" (.run Char.isDigit)
  whitespace : E.Searches "\\s+" (.run Text.isBlank)
  newline : E.Searches "\\r\\n|\\n|\\r" .lineEnd

end Regex.Engine

/-! ## Patterns of everyday use -/

namespace Pattern

variable {E : Regex.Engine} (hE : E.Everyday)

/-- One or more letters of ASCII. -/
def letters : Pattern := ofSource E "[A-Za-z]+" hE.letters.isSome

/-- One or more digits of ASCII. -/
def digits : Pattern := ofSource E "[0-9]+" hE.digits.isSome

/-- One or more characters of white space, among them newlines. -/
def whitespace : Pattern := ofSource E "\\s+" hE.whitespace.isSome

/-- The end of one line: a carriage return with a newline behind it, or one of the two alone. -/
def newline : Pattern := ofSource E "\\r\\n|\\n|\\r" hE.newline.isSome

end Pattern

end TextGrammar
