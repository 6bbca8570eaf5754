import TextGrammar.Proofs.Patterns
import TextGrammar.Proofs.Regex.Run
import TextGrammar.Proofs.Step.Takes

/-!
# Scanners

The patterns of everyday use do what plain scanners do: three take the longest run of characters of a
class, and one takes the end of one line.

* `Text.LongestRun`, `Text.LineEnd` — the pieces that they take.
* `Parser.Scans` — a parser that ends in every state, by what such a scanner takes of the text ahead.
* `Parser.patterns_scan` — so letters, digits, white space and ends of lines are taken.
-/

namespace TextGrammar

/-! ## Pieces -/

namespace Text

/-- The longest beginning of the text that has characters of the kind only. -/
structure LongestRun (kind : Char → Bool) (text run : List Char) : Prop where
  isPrefix : run <+: text
  all : ∀ c ∈ run, kind c = true
  longest : ∀ other, other <+: text → (∀ c ∈ other, kind c = true) → other <+: run

theorem longestRun_takeWhile (kind : Char → Bool) (text : List Char) :
    LongestRun kind text (text.takeWhile kind) where
  isPrefix := List.takeWhile_prefix kind
  all _ hc := List.all_eq_true.1 List.all_takeWhile _ hc
  longest := by
    rintro other ⟨back, rfl⟩ hall
    rw [List.takeWhile_append_of_pos hall]
    exact List.prefix_append _ _

/-- Whether a line may end with the character. -/
def endsLine (c : Char) : Bool := c = '\r' || c = '\n'

/-- The end of a line at the beginning of the text: a carriage return and a newline if they are
there, and one byte otherwise. -/
structure LineEnd (text piece : List Char) : Prop where
  isPrefix : piece <+: text
  pair : ['\r', '\n'] <+: text → piece = ['\r', '\n']
  single : ¬ ['\r', '\n'] <+: text → byteLength piece = 1

/-- A text starts with a pair if it has the second character behind the first. -/
theorem pair_prefix_iff {a b c : Char} {text : List Char} :
    [a, b] <+: c :: text ↔ c = a ∧ text.head? = some b := by
  rw [List.cons_prefix_cons, List.head?_eq_some_iff]
  refine and_congr eq_comm ⟨fun ⟨back, h⟩ => ⟨back, h.symm⟩, fun ⟨back, h⟩ => ⟨back, h.symm⟩⟩

/-- Something is taken if and only if the text starts with a character that may end a line. -/
theorem lineEnd_ne_nil_iff (text : List Char) :
    lineEnd text ≠ [] ↔ ∃ c rest, text = c :: rest ∧ endsLine c = true := by
  cases text with
  | nil => simp [lineEnd]
  | cons c text =>
    rw [lineEnd]
    simp only [endsLine]
    split_ifs with hreturn hnext hnewline <;> simp_all

theorem lineEnd_spec {text : List Char} (h : lineEnd text ≠ []) :
    LineEnd text (lineEnd text) where
  isPrefix := lineEnd_prefix text
  pair hpair := by
    cases text with
    | nil => simp at hpair
    | cons c text =>
      obtain ⟨hreturn, hnext⟩ := pair_prefix_iff.1 hpair
      rw [lineEnd, if_pos hreturn, if_pos hnext]
  single hpair := by
    cases text with
    | nil => exact absurd rfl h
    | cons c text =>
      rw [pair_prefix_iff, not_and] at hpair
      rw [lineEnd] at h ⊢
      split_ifs with hreturn hnext hnewline
      · exact absurd hnext (hpair hreturn)
      · rfl
      · rfl
      · rw [if_neg hreturn, if_neg hnewline] at h
        exact absurd rfl h

end Text

/-! ## Parsers -/

namespace Parser

variable {ν : Type} {around : Surroundings ν} {s : State ν}

/-- Run from `s`, the parser ends.  It succeeds if and only if the text ahead starts with a character
that it may start with, and then it has taken a piece of that text and produced it.  Otherwise it has
failed, as a pattern that does not match, where it was run. -/
def Scans (around : Surroundings ν) (p : Parser ν) (starts : Char → Bool)
    (Piece : List Char → List Char → Prop) (s : State ν) : Prop :=
  ∃ t, p.EndsAmid around s t ∧
    (t.failed = false ↔ ∃ c rest, s.rest = c :: rest ∧ starts c = true) ∧
    (t.failed = false →
      ∃ piece, Piece s.rest piece ∧ s.Took piece (.token (String.ofList piece)) .keep t) ∧
    (t.failed = true → ∃ f, f.kind = .patternMismatch ∧ s.Refused f 0 t)

/-- **A pattern that finds what a scanner takes makes a parser that scans.** -/
theorem scans_of_findsBy {p : Pattern} {scan : List Char → List Char} {starts : Char → Bool}
    {Piece : List Char → List Char → Prop} (hp : p.FindsBy scan)
    (hstarts : ∀ text, scan text ≠ [] ↔ ∃ c rest, text = c :: rest ∧ starts c = true)
    (hfront : ∀ text, scan text <+: text)
    (hpiece : ∀ text, scan text ≠ [] → Piece text (scan text)) (hs : s.failed = false)
    (hb : s.OnBoundary) : (pattern p).Scans around starts Piece s := by
  have hat : s.At s.rest := ⟨hs, hb, rfl⟩
  by_cases hnil : scan s.rest = []
  · obtain ⟨t, ht, hrefused⟩ := Step.refuses_pattern hp hnil s hat
    refine ⟨t, (endsAmid_pattern_iff hs).2 ht, ?_, fun hlive => ?_, fun _ => ⟨_, rfl, hrefused⟩⟩
    · rw [← hstarts, hrefused.failed]
      exact iff_of_false Bool.noConfusion (not_not.2 hnil)
    · rw [hrefused.failed] at hlive
      cases hlive
  · obtain ⟨back, hback⟩ := hfront s.rest
    obtain ⟨t, ht, htook⟩ := Step.takes_pattern hp (congrArg scan hback) hnil s (by rwa [hback])
    refine ⟨t, (endsAmid_pattern_iff hs).2 ht, ?_, fun _ => ⟨_, hpiece _ hnil, htook⟩,
      fun hfailed => ?_⟩
    · rw [← hstarts]
      exact iff_of_true htook.failed hnil
    · rw [htook.failed] at hfailed
      cases hfailed

/-- The longest run of characters of a kind is taken where there is one. -/
theorem scans_longestRun {p : Pattern} {kind : Char → Bool}
    (hp : p.FindsBy (List.takeWhile kind)) (hs : s.failed = false) (hb : s.OnBoundary) :
    (pattern p).Scans around kind (Text.LongestRun kind) s := by
  refine scans_of_findsBy hp (fun text => ?_) (fun _ => List.takeWhile_prefix kind)
    (fun text _ => Text.longestRun_takeWhile kind text) hs hb
  cases text with
  | nil => simp
  | cons c text => simp [List.takeWhile_cons]

/-- **Patterns of everyday use are scanners.**  From any state that has not failed, letters, digits and
white space are taken if such a character comes next, and then in the longest run that there is; and
the end of a line is taken if a carriage return or a newline comes next, and then both if they are
there in this order, and one byte otherwise.  In all other cases these parsers fail where they are run,
as patterns that do not match. -/
theorem patterns_scan {E : Regex.Engine} (hE : E.Everyday) (around : Surroundings ν)
    (hs : s.failed = false) (hb : s.OnBoundary) :
    (letters hE).Scans around Char.isAlpha (Text.LongestRun Char.isAlpha) s ∧
    (digits hE).Scans around Char.isDigit (Text.LongestRun Char.isDigit) s ∧
    (whitespace hE).Scans around Text.isBlank (Text.LongestRun Text.isBlank) s ∧
    (newline hE).Scans around Text.endsLine Text.LineEnd s :=
  ⟨scans_longestRun (Pattern.findsBy_letters hE) hs hb,
    scans_longestRun (Pattern.findsBy_digits hE) hs hb,
    scans_longestRun (Pattern.findsBy_whitespace hE) hs hb,
    scans_of_findsBy (Pattern.findsBy_newline hE) Text.lineEnd_ne_nil_iff Text.lineEnd_prefix
      (fun _ => Text.lineEnd_spec) hs hb⟩

open Regex.Engine (everyday_builtIn)

/-- A carriage return is taken with the newline behind it, and another newline is left. -/
theorem patterns_scan_pair :
    ∃ t : State Nat,
      (newline everyday_builtIn).EndsAmid []
          ((State.start (.ofString "é\r\n\n")).advance 2 .absent) t ∧
      ((State.start (.ofString "é\r\n\n")).advance 2 .absent).Took ['\r', '\n']
        (.token (String.ofList ['\r', '\n'])) .keep t := by
  have hrest : ((State.start (.ofString "é\r\n\n")).advance 2 .absent : State Nat).rest =
      ['\r', '\n', '\n'] := by decide +kernel
  obtain ⟨_, _, _, t, ht, hiff, htakes, _⟩ :=
    patterns_scan everyday_builtIn []
      (s := ((State.start (.ofString "é\r\n\n")).advance 2 .absent : State Nat)) rfl
      (State.onBoundary_advance _ _ _)
  obtain ⟨piece, hpiece, htook⟩ := htakes (hiff.2 ⟨'\r', ['\n', '\n'], hrest, rfl⟩)
  rw [hpiece.pair (by rw [hrest]; exact ⟨['\n'], rfl⟩)] at htook
  exact ⟨t, ht, htook⟩

end Parser

end TextGrammar
