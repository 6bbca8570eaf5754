import Mathlib.Algebra.Group.Nat.Defs
import TextGrammar.Proofs.Label
import TextGrammar.Proofs.Parser.Repetition

/-!
# How long messages are

A combination that fails names its parts by their labels and shows no more than the first characters
of the text ahead.  So its message has a bound that depends neither on the grammar nor on the input.

* `Text.byteLength_escape_le`, `Text.size_preview_le` — a character, and what is shown of a text.
* `Text.size_toString_le` — a number that is a word.
* `Parser.size_label_le` — a label.
* `Failure.size_neither_le` and others — each message, from the sizes of what it shows.
* `State.SaysWithin` — a state that has not failed, or whose message keeps to a number of bytes.
* `Parser.StartsRound` — where the rounds of a repetition up to the end of the input start.
* `Parser.says_within` — so all failures that combinations make themselves are bounded.
-/

namespace TextGrammar

/-! ## Shown text and numbers -/

namespace Text

/-- The digits of a number take one byte each. -/
theorem byteLength_toDigits {base : Nat} (hbase : 1 < base) (hbase' : base ≤ 16) (n : Nat) :
    byteLength (Nat.toDigits base n) = (Nat.toDigits base n).length := by
  have hdigit : ∀ d < 16, (Nat.digitChar d).utf8Size = 1 := by decide
  induction n using Nat.strongRecOn with
  | ind n ih =>
    rw [Nat.toDigits_eq_if hbase]
    split
    · next hlt => simp [hdigit n (by omega)]
    · next hge =>
      have hlt : n / base < n := Nat.div_lt_self (by omega) hbase
      have hlast : n % base < 16 := Nat.lt_of_lt_of_le (Nat.mod_lt n (by omega)) hbase'
      simp [ih _ hlt, hdigit _ hlast]

theorem byteLength_toDigits_le {base n k : Nat} (hbase : 1 < base) (hbase' : base ≤ 16)
    (hk : 0 < k) (hn : n < base ^ k) : byteLength (Nat.toDigits base n) ≤ k := by
  rw [byteLength_toDigits hbase hbase']
  exact (Nat.length_toDigits_le_iff hbase hk).2 hn

/-- The number of a character has six digits at most. -/
theorem byteLength_numbered_le (c : Char) : byteLength (numbered c) ≤ 10 := by
  have hc : c.toNat < 16 ^ 6 := by
    rcases c.valid with h | ⟨_, h⟩ <;> exact Nat.lt_trans h (by decide)
  have hdigits : byteLength (Nat.toDigits 16 c.toNat) ≤ 6 :=
    byteLength_toDigits_le (by decide) (by decide) (by decide) hc
  rw [numbered, byteLength_append, byteLength_append]
  exact Nat.add_le_add_right (Nat.add_le_add_left hdigits 3) 1

theorem byteLength_escape_le (c : Char) : byteLength (escape c) ≤ 10 := by
  unfold escape
  split_ifs
  iterate 6 decide
  · exact Nat.le_trans c.utf8Size_le_four (by decide)
  · exact byteLength_numbered_le c

theorem byteLength_quoted_le (text : List Char) :
    byteLength (quoted text) ≤ 10 * text.length + 2 := by
  have hescaped : byteLength (text.flatMap escape) ≤ 10 * text.length := by
    induction text with
    | nil => exact Nat.le_refl 0
    | cons c cs ih =>
      have hc := byteLength_escape_le c
      simp only [List.flatMap_cons, byteLength_append, List.length_cons]
      omega
  have hmark : byteLength ['"'] = 1 := rfl
  rw [quoted, byteLength_append, byteLength_append, hmark]
  omega

/-- **What a message shows of a text** takes ten bytes for each of ten characters, and the marks. -/
theorem size_preview_le (rest : List Char) : (preview rest).utf8ByteSize ≤ 102 := by
  unfold preview
  split
  · decide
  · have hquoted := byteLength_quoted_le (rest.take previewLength)
    have htake : (rest.take previewLength).length ≤ 10 := List.length_take_le _ _
    rw [utf8ByteSize_ofList]
    omega

/-- A word has twenty decimal digits at most. -/
theorem size_toString_le {n : Nat} (hn : n < 2 ^ 64) : (toString n).utf8ByteSize ≤ 20 := by
  rw [utf8ByteSize_eq, Nat.toString_eq_repr, Nat.toList_repr]
  exact byteLength_toDigits_le (by decide) (by decide) (by decide) (Nat.lt_trans hn (by decide))

end Text

/-! ## Messages -/

namespace Failure

variable {left right label : String} {k k' : Nat}

theorem size_expected_le (what : String) (rest : List Char) :
    (expected what rest).utf8ByteSize ≤ what.utf8ByteSize + 122 := by
  have hpreview := Text.size_preview_le rest
  have hexpected : "Expected ".utf8ByteSize = 9 := rfl
  have hfound : " but found ".utf8ByteSize = 11 := rfl
  simp only [expected, String.utf8ByteSize_append]
  omega

theorem size_neither_le (hleft : left.utf8ByteSize ≤ k) (hright : right.utf8ByteSize ≤ k') :
    (neither left right).message.utf8ByteSize ≤ k + k' + 21 := by
  have hneither : "Neither ".utf8ByteSize = 8 := rfl
  have hnor : " nor ".utf8ByteSize = 5 := rfl
  have hmatched : " matched".utf8ByteSize = 8 := rfl
  simp only [neither, String.utf8ByteSize_append]
  omega

theorem size_tooFew_le {least : Nat} (hleast : least < 2 ^ 64) (hlabel : label.utf8ByteSize ≤ k)
    (rest : List Char) : (tooFew least label rest).message.utf8ByteSize ≤ k + 155 := by
  have hnumber := Text.size_toString_le hleast
  have hmessage := size_expected_le ("at least " ++ toString least ++ " of " ++ label) rest
  have hat : "at least ".utf8ByteSize = 9 := rfl
  have hof : " of ".utf8ByteSize = 4 := rfl
  simp only [String.utf8ByteSize_append] at hmessage
  show (expected _ rest).utf8ByteSize ≤ _
  omega

theorem size_tooFewSeparated_le {least : Nat} (hleast : least < 2 ^ 64)
    (hleft : left.utf8ByteSize ≤ k) (hright : right.utf8ByteSize ≤ k') (rest : List Char) :
    (tooFewSeparated least left right rest).message.utf8ByteSize ≤ k + k' + 169 := by
  have hnumber := Text.size_toString_le hleast
  have hmessage := size_expected_le
    ("at least " ++ toString least ++ " of " ++ left ++ " separated by " ++ right) rest
  have hat : "at least ".utf8ByteSize = 9 := rfl
  have hof : " of ".utf8ByteSize = 4 := rfl
  have hseparated : " separated by ".utf8ByteSize = 14 := rfl
  simp only [String.utf8ByteSize_append] at hmessage
  show (expected _ rest).utf8ByteSize ≤ _
  omega

theorem size_stalled_le (hlabel : label.utf8ByteSize ≤ k) (rest : List Char) :
    (stalled label rest).message.utf8ByteSize ≤ k + 160 := by
  have hpreview := Text.size_preview_le rest
  have hexpected : "Expected ".utf8ByteSize = 9 := rfl
  have hbefore : " to consume input, but it matched nothing before ".utf8ByteSize = 49 := rfl
  simp only [stalled, String.utf8ByteSize_append]
  omega

end Failure

/-! ## Failures of combinations -/

/-- If the state has failed, its message takes no more bytes than the limit. -/
def State.SaysWithin {ν : Type} (limit : Nat) (t : State ν) : Prop :=
  ∀ f, t.failure = some f → f.message.utf8ByteSize ≤ limit

namespace State.SaysWithin

variable {ν : Type} {t : State ν} {limit limit' : Nat}

theorem mono (h : t.SaysWithin limit) (hle : limit ≤ limit') : t.SaysWithin limit' :=
  fun f hf => Nat.le_trans (h f hf) hle

theorem of_live (ht : t.failed = false) : t.SaysWithin limit := by
  intro f hf
  simp [failed, hf] at ht

theorem fail {f : Failure} (h : f.message.utf8ByteSize ≤ limit) (t : State ν) :
    (t.fail f).SaysWithin limit := by
  rintro _ ⟨⟩
  exact h

end State.SaysWithin

namespace Step

variable {ν : Type}

/-- A choice says the same of all branches, however they have failed. -/
theorem saysWithin_choiceFrom (start : Nat) {ps : List (Step ν)} {s t : State ν}
    (h : choiceFrom start ps s = some t) : t.SaysWithin 22 := by
  induction ps generalizing s with
  | nil =>
    cases h
    exact .fail (by decide) s
  | cons p ps ih =>
    obtain ⟨u, _, h⟩ := Option.bind_eq_some_iff.1 h
    split at h
    · exact ih h
    · rename_i hu
      cases h
      exact .of_live (by simpa using hu)

end Step

namespace Parser

variable {ν : Type} {around : Surroundings ν} {p q : Parser ν} {ps : List (Parser ν)}
  {s t : State ν} {g : Harvest ν} {least : Nat}

theorem size_label_le (p : Parser ν) : p.label.utf8ByteSize ≤ 67 := by
  rw [label_eq]
  exact (Label.shows_finish p.text).size_le

theorem EndsAmid.saysWithin_or (hs : s.failed = false) (h : (or p q).EndsAmid around s t) :
    t.SaysWithin 155 := by
  rcases (endsAmid_or_iff hs).1 h with ⟨_, ht⟩ | ⟨_, _, _, _, ht⟩ | ⟨u, w, _, _, _, _, rfl⟩
  · exact .of_live ht
  · exact .of_live ht
  · exact .fail (Failure.size_neither_le p.size_label_le q.size_label_le) _

theorem EndsAmid.saysWithin_choice (hs : s.failed = false)
    (h : (choice ps).EndsAmid around s t) : t.SaysWithin 22 := by
  obtain ⟨b, hrun⟩ := (endsAmid_iff_step hs).1 h
  rw [step] at hrun
  exact Step.saysWithin_choiceFrom s.cursor hrun

theorem EndsAmid.saysWithin_many (hleast : least < 2 ^ 64) (hs : s.failed = false)
    (h : (many least p).EndsAmid around s t) : t.SaysWithin 222 := by
  obtain ⟨g, _, rfl⟩ := (endsAmid_many_iff hs).1 h
  split
  · exact .fail (Failure.size_tooFew_le hleast p.size_label_le _) _
  · exact .of_live rfl

theorem EndsAmid.saysWithin_separated (hleast : least < 2 ^ 64) (hs : s.failed = false)
    (h : (separated least p q).EndsAmid around s t) : t.SaysWithin 303 := by
  obtain ⟨g, _, rfl⟩ := (endsAmid_separated_iff hs).1 h
  split
  · exact .fail (Failure.size_tooFewSeparated_le hleast p.size_label_le q.size_label_le _) _
  · exact .of_live rfl

/-- A repetition from the first state up to the end of the input starts a round in the second one:
every round before has succeeded and taken text, short of the end. -/
inductive StartsRound (around : Surroundings ν) (p : Parser ν) : State ν → State ν → Prop where
  | first {s : State ν} : StartsRound around p s s
  | next {s t u : State ν} (hp : p.EndsAmid around s t) (ht : t.failed = false)
      (hend : t.atEnd = false) (hne : t.cursor ≠ s.cursor)
      (hrest : StartsRound around p t.collected u) : StartsRound around p s u

/-- A failure of such a repetition is that of a round, or what it says itself. -/
theorem RepeatsToEnd.saysWithin (h : RepeatsToEnd around p g t) :
    (∃ u, StartsRound around p g.state u ∧ p.EndsAmid around u t ∧ t.failed = true) ∨
      t.SaysWithin 227 := by
  induction h with
  | stop hp ht => exact .inl ⟨_, .first, hp, ht⟩
  | done => exact .inr (.of_live rfl)
  | still => exact .inr (.fail (Failure.size_stalled_le p.size_label_le _) _)
  | next hp ht hend hne _ ih =>
    rcases ih with ⟨u, hu, hlast⟩ | hsays
    · exact .inl ⟨u, .next hp ht hend hne hu, hlast⟩
    · exact .inr hsays

/-- **What combinations say themselves is bounded**, whatever their parts are and whatever lies ahead.
From any state that has not failed, a choice of two takes no more than 155 bytes for its message, and
a choice of any number, repetitions and values with separators between them, if the number they
require is a word, no more than 303.  So does a repetition up to the end of the input, unless its last
round has failed, whose failure is passed on. -/
theorem says_within (around : Surroundings ν) {s t : State ν} (hs : s.failed = false) :
    (∀ p q, (or p q).EndsAmid around s t → t.SaysWithin 155) ∧
    (∀ ps, (choice ps).EndsAmid around s t → t.SaysWithin 303) ∧
    (∀ least p, least < 2 ^ 64 → (many least p).EndsAmid around s t → t.SaysWithin 303) ∧
    (∀ least p q, least < 2 ^ 64 → (separated least p q).EndsAmid around s t →
      t.SaysWithin 303) ∧
    ∀ p, (all p).EndsAmid around s t →
      (∃ u, StartsRound around p s u ∧ p.EndsAmid around u t ∧ t.failed = true) ∨
        t.SaysWithin 303 := by
  refine ⟨fun p q h => h.saysWithin_or hs, fun ps h => (h.saysWithin_choice hs).mono (by decide),
    fun least p hleast h => (h.saysWithin_many hleast hs).mono (by decide),
    fun least p q hleast h => h.saysWithin_separated hleast hs, fun p h => ?_⟩
  exact ((endsAmid_all_iff hs).1 h).saysWithin.imp_right fun hsays => hsays.mono (by decide)

/-- The widest message: the greatest number, two names that are cut, and ten characters that are shown
by their numbers. -/
theorem says_within_widest :
    ∃ t : State Nat,
      (separated (2 ^ 64 - 1) (named ("".pushn 'n' 65) (literal "x"))
          (named ("".pushn 'm' 65) comma)).EndsAmid []
        (.start (.ofChars (List.replicate 11 (Char.ofNat 0x10ffff)))) t ∧
      t.failure.map (fun f => f.message.utf8ByteSize) = some 303 ∧ t.SaysWithin 303 := by
  obtain ⟨t, hends, hsize⟩ : ∃ t : State Nat,
      (separated (2 ^ 64 - 1) (named ("".pushn 'n' 65) (literal "x"))
          (named ("".pushn 'm' 65) comma)).EndsAmid []
        (.start (.ofChars (List.replicate 11 (Char.ofNat 0x10ffff)))) t ∧
      t.failure.map (fun f => f.message.utf8ByteSize) = some 303 :=
    ⟨((separated (2 ^ 64 - 1) (named ("".pushn 'n' 65) (literal "x"))
          (named ("".pushn 'm' 65) comma)).runFrom 1 Scope.none
        (.start (.ofChars (List.replicate 11 (Char.ofNat 0x10ffff))))).get (by decide +kernel),
      ⟨1, (Option.some_get _).symm⟩, by decide +kernel⟩
  obtain ⟨_, _, _, hseparated, _⟩ := says_within [] (s := .start _) (t := t) rfl
  exact ⟨t, hends, hsize, hseparated _ _ _ (by decide) hends⟩

end Parser

end TextGrammar
