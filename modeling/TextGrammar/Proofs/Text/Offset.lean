import TextGrammar.Text.Offset

/-!
# Offsets behind a beginning, boundaries and slices

* `dropBytes_append`, `takeBytes_append`, `lastBoundary_append` — what lies at an offset behind a whole beginning of a
  text lies at the shifted offset of the rest.
* `isBoundary_lastBoundary`, `lastBoundary_eq_self_iff` — rounding gives a boundary, and keeps the
  offsets that are one already.
* `IsBoundary.add` — a boundary of the rest behind a boundary is a boundary of the text.
* `slice_append_slice` — adjacent slices make up one slice.
* `Text.Slices` — tokens that are slices of a text, one behind the other between two offsets, with
  gaps between them or without.
* `Text.Slices.append` — what lies between two offsets and between two later ones lies between the
  outer ones; `Text.Slices.flatMap_toList`: slices without gaps make up the text.
-/

namespace TextGrammar.Text

/-! ## Behind a beginning -/

/-- **Behind a whole beginning, only the offset in the rest counts.** -/
theorem dropBytes_append (before text : List Char) (n : Nat) :
    dropBytes (byteLength before + n) (before ++ text) = dropBytes n text := by
  induction before with
  | nil => simp
  | cons c cs ih =>
    have hc := c.utf8Size_pos
    rw [byteLength_cons, List.cons_append, dropBytes, if_neg (by omega)]
    rw [show c.utf8Size + byteLength cs + n - c.utf8Size = byteLength cs + n by omega]
    exact ih

/-- **Rounding commutes with putting a beginning in front.** -/
theorem lastBoundary_append (before text : List Char) (n : Nat) :
    lastBoundary (before ++ text) (byteLength before + n) =
      byteLength before + lastBoundary text n := by
  induction before with
  | nil => simp
  | cons c cs ih =>
    rw [byteLength_cons, List.cons_append, lastBoundary, if_pos (by omega)]
    rw [show c.utf8Size + byteLength cs + n - c.utf8Size = byteLength cs + n by omega, ih]
    omega

theorem takeBytes_append (before text : List Char) (n : Nat) :
    takeBytes (byteLength before + n) (before ++ text) = before ++ takeBytes n text := by
  induction before with
  | nil => simp
  | cons c cs ih =>
    rw [byteLength_cons, List.cons_append, takeBytes, if_pos (by omega)]
    rw [show c.utf8Size + byteLength cs + n - c.utf8Size = byteLength cs + n by omega, ih]
    rfl

theorem length_le_byteLength (text : List Char) : text.length ≤ byteLength text := by
  induction text with
  | nil => exact Nat.le_refl 0
  | cons c cs ih =>
    have hc := c.utf8Size_pos
    rw [byteLength_cons, List.length_cons]
    omega

theorem byteLength_pos {text : List Char} (h : text ≠ []) : 0 < byteLength text := by
  cases text with
  | nil => exact absurd rfl h
  | cons c cs =>
    have hc := c.utf8Size_pos
    rw [byteLength_cons]
    omega

/-! ## Boundaries -/

theorem exists_eq_takeBytes_append (text : List Char) (n : Nat) :
    ∃ after, text = takeBytes n text ++ after := by
  induction text generalizing n with
  | nil => exact ⟨[], rfl⟩
  | cons c cs ih =>
    rw [takeBytes]
    split
    · obtain ⟨after, h⟩ := ih (n - c.utf8Size)
      exact ⟨after, by rw [List.cons_append, ← h]⟩
    · exact ⟨c :: cs, rfl⟩

theorem isBoundary_zero (text : List Char) : IsBoundary text 0 := ⟨[], text, rfl, rfl⟩

theorem isBoundary_lastBoundary (text : List Char) (n : Nat) :
    IsBoundary text (lastBoundary text n) := by
  obtain ⟨after, h⟩ := exists_eq_takeBytes_append text n
  exact ⟨takeBytes n text, after, h, (lastBoundary_eq text n).symm⟩

theorem IsBoundary.le_byteLength {text : List Char} {n : Nat} (h : IsBoundary text n) :
    n ≤ byteLength text := by
  obtain ⟨before, after, rfl, rfl⟩ := h
  rw [byteLength_append]
  omega

theorem IsBoundary.lastBoundary_eq_self {text : List Char} {n : Nat} (h : IsBoundary text n) :
    lastBoundary text n = n := by
  obtain ⟨before, after, rfl, rfl⟩ := h
  rw [lastBoundary_eq, takeBytes_byteLength_append]

/-- An offset is a boundary if rounding keeps it. -/
theorem lastBoundary_eq_self_iff {text : List Char} {n : Nat} :
    lastBoundary text n = n ↔ IsBoundary text n := by
  constructor
  · intro h
    rw [← h]
    exact isBoundary_lastBoundary text n
  · exact IsBoundary.lastBoundary_eq_self

/-- What fits into a number of bytes fits into those that it takes. -/
theorem takeBytes_lastBoundary (text : List Char) (n : Nat) :
    takeBytes (lastBoundary text n) text = takeBytes n text := by
  obtain ⟨after, h⟩ := exists_eq_takeBytes_append text n
  have := takeBytes_byteLength_append (takeBytes n text) after
  rwa [← h, ← lastBoundary_eq] at this

/-- Behind a boundary, rounding is rounding in the rest. -/
theorem IsBoundary.lastBoundary_add {text : List Char} {n : Nat} (h : IsBoundary text n)
    (m : Nat) : lastBoundary text (n + m) = n + lastBoundary (dropBytes n text) m := by
  obtain ⟨before, after, rfl, rfl⟩ := h
  rw [lastBoundary_append, dropBytes_byteLength_append]

/-- A boundary of the rest behind a boundary is a boundary of the text. -/
theorem IsBoundary.add {text : List Char} {n m : Nat} (h : IsBoundary text n)
    (hm : IsBoundary (dropBytes n text) m) : IsBoundary text (n + m) := by
  have hround := isBoundary_lastBoundary text (n + m)
  rwa [h.lastBoundary_add, hm.lastBoundary_eq_self] at hround

theorem IsBoundary.dropBytes_add {text : List Char} {n : Nat} (h : IsBoundary text n) (m : Nat) :
    dropBytes (n + m) text = dropBytes m (dropBytes n text) := by
  obtain ⟨before, after, rfl, rfl⟩ := h
  rw [dropBytes_append, dropBytes_byteLength_append]

/-! ## Slices -/

/-- The slice from a boundary is the longest beginning of the rest that fits. -/
theorem slice_add (text : List Char) (n m : Nat) :
    slice text n (n + m) = takeBytes m (dropBytes n text) := by
  rw [slice, Nat.add_sub_cancel_left]

@[simp] theorem slice_self (text : List Char) (n : Nat) : slice text n n = [] := by
  rw [slice, Nat.sub_self]
  cases h : dropBytes n text with
  | nil => rfl
  | cons c cs =>
    have hc := c.utf8Size_pos
    rw [takeBytes, if_neg (by omega)]

/-- **Adjacent slices make up one slice.** -/
theorem slice_append_slice {text : List Char} {a b c : Nat} (ha : IsBoundary text a)
    (hb : IsBoundary text b) (hab : a ≤ b) (hbc : b ≤ c) :
    slice text a b ++ slice text b c = slice text a c := by
  obtain ⟨before, after, rfl, rfl⟩ := ha
  obtain ⟨m, rfl⟩ := Nat.exists_eq_add_of_le hab
  obtain ⟨k, rfl⟩ := Nat.exists_eq_add_of_le hbc
  have hm : IsBoundary after m := by
    have hround := hb.lastBoundary_eq_self
    rw [lastBoundary_append] at hround
    exact lastBoundary_eq_self_iff.1 (by omega)
  obtain ⟨front, back, rfl, rfl⟩ := hm
  rw [Nat.add_assoc, slice_add, slice_add, dropBytes_byteLength_append, ← Nat.add_assoc, slice_add,
    ← byteLength_append, ← List.append_assoc, dropBytes_byteLength_append, takeBytes_append,
    takeBytes_byteLength_append]

end TextGrammar.Text

/-! ## Slices one behind the other -/

namespace TextGrammar.Text

variable {gaps : Bool} {text : List Char} {a b c : Nat} {tokens tokens' : List String}

/-- The tokens are slices of the text, one behind the other between the offsets `a` and `b`.  Text
is left out between them only if there may be gaps. -/
inductive Slices (gaps : Bool) (text : List Char) : Nat → Nat → List String → Prop where
  | nil {a b : Nat} (hle : a ≤ b) (hgap : gaps = false → a = b) : Slices gaps text a b []
  | cons {a start stop b : Nat} {tokens : List String} (hle : a ≤ start)
      (hgap : gaps = false → a = start) (hstop : start ≤ stop) (hfirst : IsBoundary text start)
      (hlast : IsBoundary text stop) (htail : Slices gaps text stop b tokens) :
      Slices gaps text a b (String.ofList (slice text start stop) :: tokens)

namespace Slices

theorem refl (gaps : Bool) (text : List Char) (a : Nat) : Slices gaps text a a [] :=
  .nil (Nat.le_refl a) fun _ => rfl

theorem single (ha : IsBoundary text a) (hb : IsBoundary text b) (hab : a ≤ b) :
    Slices gaps text a b [String.ofList (slice text a b)] :=
  .cons (Nat.le_refl a) (fun _ => rfl) hab ha hb (refl gaps text b)

theorem le (h : Slices gaps text a b tokens) : a ≤ b := by
  induction h with
  | nil hle _ => exact hle
  | cons hle _ hstop _ _ _ ih => omega

/-- The slices behind an offset are behind an earlier one, if there may be a gap between. -/
theorem of_le (h : Slices gaps text b c tokens) (hab : a ≤ b) (hgap : gaps = false → a = b) :
    Slices gaps text a c tokens := by
  cases h with
  | nil hbc hgap' =>
    exact .nil (Nat.le_trans hab hbc) fun hg => (hgap hg).trans (hgap' hg)
  | cons hle hgap' hstop hfirst hlast htail =>
    exact .cons (Nat.le_trans hab hle) (fun hg => (hgap hg).trans (hgap' hg)) hstop hfirst hlast
      htail

theorem append (h : Slices gaps text a b tokens) (h' : Slices gaps text b c tokens') :
    Slices gaps text a c (tokens ++ tokens') := by
  induction h with
  | nil hle hgap => exact h'.of_le hle hgap
  | cons hle hgap hstop hfirst hlast _ ih => exact .cons hle hgap hstop hfirst hlast (ih h')

/-- Where there may be gaps, there may be one at the end. -/
theorem le_trans (h : Slices true text a b tokens) (hbc : b ≤ c) : Slices true text a c tokens := by
  have := h.append (.nil hbc fun hg => Bool.noConfusion hg)
  rwa [List.append_nil] at this

/-- Where there may be gaps, the last slices may be left out. -/
theorem of_append (h : Slices true text a b (tokens ++ tokens')) : Slices true text a b tokens := by
  induction tokens generalizing a with
  | nil => exact .nil h.le fun hg => Bool.noConfusion hg
  | cons token tokens ih =>
    cases h with
    | cons hle hgap hstop hfirst hlast htail =>
      exact .cons hle hgap hstop hfirst hlast (ih htail)

theorem loosen (h : Slices gaps text a b tokens) : Slices true text a b tokens := by
  induction h with
  | nil hle _ => exact .nil hle fun hg => Bool.noConfusion hg
  | cons hle _ hstop hfirst hlast _ ih =>
    exact .cons hle (fun hg => Bool.noConfusion hg) hstop hfirst hlast ih

/-- **Slices without gaps make up the text from one end to the other.** -/
theorem flatMap_toList (h : Slices false text a b tokens) (hb : IsBoundary text b) :
    tokens.flatMap String.toList = slice text a b := by
  induction h with
  | nil _ hgap => rw [hgap rfl, slice_self, List.flatMap_nil]
  | cons _ hgap hstop hfirst hlast htail ih =>
    rw [List.flatMap_cons, ih hb, String.toList_ofList, hgap rfl,
      slice_append_slice hfirst hlast hstop htail.le]

end Slices

end TextGrammar.Text
