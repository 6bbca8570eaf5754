import TextGrammar.Text.Offset

/-!
# What regular expressions mean

The meaning of a regular expression, with nothing of how a text is searched: from a place in a text it
leads to places farther on, in the order in which they are preferred.  Of all matches, the one that
begins first is meant, and of those that begin there the preferred one.

* `Place` — a place in a text, by what can be seen from there.
* `Term` — expressions, as far as they have a meaning: no signs, no flags, no numbers of groups.
* `Term.ways` — where a match can end that begins at a place; `Term.onward_ways`: there or farther on.
* `Term.first` — the leftmost match, and of these the preferred one.
* `Term.MatchesIn` — the offsets are those of some match.
* `Term.Pinned` — every way through the expression asks for the start of the text;
  `Term.ways_eq_nil_of_pinned`, `Term.start_eq_zero_of_pinned`: so it matches nowhere else.
-/

namespace TextGrammar.Regex

/-- A match: the offsets of its start and of its end, in bytes. -/
structure Match where
  start : Nat
  stop : Nat
deriving DecidableEq, Repr

/-- A place in a text: the character before it, which is missing at the start, and the text ahead. -/
structure Place where
  before : Option Char
  ahead : List Char

namespace Place

/-- The place between two parts of a text. -/
def between (front ahead : List Char) : Place := ⟨front.getLast?, ahead⟩

/-- The second place is the first, or lies farther on. -/
def Precedes (x y : Place) : Prop :=
  y = x ∨ y.before.isSome = true ∧ y.ahead.length < x.ahead.length

namespace Precedes

variable {x y z : Place}

theorem refl (x : Place) : x.Precedes x := .inl rfl

theorem trans (hxy : x.Precedes y) (hyz : y.Precedes z) : x.Precedes z := by
  rcases hyz with rfl | ⟨hz, hlt⟩
  · exact hxy
  · rcases hxy with rfl | ⟨_, hlt'⟩
    · exact .inr ⟨hz, hlt⟩
    · exact .inr ⟨hz, Nat.lt_trans hlt hlt'⟩

/-- What lies behind some character stays so. -/
theorem isSome_before (h : x.Precedes y) (hx : x.before.isSome = true) : y.before.isSome = true := by
  rcases h with rfl | ⟨hy, _⟩
  · exact hx
  · exact hy

/-- A place from which as much is ahead is the same. -/
theorem eq_of_not_lt (h : x.Precedes y) (hnot : ¬ y.ahead.length < x.ahead.length) : y = x :=
  h.resolve_right fun hlt => hnot hlt.2

end Precedes

end Place

/-- What a regular expression means. -/
inductive Term where
  /-- The empty text. -/
  | empty
  /-- One character of a kind. -/
  | one (kind : Char → Bool)
  /-- A condition on the characters around a place. -/
  | look (holds : (before after : Option Char) → Bool)
  /-- One after the other. -/
  | seq (first second : Term)
  /-- One or the other, the first preferred. -/
  | alt (first second : Term)
  /-- A term from `least` to `most` times, without end if `most` is missing.  If `greedy`, more is
  preferred to less. -/
  | repeated (greedy : Bool) (least : Nat) (most : Option Nat) (t : Term)

namespace Term

/-! ## Ways through a term -/

/-- The places behind exactly so many rounds. -/
def copies (ways : Place → List Place) : Nat → Place → List Place
  | 0, x => [x]
  | n + 1, x => (ways x).flatMap (copies ways n)

/-- The places behind any number of rounds up to a greatest one.  A round that takes no character is
the last one. -/
def rounds (greedy : Bool) (ways : Place → List Place) : Nat → Place → List Place
  | 0, x => [x]
  | n + 1, x =>
    let more := (ways x).flatMap fun y =>
      if y.ahead.length < x.ahead.length then rounds greedy ways n y else [y]
    if greedy then more ++ [x] else x :: more

/-- The rounds that are left behind the least number of them; no more than there are characters
ahead, if there is no greatest number. -/
def left (least : Nat) (most : Option Nat) (x : Place) : Nat :=
  match most with
  | some most => most - least
  | none => x.ahead.length

/-- The places where a match can end that begins at a place, the preferred one first. -/
def ways : Term → Place → List Place
  | empty, x => [x]
  | one kind, x =>
    match x.ahead with
    | [] => []
    | c :: cs => if kind c then [⟨some c, cs⟩] else []
  | look holds, x => if holds x.before x.ahead.head? then [x] else []
  | seq t u, x => (t.ways x).flatMap u.ways
  | alt t u, x => t.ways x ++ u.ways x
  | repeated greedy least most t, x =>
    (copies t.ways least x).flatMap fun y => rounds greedy t.ways (left least most y) y

@[simp] theorem ways_one_nil (kind : Char → Bool) (before : Option Char) :
    (one kind).ways ⟨before, []⟩ = [] := rfl

@[simp] theorem ways_one_cons (kind : Char → Bool) (before : Option Char) (c : Char)
    (cs : List Char) :
    (one kind).ways ⟨before, c :: cs⟩ = if kind c then [⟨some c, cs⟩] else [] := rfl

/-- The terms lead from everywhere to the same places, in the same order. -/
def Same (t u : Term) : Prop := ∀ x, t.ways x = u.ways x

/-! ## Terms of everyday use -/

/-- The start of the text. -/
def textStart : Term := look fun before _ => before.isNone

/-- One or more characters of a kind, as many as there are. -/
def run (kind : Char → Bool) : Term := repeated true 1 none (one kind)

/-- A given character. -/
def char (c : Char) : Term := one (· = c)

/-- A carriage return and a newline, or else one of the two. -/
def lineEnd : Term := alt (seq (char '\r') (char '\n')) (alt (char '\n') (char '\r'))

/-! ## Matches -/

/-- The preferred match at the place before a text, which is at `offset` behind the character `before`. -/
def matchAt (t : Term) (before : Option Char) (offset : Nat) (text : List Char) : Option Match :=
  (t.ways ⟨before, text⟩).head?.map fun y =>
    ⟨offset, offset + (Text.byteLength text - Text.byteLength y.ahead)⟩

/-- The leftmost match from that place on, and of those at one place the preferred one. -/
def firstFrom (t : Term) (before : Option Char) (offset : Nat) : List Char → Option Match
  | [] => t.matchAt before offset []
  | c :: cs =>
    (t.matchAt before offset (c :: cs)).or (t.firstFrom (some c) (offset + c.utf8Size) cs)

/-- The leftmost match in a text, and of these the preferred one. -/
def first (t : Term) (text : List Char) : Option Match := t.firstFrom none 0 text

/-- The offsets are those of a match of the term in the text. -/
def MatchesIn (t : Term) (text : List Char) (m : Match) : Prop :=
  ∃ front piece back, text = front ++ (piece ++ back) ∧ m.start = Text.byteLength front ∧
    m.stop = Text.byteLength front + Text.byteLength piece ∧
    .between (front ++ piece) back ∈ t.ways (.between front (piece ++ back))

theorem Same.matchesIn {t u : Term} (h : t.Same u) {text : List Char} {m : Match}
    (hm : t.MatchesIn text m) : u.MatchesIn text m := by
  obtain ⟨front, piece, back, htext, hstart, hstop, hway⟩ := hm
  exact ⟨front, piece, back, htext, hstart, hstop, h _ ▸ hway⟩

/-! ## Where ways lead -/

/-- No way leads back. -/
def Onward (ways : Place → List Place) : Prop := ∀ x, ∀ y ∈ ways x, x.Precedes y

section
variable {w : Place → List Place} {greedy : Bool} {n : Nat} {x y z : Place}

/-- The last of the rounds may be told apart as well as the first. -/
theorem copies_succ' (w : Place → List Place) (n : Nat) (x : Place) :
    copies w (n + 1) x = (copies w n x).flatMap w := by
  induction n generalizing x with
  | zero => simp [copies]
  | succ n ih =>
    rw [copies, copies, List.flatMap_assoc]
    exact congrArg (List.flatMap · (w x)) (funext ih)

/-- More rounds lead to the place itself, or behind a round to what is left of them. -/
theorem mem_rounds_succ : z ∈ rounds greedy w (n + 1) x ↔
    z = x ∨ ∃ y ∈ w x, z ∈ if y.ahead.length < x.ahead.length then rounds greedy w n y else [y] := by
  rw [rounds]
  cases greedy with
  | false => simp only [Bool.false_eq_true, if_false, List.mem_cons, List.mem_flatMap]
  | true =>
    simp only [if_true, List.mem_append, List.mem_flatMap, List.mem_singleton]
    exact or_comm

theorem mem_rounds_self : x ∈ rounds greedy w n x := by
  cases n with
  | zero => exact List.mem_singleton_self x
  | succ n => exact mem_rounds_succ.2 (.inl rfl)

/-- More rounds lead to where fewer do. -/
theorem mem_rounds_of_le {m : Nat} (hmn : m ≤ n) (hz : z ∈ rounds greedy w m x) :
    z ∈ rounds greedy w n x := by
  induction n generalizing m x with
  | zero =>
    rw [Nat.le_zero] at hmn
    rwa [hmn] at hz
  | succ n ih =>
    cases m with
    | zero =>
      rw [List.mem_singleton.1 hz]
      exact mem_rounds_self
    | succ m =>
      rcases mem_rounds_succ.1 hz with rfl | ⟨y, hy, hz⟩
      · exact mem_rounds_self
      · refine mem_rounds_succ.2 (.inr ⟨y, hy, ?_⟩)
        split at hz
        · next hlt =>
          rw [if_pos hlt]
          exact ih (Nat.le_of_succ_le_succ hmn) hz
        · next hlt => rwa [if_neg hlt]

/-- A round that takes no character can be left out, and after any other the rest is ahead. -/
theorem Onward.mem_rounds_of_round (hw : Onward w) (hy : y ∈ w x) (hz : z ∈ rounds greedy w n y) :
    z ∈ rounds greedy w (n + 1) x := by
  by_cases hlt : y.ahead.length < x.ahead.length
  · exact mem_rounds_succ.2 (.inr ⟨y, hy, by rwa [if_pos hlt]⟩)
  · rw [(hw x y hy).eq_of_not_lt hlt] at hz
    exact mem_rounds_of_le (Nat.le_succ n) hz

/-- Without a greatest number, there are as many rounds as characters ahead. -/
theorem Onward.mem_rounds_length (hw : Onward w) (hy : y ∈ w x)
    (hz : z ∈ rounds greedy w y.ahead.length y) : z ∈ rounds greedy w x.ahead.length x := by
  rcases hw x y hy with rfl | ⟨-, hlt⟩
  · exact hz
  · exact mem_rounds_of_le hlt (hw.mem_rounds_of_round hy hz)

theorem Onward.copies (hw : Onward w) (n : Nat) : Onward (copies w n) := by
  induction n with
  | zero =>
    intro x y hy
    rw [List.mem_singleton.1 hy]
    exact .refl x
  | succ n ih =>
    intro x z hz
    obtain ⟨y, hy, hz⟩ := List.mem_flatMap.1 hz
    exact (hw x y hy).trans (ih y z hz)

theorem Onward.rounds (hw : Onward w) (greedy : Bool) (n : Nat) : Onward (rounds greedy w n) := by
  induction n with
  | zero =>
    intro x y hy
    rw [List.mem_singleton.1 hy]
    exact .refl x
  | succ n ih =>
    intro x z hz
    rcases mem_rounds_succ.1 hz with rfl | ⟨y, hy, hz⟩
    · exact .refl z
    · split at hz
      · exact (hw x y hy).trans (ih y z hz)
      · rw [List.mem_singleton.1 hz]
        exact hw x y hy

end

/-- **A match never ends before it begins.** -/
theorem onward_ways (t : Term) : Onward t.ways := by
  induction t with
  | empty =>
    intro x y hy
    rw [List.mem_singleton.1 hy]
    exact .refl x
  | one kind =>
    rintro ⟨before, ahead⟩ y hy
    cases ahead with
    | nil => cases hy
    | cons c cs =>
      simp only [ways] at hy
      split at hy
      · rw [List.mem_singleton.1 hy]
        exact .inr ⟨rfl, Nat.lt_succ_self _⟩
      · cases hy
  | look holds =>
    intro x y hy
    rw [ways] at hy
    split at hy
    · rw [List.mem_singleton.1 hy]
      exact .refl x
    · cases hy
  | seq t u iht ihu =>
    intro x z hz
    obtain ⟨y, hy, hz⟩ := List.mem_flatMap.1 hz
    exact (iht x y hy).trans (ihu y z hz)
  | alt t u iht ihu =>
    intro x y hy
    rcases List.mem_append.1 hy with hy | hy
    · exact iht x y hy
    · exact ihu x y hy
  | repeated greedy least most t ih =>
    intro x z hz
    obtain ⟨y, hy, hz⟩ := List.mem_flatMap.1 hz
    exact (ih.copies least x y hy).trans (ih.rounds greedy _ y z hz)

/-! ## Terms for the start of the text -/

/-- Every way through the term asks for the start of the text. -/
def Pinned : Term → Prop
  | empty => False
  | one _ => False
  | look holds => ∀ c after, holds (some c) after = false
  | seq t u => t.Pinned ∨ u.Pinned
  | alt t u => t.Pinned ∧ u.Pinned
  | repeated _ least _ t => 0 < least ∧ t.Pinned

theorem pinned_textStart : textStart.Pinned := fun _ _ => rfl

theorem pinned_seq_textStart (t : Term) : (seq textStart t).Pinned := Or.inl pinned_textStart

/-- **A pinned term matches nowhere but at the start.** -/
theorem ways_eq_nil_of_pinned {t : Term} (ht : t.Pinned) {x : Place} (hx : x.before.isSome = true) :
    t.ways x = [] := by
  induction t generalizing x with
  | empty => exact ht.elim
  | one kind => exact ht.elim
  | look holds =>
    obtain ⟨c, hc⟩ := Option.isSome_iff_exists.1 hx
    rw [ways, hc, ht c, if_neg Bool.false_ne_true]
  | seq t u iht ihu =>
    rcases ht with ht | hu
    · rw [ways, iht ht hx, List.flatMap_nil]
    · rw [ways, List.flatMap_eq_nil_iff]
      exact fun y hy => ihu hu ((onward_ways t x y hy).isSome_before hx)
  | alt t u iht ihu => rw [ways, iht ht.1 hx, ihu ht.2 hx, List.append_nil]
  | repeated greedy least most t ih =>
    obtain ⟨n, rfl⟩ := Nat.exists_eq_add_of_le' ht.1
    rw [ways, copies, ih ht.2 hx, List.flatMap_nil, List.flatMap_nil]

/-- Its matches begin where the text does. -/
theorem start_eq_zero_of_pinned {t : Term} (ht : t.Pinned) {text : List Char} {m : Match}
    (hm : t.MatchesIn text m) : m.start = 0 := by
  obtain ⟨front, piece, back, -, hstart, -, hway⟩ := hm
  cases front with
  | nil => exact hstart
  | cons c cs =>
    have hbefore : (Place.between (c :: cs) (piece ++ back)).before.isSome = true := by
      simp [Place.between]
    rw [ways_eq_nil_of_pinned ht hbefore] at hway
    cases hway

/-- So it is tried there only. -/
theorem first_of_pinned {t : Term} (ht : t.Pinned) (text : List Char) :
    t.first text = t.matchAt none 0 text := by
  have hat (c : Char) (offset : Nat) (text : List Char) :
      t.matchAt (some c) offset text = none := by
    rw [matchAt, ways_eq_nil_of_pinned ht rfl, List.head?_nil, Option.map_none]
  have hbehind (c : Char) (offset : Nat) (text : List Char) :
      t.firstFrom (some c) offset text = none := by
    induction text generalizing c offset with
    | nil => exact hat c offset []
    | cons d ds ih => rw [firstFrom, hat, Option.none_or, ih]
  cases text with
  | nil => rfl
  | cons c cs => rw [first, firstFrom, hbehind, Option.or_none]

/-- Behind a sign for the start of the text, a term is tried there only. -/
theorem first_seq_textStart (t : Term) (text : List Char) :
    (seq textStart t).first text = t.matchAt none 0 text := by
  have hways : (seq textStart t).ways ⟨none, text⟩ = t.ways ⟨none, text⟩ := by
    simp [ways, textStart]
  rw [first_of_pinned (pinned_seq_textStart t), matchAt, matchAt, hways]

end Term

end TextGrammar.Regex
