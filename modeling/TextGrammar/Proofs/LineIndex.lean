import TextGrammar.Proofs.Reachable
import TextGrammar.Proofs.Text.Lines
import TextGrammar.Text.Bytes

/-!
# Lines by the shared index

However often and in whatever order the states of a parse are asked for their lines, they answer by
counting the newlines before them.

* `Text.newlinePositions_bytes` — the newlines among the bytes of a text are the newlines of the text.
* `Text.newlinesBefore_eq_count` — so are those before an offset, be it a boundary or not.
* `LineIndex.Fits` — an index that is empty or filled from the input; `LineIndex.Fits.line_eq`: by such
  an index lines are what they are.
* `Family` — the states that have come from one start, with the index that they share.
* `Family.CameFrom.sound` — the invariant: the states are of the input, and the index fits it.
* `Family.lines_counted` — so the lines that the states tell are counted.
-/

namespace TextGrammar

/-! ## Newlines among bytes -/

namespace Text

/-- Only a newline has the byte of a newline in its form: in longer forms all bytes are above it. -/
theorem eq_newline_of_mem {c : Char} (h : newlineByte ∈ String.utf8EncodeChar c) : c = '\n' := by
  have high : ∀ x y : UInt8, 128 ≤ y.toNat → newlineByte ≠ x ||| y := by
    rintro x y hy heq
    have hle : y.toNat ≤ (x ||| y).toNat := by
      rw [UInt8.toNat_or]
      exact Nat.right_le_or
    rw [← heq] at hle
    exact absurd (Nat.le_trans hy hle) (by decide)
  rcases c.utf8Size_eq with hsize | hsize | hsize | hsize
  · rw [String.utf8EncodeChar_eq_singleton hsize, List.mem_singleton] at h
    have hle : c.val ≤ 0x7f := Char.utf8Size_eq_one_iff.1 hsize
    have hval : c.val.toNat % 256 = 10 := by
      rw [← UInt32.toNat_toUInt8, ← h]
      rfl
    have hsmall : c.val.toNat ≤ 127 := hle
    exact Char.toNat_inj.1 (show c.val.toNat = 10 by omega)
  · rw [String.utf8EncodeChar_eq_cons_cons hsize] at h
    simp [high] at h
  · rw [String.utf8EncodeChar_eq_cons_cons_cons hsize] at h
    simp [high] at h
  · rw [String.utf8EncodeChar_eq_cons_cons_cons_cons hsize] at h
    simp [high] at h

theorem bytes_cons (c : Char) (cs : List Char) :
    bytes (c :: cs) = String.utf8EncodeChar c ++ bytes cs := rfl

/-- **The newlines among the bytes of a text are its newlines.** -/
theorem newlinePositions_bytes (text : List Char) :
    newlinePositions (bytes text) = newlineOffsets text := by
  suffices hall : ∀ start,
      (((bytes text).zipIdx start).filter fun entry => entry.1 == newlineByte).map Prod.snd =
        newlineOffsetsFrom start text from congrArg List.toArray (hall 0)
  induction text with
  | nil => exact fun _ => rfl
  | cons c cs ih =>
    intro start
    rw [bytes_cons, List.zipIdx_append, List.filter_append, List.map_append,
      String.length_utf8EncodeChar, ih, newlineOffsetsFrom]
    split
    · next hc =>
      subst hc
      rfl
    · next hc =>
      have hnone : ((String.utf8EncodeChar c).zipIdx start).filter
          (fun entry => entry.1 == newlineByte) = [] := by
        refine List.filter_eq_nil_iff.2 fun entry hentry heq => hc (eq_newline_of_mem ?_)
        rw [← eq_of_beq heq]
        exact List.fst_mem_of_mem_zipIdx hentry
      rw [hnone, List.map_nil, List.nil_append]

/-- **The newlines before an offset are those among the bytes before it.** -/
theorem newlinesBefore_eq_count (text : List Char) (n : Nat) :
    newlinesBefore text n = ((bytes text).take n).count newlineByte := by
  induction text generalizing n with
  | nil => rw [bytes, List.flatMap_nil, List.take_nil, newlinesBefore, List.count_nil]
  | cons c cs ih =>
    rw [bytes_cons, List.take_append, List.count_append, String.length_utf8EncodeChar, ← ih,
      newlinesBefore]
    rcases Nat.eq_zero_or_pos n with rfl | hn
    · cases cs <;> simp [newlinesBefore]
    · rw [if_neg (Nat.ne_of_gt hn)]
      congr 1
      split
      · next hc =>
        have hform : String.utf8EncodeChar '\n' = [newlineByte] := rfl
        rw [hc, hform, List.take_of_length_le hn, List.count_singleton_self]
      · next hc =>
        refine (List.count_eq_zero.2 fun hmem => hc (eq_newline_of_mem ?_)).symm
        exact List.mem_of_mem_take hmem

end Text

/-! ## Indices -/

/-- The line of an offset counts the newlines among the bytes before it. -/
theorem Input.line_eq_count (input : Input) (offset : Nat) :
    input.line offset = 1 + ((Text.bytes input.chars).take offset).count Text.newlineByte := by
  rw [line_eq, Text.newlinesBefore_eq_count]

namespace LineIndex

variable {ν : Type} {index : LineIndex} {input : Input}

/-- The index is empty, or was filled from the input. -/
def Fits (index : LineIndex) (input : Input) : Prop :=
  ∀ table, index.positions = some table → table = Text.newlinePositions (Text.bytes input.chars)

theorem fits_empty (input : Input) : empty.Fits input := nofun

theorem Fits.table_eq (h : index.Fits input) : index.table input = input.newlines := by
  rw [input.newlines_eq, ← Text.newlinePositions_bytes, table]
  cases hpositions : index.positions with
  | none => rfl
  | some table => exact h table hpositions

theorem Fits.filled (h : index.Fits input) : (index.filled input).Fits input := by
  rintro _ ⟨⟩
  rw [h.table_eq, input.newlines_eq, Text.newlinePositions_bytes]

/-- **By an index that fits the input, lines are what they are.** -/
theorem Fits.line_eq (h : index.Fits input) (offset : Nat) :
    index.line input offset = input.line offset := by
  rw [line, h.table_eq, Input.line]

theorem Fits.error?_eq {s : State ν} (h : index.Fits s.input) : index.error? s = s.error? := by
  simp only [error?, State.error?, lineOf, h.line_eq, State.line]

theorem Fits.outcome_eq {s : State ν} (h : index.Fits s.input) : index.outcome s = s.outcome := by
  unfold outcome State.outcome State.error?
  cases s.failure with
  | none => rfl
  | some f => simp only [Option.map_some, h.line_eq, State.line]

end LineIndex

/-! ## States that share an index -/

/-- States that have come from one start, and the index that they share. -/
structure Family (ν : Type) where
  members : List (State ν)
  index : LineIndex

namespace Family

variable {ν : Type} {input : Input} {F F' : Family ν}

/-- The start of an input, which nobody has asked for its line. -/
def start (input : Input) : Family ν := ⟨[.start input], .empty⟩

/-- One state more. -/
def join (F : Family ν) (t : State ν) : Family ν := { F with members := t :: F.members }

/-- The index is used by a state. -/
def ask (F : Family ν) (s : State ν) : Family ν := { F with index := F.index.filled s.input }

/-- What can happen in a family: one of its states is asked for its line or for what it reports, or
another state is made of one, by an operation or by a parser.  The one can be used again.  The lines
that a run asks for on its way are of the same input, so that they fill the index as if they had been
asked for before it. -/
inductive Grows : Family ν → Family ν → Prop where
  | ask {F : Family ν} {s : State ν} (hs : s ∈ F.members) : Grows F (F.ask s)
  | move {F : Family ν} {s t : State ν} (hs : s ∈ F.members) (h : s.Move t) : Grows F (F.join t)
  | run {F : Family ν} {around : Surroundings ν} (haround : ∀ r ∈ around, r.2.ActsByMoves)
      {p : Parser ν} (hp : p.ActsByMoves) {s t : State ν} (hs : s ∈ F.members)
      (h : p.EndsAmid around s t) : Grows F (F.join t)

/-- The family has come from the start of an input, by any number of such steps. -/
def CameFrom (input : Input) (F : Family ν) : Prop := Relation.ReflTransGen Grows (start input) F

/-- The invariant of families. -/
structure Sound (input : Input) (F : Family ν) : Prop where
  reachable : ∀ s ∈ F.members, s.Reachable input
  fits : F.index.Fits input

theorem sound_start (input : Input) : Sound input (start input : Family ν) where
  reachable s hs := by
    rw [List.mem_singleton.1 hs]
    exact .start
  fits := LineIndex.fits_empty input

namespace Sound

theorem join (h : Sound input F) {t : State ν} (ht : t.Reachable input) :
    Sound input (F.join t) where
  reachable := List.forall_mem_cons.2 ⟨ht, h.reachable⟩
  fits := h.fits

theorem input_eq (h : Sound input F) {s : State ν} (hs : s ∈ F.members) : s.input = input :=
  (h.reachable s hs).leadsTo_start.input

theorem ask (h : Sound input F) {s : State ν} (hs : s ∈ F.members) : Sound input (F.ask s) where
  reachable := h.reachable
  fits := by
    rw [Family.ask, h.input_eq hs]
    exact h.fits.filled

/-- **Whatever happens in a family keeps its states on the input and its index that of the input.** -/
theorem grows (h : Sound input F) (hgrows : F.Grows F') : Sound input F' := by
  cases hgrows with
  | ask hs => exact h.ask hs
  | move hs hmove => exact h.join (.move (h.reachable _ hs) hmove)
  | run haround hp hs hends => exact h.join (.run haround hp (h.reachable _ hs) hends)

end Sound

theorem CameFrom.sound (h : F.CameFrom input) : Sound input F := by
  induction h with
  | refl => exact sound_start input
  | tail _ hgrows ih => exact ih.grows hgrows

/-- **Lines are counted.**  In whatever way a family has come from the start of an input, and whichever
of its states have been asked for their lines before, each of its states tells by the shared index that
it is on the line that counting the newlines before it gives; so does its report if it has failed, and
so do all states of the input that a run of it comes to.  Hence a state farther on is not on an earlier
line, and there is one line more than there are newlines at most. -/
theorem lines_counted (h : F.CameFrom input) {s : State ν} (hs : s ∈ F.members) :
    F.index.lineOf s = 1 + ((Text.bytes input.chars).take s.cursor).count Text.newlineByte ∧
    (∀ t : State ν, t.input = s.input → F.index.lineOf t = t.line) ∧
    F.index.error? s = s.error? ∧ F.index.outcome s = s.outcome ∧
    (∀ f, s.failure = some f →
      s.error? = some ⟨f.kind, f.message, s.cursor, F.index.lineOf s⟩ ∧
        s.outcome = .error ⟨f.kind, f.message, s.cursor, F.index.lineOf s⟩) ∧
    (∀ t ∈ F.members, s.cursor ≤ t.cursor → F.index.lineOf s ≤ F.index.lineOf t) ∧
    F.index.lineOf s ≤ 1 + (Text.bytes input.chars).count Text.newlineByte := by
  have hinput := h.sound.input_eq hs
  have hfits : F.index.Fits s.input := hinput ▸ h.sound.fits
  have hline : ∀ t : State ν, t.input = s.input → F.index.lineOf t = t.line := by
    intro t ht
    rw [LineIndex.lineOf, ht, hfits.line_eq, State.line, ht]
  have hcount : F.index.lineOf s =
      1 + ((Text.bytes input.chars).take s.cursor).count Text.newlineByte := by
    rw [hline s rfl, State.line, Input.line_eq_count, hinput]
  refine ⟨hcount, hline, hfits.error?_eq, hfits.outcome_eq, fun f hf => ?_, fun t ht hle => ?_, ?_⟩
  · have herror : s.error? = some ⟨f.kind, f.message, s.cursor, F.index.lineOf s⟩ := by
      rw [State.error?, hf, hline s rfl, Option.map_some]
    exact ⟨herror, by rw [State.outcome, herror]⟩
  · have hsame : t.input = s.input := (h.sound.input_eq ht).trans hinput.symm
    rw [hline s rfl, hline t hsame, State.line, State.line, hsame]
    exact s.input.line_mono hle
  · rw [hcount]
    exact Nat.add_le_add_left ((List.take_sublist _ _).count_le _) 1

/-- The state behind two newlines is asked first.  Another one that is made of it goes back, and a run
from there fails behind the first of them. -/
theorem lines_counted_behind :
    ∃ (F : Family Nat) (t : State Nat), F.CameFrom (.ofString "é\nb\nc") ∧ t ∈ F.members ∧
      F.index.positions = some #[2, 4] ∧
      t.error?.map (fun e => (e.position, e.line)) = some (4, 2) ∧ F.index.lineOf t = 2 := by
  let input : Input := .ofString "é\nb\nc"
  let last : State Nat := (State.start input).advance 5 .absent
  let back : State Nat := last.rewind 3
  obtain ⟨t, hends, hfailed, ht⟩ : ∃ t : State Nat,
      (Parser.and (.literal "b") (.literal "c")).EndsAmid [] back t ∧ t.failed = true ∧
        t.error?.map (fun e => (e.position, e.line)) = some (4, 2) :=
    ⟨((Parser.and (.literal "b") (.literal "c")).runFrom 1 Scope.none back).get
        (by decide +kernel), ⟨1, (Option.some_get _).symm⟩, by decide +kernel, by decide +kernel⟩
  have hmoves : (Parser.and (.literal "b") (.literal "c") : Parser Nat).ActsByMoves := by
    simp [Parser.ActsByMoves]
  have hcame : ((((start input).join last).ask last).join back |>.join t).CameFrom input :=
    .tail (.tail (.tail (.single (.move List.mem_cons_self (.advance _ 5 .absent)))
      (.ask List.mem_cons_self)) (.move List.mem_cons_self (.rewind _ 3)))
      (.run (fun _ h => absurd h List.not_mem_nil) hmoves List.mem_cons_self hends)
  have hindex : (LineIndex.empty.filled input).positions = some #[2, 4] := by decide +kernel
  refine ⟨_, t, hcame, List.mem_cons_self, hindex, ht, ?_⟩
  obtain ⟨f, hf⟩ := Option.isSome_iff_exists.1 hfailed
  obtain ⟨_, _, _, _, hreports, _⟩ := lines_counted hcame List.mem_cons_self
  rw [(hreports f hf).1] at ht
  exact (Prod.mk.inj (Option.some.inj ht)).2

end Family

end TextGrammar
