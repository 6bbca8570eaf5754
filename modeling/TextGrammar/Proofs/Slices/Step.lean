import TextGrammar.Step
import TextGrammar.Proofs.State
import TextGrammar.Proofs.Text.Offset
import TextGrammar.Proofs.Step.Repeat

/-!
# Steps whose results are made of what they match

* `Value.tokens` — the tokens of a value at any depth, from left to right.
* `Step.Reads` — the tokens of what the step produces are slices of the text that it takes, one
  behind the other, with gaps between them or without.
* `State.Gathered`, `Harvest.Gathered` — the invariant of the loops, which says the same of the items
  collected so far.
* `Step.reads_literal` to `Step.reads_fix` — each way to put steps together keeps it.
-/

namespace TextGrammar

variable {ν : Type} {gaps : Bool}

/-! ## The tokens of a value -/

namespace Value

mutual

/-- The tokens of a value at any depth, from left to right. -/
def tokens : Value ν → List String
  | token text => [text]
  | list items => tokensOf items
  | node _ _ => []
  | absent => []

/-- The tokens of the items of a list. -/
def tokensOf : List (Value ν) → List String
  | [] => []
  | v :: vs => v.tokens ++ tokensOf vs

end

theorem tokensOf_eq_flatMap (vs : List (Value ν)) : tokensOf vs = vs.flatMap tokens := by
  induction vs with
  | nil => rfl
  | cons v vs ih => rw [tokensOf, ih, List.flatMap_cons]

@[simp] theorem tokens_token (text : String) : (token text : Value ν).tokens = [text] := by
  rw [tokens]

@[simp] theorem tokens_list (items : List (Value ν)) :
    (list items).tokens = items.flatMap tokens := by
  rw [tokens, tokensOf_eq_flatMap]

@[simp] theorem tokens_node (n : ν) (line : Option Nat) : (node n line).tokens = [] := by
  rw [tokens]

@[simp] theorem tokens_absent : (absent : Value ν).tokens = [] := by
  rw [tokens]

@[simp] theorem tokens_onLine (line : Nat) (v : Value ν) : (v.onLine line).tokens = v.tokens := by
  match v with
  | token _ => rfl
  | list _ => rfl
  | node _ none => rw [onLine, tokens_node, tokens_node]
  | node _ (some _) => rfl
  | absent => rfl

theorem exists_tokens_eq_head_append (v : Value ν) :
    ∃ tokens, v.tokens = v.head.tokens ++ tokens := by
  match v with
  | token text => exact ⟨[text], by simp [head, asList?]⟩
  | list [] => exact ⟨[], by simp [head, asList?]⟩
  | list (w :: ws) => exact ⟨ws.flatMap tokens, by simp [head, asList?]⟩
  | node n line => exact ⟨[], by simp [head, asList?]⟩
  | absent => exact ⟨[], by simp [head, asList?]⟩

end Value

/-! ## Steps that read -/

/-- The state `t` is a success that has come from `s`, with a result made of what was matched.  A
result that is to be ignored may be left out. -/
structure State.ReadFrom (gaps : Bool) (s t : State ν) : Prop where
  onBoundary : t.OnBoundary
  result : Text.Slices gaps s.input.chars s.cursor t.cursor t.result.tokens
  ignored : t.disposition = .ignore → Text.Slices gaps s.input.chars s.cursor t.cursor []

/-- The state `t` is an end of a step that has begun in `s`, and a success only if its result is
made of what was matched. -/
def State.ReadsTo (gaps : Bool) (s t : State ν) : Prop :=
  t.input = s.input ∧ (t.failed = false → s.ReadFrom gaps t)

/-- A step whose successes have results made of what it matches. -/
def Step.Reads (gaps : Bool) (p : Step ν) : Prop :=
  ∀ s t : State ν, s.OnBoundary → p s = some t → s.ReadsTo gaps t

namespace State

variable {s t : State ν}

theorem readFrom_of_ne (hb : t.OnBoundary) (hd : t.disposition ≠ .ignore)
    (h : Text.Slices gaps s.input.chars s.cursor t.cursor t.result.tokens) : s.ReadFrom gaps t :=
  ⟨hb, h, fun hi => absurd hi hd⟩

/-- A success that takes the text ahead as its token. -/
theorem readFrom_advance (hb : s.OnBoundary) (n : Nat) :
    s.ReadFrom gaps (s.advance n (.token (String.ofList (Text.takeBytes n s.rest)))) := by
  generalize hv : (Value.token (String.ofList (Text.takeBytes n s.rest)) : Value ν) = v
  refine readFrom_of_ne (onBoundary_advance s n v) (nomatch ·) ?_
  have hle : s.cursor ≤ (s.advance n v).cursor := by
    rw [hb.cursor_advance]
    exact Nat.le_add_right _ _
  have hsingle : Text.Slices gaps s.input.chars s.cursor (s.advance n v).cursor _ :=
    .single hb (onBoundary_advance s n v) hle
  rw [hb.slice_advance] at hsingle
  show Text.Slices gaps s.input.chars s.cursor (s.advance n v).cursor v.tokens
  rw [← hv, Value.tokens_token, hv]
  exact hsingle

/-- A success that takes nothing and produces nothing. -/
theorem readFrom_of_absent (hb : s.OnBoundary) (hplace : s.SamePlace t)
    (hresult : t.result = .absent) : s.ReadFrom gaps t := by
  have hnil : Text.Slices gaps s.input.chars s.cursor t.cursor [] := by
    rw [hplace.cursor]
    exact .refl gaps _ _
  refine ⟨hplace.onBoundary_iff.1 hb, ?_, fun _ => hnil⟩
  rw [hresult, Value.tokens_absent]
  exact hnil

theorem readsTo_of_failed (hinput : t.input = s.input) (hf : t.failed = true) :
    s.ReadsTo gaps t :=
  ⟨hinput, fun hf' => Bool.noConfusion (hf.symm.trans hf')⟩

theorem ReadFrom.kept (h : s.ReadFrom gaps t) :
    Text.Slices gaps s.input.chars s.cursor t.cursor (t.kept.flatMap Value.tokens) := by
  unfold State.kept
  split
  · rename_i hd
    exact h.ignored hd
  · rw [List.flatMap_singleton]
    exact h.result

theorem ReadFrom.spliced (h : s.ReadFrom gaps t) :
    Text.Slices gaps s.input.chars s.cursor t.cursor (t.spliced.flatMap Value.tokens) := by
  have hresult := h.result
  unfold State.spliced
  split
  · rename_i hd
    exact h.ignored hd
  · rename_i items _ hlist
    rwa [hlist, Value.tokens_list] at hresult
  · rw [List.flatMap_singleton]
    exact hresult

/-- A result may be collected in any way, but ignored only where there may be gaps. -/
theorem ReadsTo.collectAs (h : s.ReadsTo gaps t) {d : Disposition}
    (hd : d = .ignore → gaps = true) : s.ReadsTo gaps (t.collectAs d) := by
  refine ⟨h.1, fun hf => ?_⟩
  have hread := h.2 hf
  refine ⟨hread.onBoundary, hread.result, fun hi => .nil hread.result.le fun hg => ?_⟩
  cases (hd hi).symm.trans hg

end State

/-! ## What has been gathered

The invariant of the loops: from offset `c` on, the items are made of what has been matched. -/

/-- The items are made of the text from offset `c` up to the state. -/
structure State.Gathered (gaps : Bool) (input : Input) (c : Nat) (items : List (Value ν))
    (s : State ν) : Prop where
  sameInput : s.input = input
  onBoundary : s.OnBoundary
  items : Text.Slices gaps input.chars c s.cursor (items.flatMap Value.tokens)

namespace State.Gathered

variable {input : Input} {c : Nat} {items : List (Value ν)} {s s₀ t : State ν} {p : Step ν}

theorem start (hb : s.OnBoundary) : s.Gathered gaps s.input s.cursor [] :=
  ⟨rfl, hb, .refl gaps _ _⟩

/-- A round that succeeds adds what it has matched. -/
theorem add (h : s.Gathered gaps input c items) (hp : p.Reads gaps) (hrun : p s = some t)
    (hf : t.failed = false) {new : List (Value ν)} (hnew : new = t.kept ∨ new = t.spliced) :
    t.Gathered gaps input c (items ++ new) := by
  obtain ⟨hinput, hread⟩ := hp s t h.onBoundary hrun
  have hslices : Text.Slices gaps input.chars s.cursor t.cursor (new.flatMap Value.tokens) := by
    rw [← h.sameInput]
    rcases hnew with rfl | rfl
    · exact (hread hf).kept
    · exact (hread hf).spliced
  refine ⟨hinput.trans h.sameInput, (hread hf).onBoundary, ?_⟩
  rw [List.flatMap_append]
  exact h.items.append hslices

/-- What has been gathered does not depend on what was produced last. -/
theorem of_samePlace (h : s.Gathered gaps input c items) (hplace : s.SamePlace t) :
    t.Gathered gaps input c items := by
  refine ⟨hplace.input.symm.trans h.sameInput, hplace.onBoundary_iff.1 h.onBoundary, ?_⟩
  rw [← hplace.cursor]
  exact h.items

theorem collected (h : s.Gathered gaps input c items) : s.collected.Gathered gaps input c items :=
  h.of_samePlace (samePlace_collected s)

/-- A round that is left out makes a gap. -/
theorem skip (h : s.Gathered true input c items) (hp : p.Reads true) (hrun : p s = some t)
    (hf : t.failed = false) : t.Gathered true input c items := by
  obtain ⟨hinput, hread⟩ := hp s t h.onBoundary hrun
  exact ⟨hinput.trans h.sameInput, (hread hf).onBoundary,
    h.items.le_trans (hread hf).result.le⟩

theorem succeed (h : s.Gathered gaps s₀.input s₀.cursor items) :
    s₀.ReadFrom gaps (s.succeed (.list items)) := by
  refine readFrom_of_ne (onBoundary_advance s 0 _) (nomatch ·) ?_
  rw [← (h.onBoundary.samePlace_succeed _).cursor]
  show Text.Slices gaps s₀.input.chars s₀.cursor s.cursor (Value.list items).tokens
  rw [Value.tokens_list]
  exact h.items

theorem readsTo_of_failed (h : s.Gathered gaps s₀.input c items) (hp : p.Reads gaps)
    (hrun : p s = some t) (hf : t.failed = true) : s₀.ReadsTo gaps t :=
  State.readsTo_of_failed ((hp s t h.onBoundary hrun).1.trans h.sameInput) hf

end State.Gathered

/-- The harvest of a loop that has begun in a state. -/
def Harvest.Gathered (gaps : Bool) (s : State ν) (h : Harvest ν) : Prop :=
  h.state.Gathered gaps s.input s.cursor h.items.toList

namespace Harvest.Gathered

variable {h : Harvest ν} {s t : State ν} {p : Step ν}

theorem start (hb : s.OnBoundary) : (Harvest.start s).Gathered gaps s := State.Gathered.start hb

theorem add (hh : h.Gathered gaps s) (hp : p.Reads gaps) (hrun : p h.state = some t)
    (hf : t.failed = false) : (h.add t).Gathered gaps s := by
  show t.collected.Gathered gaps s.input s.cursor (h.items ++ t.kept).toList
  rw [Array.toList_appendList]
  exact (State.Gathered.add hh hp hrun hf (.inl rfl)).collected

theorem giveBack (hh : h.Gathered gaps s) (hp : p.Reads gaps) (hrun : p h.state = some t) :
    (h.stop (t.rewind h.state.cursor)).Gathered gaps s :=
  State.Gathered.of_samePlace hh <|
    hh.onBoundary.samePlace_rewind (hp h.state t hh.onBoundary hrun).1

theorem skip (hh : h.Gathered true s) (hp : p.Reads true) (hrun : p h.state = some t)
    (hf : t.failed = false) : (h.stop t).Gathered true s := State.Gathered.skip hh hp hrun hf

end Harvest.Gathered

namespace Step

variable {p q : Step ν} {ps : List (Step ν)}

/-! ## Steps that match text -/

theorem reads_literal (text : String) : (literal text : Step ν).Reads gaps := by
  intro s t hb hrun
  unfold literal at hrun
  split at hrun
  · rename_i hprefix
    cases hrun
    obtain ⟨back, hrest⟩ := List.isPrefixOf_iff_prefix.1 hprefix
    have hread : s.ReadFrom gaps _ := State.readFrom_advance hb (Text.byteLength text.toList)
    rw [← hrest, Text.takeBytes_byteLength_append, String.ofList_toList] at hread
    exact ⟨rfl, fun _ => hread⟩
  · cases hrun
    exact State.readsTo_of_failed rfl rfl

/-- A pattern whose matches begin where the text does produces all that it takes. -/
theorem reads_pattern {pattern : Pattern}
    (hstart : ∀ text m, pattern.find text = some m → m.start = 0) :
    (Step.pattern pattern : Step ν).Reads gaps := by
  intro s t hb hrun
  unfold Step.pattern at hrun
  split at hrun
  · rename_i m hm
    cases hrun
    have hread : s.ReadFrom gaps _ := State.readFrom_advance hb m.stop
    have htext : Text.slice s.rest m.start m.stop = Text.takeBytes m.stop s.rest := by
      rw [hstart s.rest m hm, Text.slice, Text.dropBytes_zero, Nat.sub_zero]
    rw [← htext] at hread
    exact ⟨rfl, fun _ => hread⟩
  · cases hrun
    exact State.readsTo_of_failed rfl rfl

theorem reads_endOfInput : (endOfInput : Step ν).Reads gaps := by
  intro s t hb hrun
  unfold endOfInput at hrun
  split at hrun
  · cases hrun
    have hplace := hb.samePlace_succeed .absent
    exact ⟨rfl, fun _ => State.readFrom_of_absent hb ⟨rfl, hplace.cursor⟩ rfl⟩
  · cases hrun
    exact State.readsTo_of_failed rfl rfl

/-! ## Sequences -/

theorem reads_sequence (hps : ∀ p ∈ ps, p.Reads gaps) : (sequence ps).Reads gaps := by
  suffices h : ∀ (items : Array (Value ν)) (s₀ s t : State ν),
      s.Gathered gaps s₀.input s₀.cursor items.toList → sequenceFrom items ps s = some t →
        s₀.ReadsTo gaps t from
    fun s t hb hrun => h #[] s s t (.start hb) hrun
  induction ps with
  | nil =>
    intro items s₀ s t h hrun
    cases hrun
    exact ⟨h.sameInput, fun _ => h.succeed⟩
  | cons p ps ih =>
    intro items s₀ s t h hrun
    have hp : p.Reads gaps := hps p List.mem_cons_self
    obtain ⟨u, hu, hrun⟩ := Option.bind_eq_some_iff.1 hrun
    split at hrun
    · rename_i hf
      cases hrun
      exact h.readsTo_of_failed hp hu hf
    · rename_i hf
      have hadd := (h.add hp hu (by simpa using hf) (.inl rfl)).collected
      rw [← Array.toList_appendList] at hadd
      exact ih (fun p hp => hps p (List.mem_cons_of_mem _ hp)) _ s₀ _ t hadd hrun

theorem reads_and (hp : p.Reads gaps) (hq : q.Reads gaps) : (Step.and p q).Reads gaps := by
  intro s t hb hrun
  obtain ⟨u, hu, hrun⟩ := Option.bind_eq_some_iff.1 hrun
  split at hrun
  · cases hrun
    exact hp s t hb hu
  · rename_i hf
    have hleft := (State.Gathered.start hb).add hp hu (by simpa using hf) (.inr rfl)
    obtain ⟨w, hw, hrun⟩ := Option.bind_eq_some_iff.1 hrun
    split at hrun
    · rename_i hf
      cases hrun
      exact hleft.collected.readsTo_of_failed hq hw hf
    · rename_i hf
      cases hrun
      have hright := hleft.collected.add hq hw (by simpa using hf) (.inr rfl)
      have hread : s.ReadsTo gaps (w.succeed (.list (u.spliced ++ w.spliced))) :=
        ⟨hright.sameInput, fun _ => hright.succeed⟩
      exact hread.collectAs (nomatch ·)

/-! ## Choices -/

/-- What a step reads does not depend on what was produced before it. -/
theorem Reads.readsTo_of_samePlace (hp : p.Reads gaps) {s s' t : State ν} (hb : s.OnBoundary)
    (hplace : s.SamePlace s') (hrun : p s' = some t) : s.ReadsTo gaps t := by
  obtain ⟨hinput, hread⟩ := hp s' t (hplace.onBoundary_iff.1 hb) hrun
  refine ⟨hinput.trans hplace.input.symm, fun hf => ?_⟩
  obtain ⟨hb', hresult, hignored⟩ := hread hf
  rw [← hplace.input, ← hplace.cursor] at hresult hignored
  exact ⟨hb', hresult, hignored⟩

theorem reads_or (left right : String) (hp : p.Reads gaps) (hq : q.Reads gaps) :
    (Step.or left right p q).Reads gaps := by
  intro s t hb hrun
  obtain ⟨u, hu, hrun⟩ := Option.bind_eq_some_iff.1 hrun
  split at hrun
  · obtain ⟨w, hw, hrun⟩ := Option.bind_eq_some_iff.1 hrun
    have hright := hq.readsTo_of_samePlace hb (hb.samePlace_rewind (hp s u hb hu).1) hw
    split at hrun
    · cases hrun
      exact State.readsTo_of_failed hright.1 rfl
    · cases hrun
      exact hright
  · cases hrun
    exact hp s t hb hu

theorem reads_choice (hps : ∀ p ∈ ps, p.Reads gaps) : (choice ps).Reads gaps := by
  suffices h : ∀ s s' t : State ν, s.OnBoundary → s.SamePlace s' →
      choiceFrom s.cursor ps s' = some t → s.ReadsTo gaps t from
    fun s t hb hrun => h s s t hb ⟨rfl, rfl⟩ hrun
  induction ps with
  | nil =>
    intro s s' t hb hplace hrun
    cases hrun
    exact State.readsTo_of_failed hplace.input.symm rfl
  | cons p ps ih =>
    intro s s' t hb hplace hrun
    obtain ⟨u, hu, hrun⟩ := Option.bind_eq_some_iff.1 hrun
    have hfirst := (hps p List.mem_cons_self).readsTo_of_samePlace hb hplace hu
    split at hrun
    · exact ih (fun p hp => hps p (List.mem_cons_of_mem _ hp)) s _ t hb
        (hb.samePlace_rewind hfirst.1) hrun
    · cases hrun
      exact hfirst.collectAs (nomatch ·)

theorem reads_optional (hp : p.Reads gaps) : (Step.optional p).Reads gaps := by
  intro s t hb hrun
  obtain ⟨u, hu, hrun⟩ := Option.bind_eq_some_iff.1 hrun
  have hread := hp s u hb hu
  split at hrun
  · cases hrun
    have hplace := hb.samePlace_rewind hread.1
    exact ⟨hplace.input.symm, fun _ => State.readFrom_of_absent hb hplace rfl⟩
  · cases hrun
    exact hread.collectAs (nomatch ·)

theorem reads_ignore (hp : p.Reads true) : (collectedAs .ignore p).Reads true := by
  intro s t hb hrun
  obtain ⟨u, hu, hrun⟩ := Option.bind_eq_some_iff.1 hrun
  have hread := hp s u hb hu
  split at hrun
  · cases hrun
    exact hread
  · cases hrun
    exact hread.collectAs fun _ => rfl

/-- To keep only the first item of a list leaves text out. -/
theorem reads_map_head (hp : p.Reads true) : (map Value.head p).Reads true := by
  intro s t hb hrun
  obtain ⟨u, hu, hrun⟩ := Option.bind_eq_some_iff.1 hrun
  have hread := hp s u hb hu
  split at hrun
  · cases hrun
    exact hread
  · rename_i hf
    cases hrun
    obtain ⟨hb', hresult, _⟩ := hread.2 (by simpa using hf)
    refine ⟨hread.1, fun _ => State.readFrom_of_ne (u.onBoundary_advance 0 _) (nomatch ·) ?_⟩
    rw [← (hb'.samePlace_succeed _).cursor]
    show Text.Slices true s.input.chars s.cursor u.cursor (u.result.head.onLine u.line).tokens
    obtain ⟨tokens, htokens⟩ := Value.exists_tokens_eq_head_append u.result
    rw [htokens] at hresult
    rw [Value.tokens_onLine]
    exact hresult.of_append

/-! ## Repetition -/

theorem reads_many (budget least : Nat) (label : String) (hp : p.Reads gaps) :
    Step.Reads gaps (many budget least label p) := by
  intro s t hb hrun
  obtain ⟨h, hh, hrun⟩ := Option.bind_eq_some_iff.1 hrun
  have hgathered : h.Gathered gaps s := manyFrom_invariant (I := Harvest.Gathered gaps s)
    (fun _ _ hI ht _ => hI.giveBack hp ht) (fun _ _ hI ht hf => hI.add hp ht hf) (.start hb) hh
  split at hrun
  · cases hrun
    exact State.readsTo_of_failed hgathered.sameInput rfl
  · cases hrun
    exact ⟨hgathered.sameInput, fun _ => hgathered.succeed⟩

/-- The separators make the gaps. -/
theorem reads_separated (budget least : Nat) (valueLabel separatorLabel : String)
    (hp : p.Reads true) (hq : q.Reads true) :
    Step.Reads true (separated budget least valueLabel separatorLabel p q) := by
  intro s t hb hrun
  obtain ⟨h, hh, hrun⟩ := Option.bind_eq_some_iff.1 hrun
  have hgathered : h.Gathered true s := by
    refine separatedFrom_invariant (I := Harvest.Gathered true s)
      (fun _ _ hI ht _ => hI.giveBack hp ht) (fun h t u hI ht hf hu _ => ?_)
      (fun h t u hI ht hf hu hg => ?_) (.start hb) hh
    · have hI' := (hI.add hp ht hf).giveBack hq hu
      rw [Harvest.add, State.cursor_collected] at hI'
      exact hI'
    · exact (hI.add hp ht hf).skip hq hu hg
  split at hrun
  · cases hrun
    exact State.readsTo_of_failed hgathered.sameInput rfl
  · cases hrun
    exact ⟨hgathered.sameInput, fun _ => hgathered.succeed⟩

theorem reads_all (budget : Nat) (label : String) (hp : p.Reads gaps) :
    Step.Reads gaps (all budget label p) := by
  intro s t hb hrun
  rcases allFrom_cases (I := Harvest.Gathered gaps s) (fun _ _ hI ht hf => hI.add hp ht hf)
    (.start hb) hrun with ⟨h, hI, ht, hf⟩ | ⟨h, hI, _, rfl⟩ | ⟨h, hI, _, rfl⟩
  · exact State.Gathered.readsTo_of_failed hI hp ht hf
  · exact ⟨hI.sameInput, fun _ => hI.succeed⟩
  · exact State.readsTo_of_failed hI.sameInput rfl

/-- What the body of a recursion keeps, the recursion has. -/
theorem reads_fix {body : Step ν → Step ν} (h : ∀ p : Step ν, p.Reads gaps → (body p).Reads gaps)
    (budget : Nat) : (fix body budget).Reads gaps := by
  induction budget with
  | zero =>
    intro s t _ hrun
    cases hrun
  | succ budget ih => exact h _ ih

end Step

theorem Scope.reads_none (h : Handle) : (Scope.none h : Step ν).Reads gaps := by
  intro s t _ hrun
  cases hrun
  exact State.readsTo_of_failed rfl rfl

end TextGrammar
