import TextGrammar.Parser.Run
import TextGrammar.Proofs.Regex.Scans
import TextGrammar.Proofs.State

/-!
# What steps take

What a step does is told here by the text ahead alone: which beginning of it the step takes and what
it makes of that, or where and why it fails.  These are the rules by which runs over given texts are
put together.

* `State.At` — the states with a given text ahead.
* `Step.Takes`, `Step.Refuses` — what a step does in front of a text, whatever came before.
* `Step.Yields` — the same of a step that takes some text, up to a condition on the result.
* `Step.Yields.or_left`, `Step.Refuses.or` and others — the rules for the ways to put steps together.
* `Step.InOrder`, `Step.InOrder.takes` — steps in order, and the rule for all of them together.
* `Step.Alternates`, `Step.Alternates.takes` — the rounds of values with separators between them, and
  the rule for all rounds together.
* `Parser.run_of_takes`, `Parser.run_of_refuses` — what a parser reports on a whole input.
-/

namespace TextGrammar

variable {ν : Type}

/-! ## States in front of a text -/

namespace State

/-- The parse has not failed, and the text `ahead` lies ahead. -/
structure At (s : State ν) (ahead : List Char) : Prop where
  failed : s.failed = false
  onBoundary : s.OnBoundary
  rest : s.rest = ahead

/-- The state `t` is the success behind the text `taken`, with a result to be collected in the given
way. -/
structure Took (s : State ν) (taken : List Char) (result : Value ν) (disposition : Disposition)
    (t : State ν) : Prop where
  input : t.input = s.input
  cursor : t.cursor = s.cursor + Text.byteLength taken
  failure : t.failure = none
  result : t.result = result
  disposition : t.disposition = disposition

/-- The state `t` is a failure, `n` bytes farther on. -/
structure Refused (s : State ν) (failure : Failure) (n : Nat) (t : State ν) : Prop where
  input : t.input = s.input
  cursor : t.cursor = s.cursor + n
  failure : t.failure = some failure

variable {s s' t u : State ν} {taken taken' ahead : List Char} {v v' : Value ν}
  {d d' : Disposition}

theorem at_start (input : Input) : (start input : State ν).At input.chars :=
  ⟨rfl, onBoundary_start input, by
    show input.drop 0 = input.chars
    rw [Input.drop_eq, Text.dropBytes_zero]⟩

theorem At.of_samePlace (h : s.At ahead) (hf : t.failed = false) (hplace : s.SamePlace t) :
    t.At ahead := by
  refine ⟨hf, hplace.onBoundary_iff.1 h.onBoundary, ?_⟩
  rw [← h.rest, State.rest, State.rest, hplace.input, hplace.cursor]

theorem At.collected (h : s.At ahead) : s.collected.At ahead :=
  h.of_samePlace (s.failed_collected.trans h.failed) (samePlace_collected s)

/-- Where a parse goes back to, the same text lies ahead. -/
theorem At.rewind (h : s.At ahead) (hinput : t.input = s.input) :
    (t.rewind s.cursor).At ahead :=
  h.of_samePlace rfl (h.onBoundary.samePlace_rewind hinput)

/-- The input has ended if no text lies ahead. -/
theorem At.atEnd_iff (h : s.At ahead) : s.atEnd = true ↔ ahead = [] := by
  have hsize := h.onBoundary.size_eq
  rw [h.rest] at hsize
  rw [atEnd, beq_iff_eq]
  constructor
  · intro hend
    cases ahead with
    | nil => rfl
    | cons c rest =>
      have hpos := Text.byteLength_pos (List.cons_ne_nil c rest)
      omega
  · rintro rfl
    rw [hsize, Text.byteLength_nil, Nat.add_zero]

theorem Took.failed (h : s.Took taken v d t) : t.failed = false := by
  rw [State.failed, h.failure, Option.isSome_none]

theorem Refused.failed {f : Failure} {n : Nat} (h : s.Refused f n t) : t.failed = true := by
  rw [State.failed, h.failure, Option.isSome_some]

/-- Behind what has been taken lies the rest. -/
theorem Took.at (h : s.Took taken v d t) (hs : s.At (taken ++ ahead)) : t.At ahead := by
  have hrest := hs.onBoundary.rest_of_cursor h.input hs.rest h.cursor
  refine ⟨h.failed, ?_, hrest⟩
  have hadvance := hs.onBoundary.cursor_advance_of_rest hs.rest v
  have hb := s.onBoundary_advance (Text.byteLength taken) v
  rw [OnBoundary, hadvance, input_advance] at hb
  rw [OnBoundary, h.input, h.cursor]
  exact hb

theorem At.took_advance (hs : s.At (taken ++ ahead)) (v : Value ν) :
    s.Took taken v .keep (s.advance (Text.byteLength taken) v) :=
  ⟨rfl, hs.onBoundary.cursor_advance_of_rest hs.rest v, rfl, rfl, rfl⟩

theorem Took.succeed (h : s.Took taken v d t) (hs : s.At (taken ++ ahead)) (v' : Value ν) :
    s.Took taken v' .keep (t.succeed v') := by
  refine ⟨h.input, ?_, rfl, rfl, rfl⟩
  rw [← ((h.at hs).onBoundary.samePlace_succeed v').cursor, h.cursor]

theorem Took.of_samePlace (h : s'.Took taken v d t) (hplace : s.SamePlace s') :
    s.Took taken v d t :=
  ⟨h.input.trans hplace.input.symm, by rw [hplace.cursor, h.cursor], h.failure, h.result,
    h.disposition⟩

theorem Took.trans (h : s.Took taken v d t) (hplace : t.SamePlace s') (h' : s'.Took taken' v' d' u) :
    s.Took (taken ++ taken') v' d' u := by
  refine ⟨?_, ?_, h'.failure, h'.result, h'.disposition⟩
  · rw [h'.input, ← hplace.input, h.input]
  · rw [h'.cursor, ← hplace.cursor, h.cursor, Text.byteLength_append, Nat.add_assoc]

theorem At.took_rewind (h : s.At ahead) (hinput : t.input = s.input) :
    s.Took [] .absent .keep (t.rewind s.cursor) :=
  ⟨hinput, (h.onBoundary.samePlace_rewind hinput).cursor.symm, rfl, rfl, rfl⟩

theorem Took.collectAs (h : s.Took taken v d t) (d' : Disposition) :
    s.Took taken v d' (t.collectAs d') :=
  ⟨h.input, h.cursor, h.failure, h.result, rfl⟩

/-- What a result adds to a list, given the way in which it is to be collected. -/
def keptOf (v : Value ν) : Disposition → List (Value ν)
  | .ignore => []
  | _ => [v]

theorem Took.kept (h : s.Took taken v d t) : t.kept = keptOf v d := by
  rw [State.kept, h.disposition, h.result]
  cases d <;> rfl

/-- What a result adds to a list that takes the elements of spliced lists, given the way in which it
is to be collected. -/
def splicedOf (v : Value ν) : Disposition → List (Value ν)
  | .ignore => []
  | .splice => v.asList?.getD [v]
  | .keep => [v]

theorem Took.spliced (h : s.Took taken v d t) : t.spliced = splicedOf v d := by
  rw [State.spliced, h.disposition, h.result]
  cases d with
  | keep => rfl
  | ignore => rfl
  | splice => cases v <;> rfl

theorem Took.toList_add (h : s.Took taken v d t) (g : Harvest ν) :
    (g.add t).items.toList = g.items.toList ++ keptOf v d := by
  rw [Harvest.add, Array.toList_appendList, h.kept]

end State

/-! ## Steps in front of a text -/

namespace Step

/-- In front of the text `taken ++ ahead`, the step takes `taken`. -/
def Takes (p : Step ν) (taken ahead : List Char) (v : Value ν) (d : Disposition) : Prop :=
  ∀ s : State ν, s.At (taken ++ ahead) → ∃ t, p s = some t ∧ s.Took taken v d t

/-- In front of the text `taken ++ ahead`, the step takes `taken`, with a result that meets a
condition.  A new node is put on the line on which it was made, so that a step does not have the same
result in front of the same text everywhere. -/
def Yields (p : Step ν) (taken ahead : List Char) (P : Value ν → Prop) (d : Disposition) : Prop :=
  ∀ s : State ν, s.At (taken ++ ahead) → ∃ t v, p s = some t ∧ P v ∧ s.Took taken v d t

/-- In front of the text `ahead`, the step fails, `n` bytes farther on. -/
def Refuses (p : Step ν) (ahead : List Char) (failure : Failure) (n : Nat) : Prop :=
  ∀ s : State ν, s.At ahead → ∃ t, p s = some t ∧ s.Refused failure n t

variable {p q : Step ν} {ps : List (Step ν)} {taken taken' ahead : List Char} {v v' : Value ν}
  {P Q : Value ν → Prop} {d d' : Disposition} {f : Failure} {n : Nat}

theorem Takes.yields (h : p.Takes taken ahead v d) (hP : P v) : p.Yields taken ahead P d := by
  intro s hs
  obtain ⟨t, ht, htook⟩ := h s hs
  exact ⟨t, v, ht, hP, htook⟩

/-- One result only. -/
theorem Yields.takes (h : p.Yields taken ahead P d) (hP : ∀ w, P w → w = v) :
    p.Takes taken ahead v d := by
  intro s hs
  obtain ⟨t, w, ht, hw, htook⟩ := h s hs
  rw [hP w hw] at htook
  exact ⟨t, ht, htook⟩

theorem takes_iff_yields : p.Takes taken ahead v d ↔ p.Yields taken ahead (· = v) d :=
  ⟨fun h => h.yields rfl, fun h => h.takes fun _ hw => hw⟩

theorem Yields.imp (h : p.Yields taken ahead P d) (hPQ : ∀ w, P w → Q w) :
    p.Yields taken ahead Q d := by
  intro s hs
  obtain ⟨t, w, ht, hw, htook⟩ := h s hs
  exact ⟨t, w, ht, hPQ w hw, htook⟩

/-! ### Text -/

theorem takes_literal (text : String) (ahead : List Char) :
    (literal text : Step ν).Takes text.toList ahead (.token text) .keep := by
  intro s hs
  have hprefix : text.toList.isPrefixOf s.rest = true := by
    rw [hs.rest]
    exact List.isPrefixOf_iff_prefix.2 (List.prefix_append _ _)
  exact ⟨_, if_pos hprefix, hs.took_advance (.token text)⟩

theorem refuses_literal (text : String) (h : ¬ text.toList <+: ahead) :
    (literal text : Step ν).Refuses ahead (.literal text ahead) 0 := by
  intro s hs
  have hprefix : ¬ text.toList.isPrefixOf s.rest = true := by
    rw [hs.rest]
    exact fun hp => h (List.isPrefixOf_iff_prefix.1 hp)
  refine ⟨_, if_neg hprefix, rfl, rfl, ?_⟩
  rw [hs.rest]
  rfl

theorem takes_pattern {pattern : Pattern} {scan : List Char → List Char}
    (hfind : pattern.FindsBy scan) (htaken : scan (taken ++ ahead) = taken) (hne : taken ≠ []) :
    (Step.pattern pattern : Step ν).Takes taken ahead (.token (String.ofList taken)) .keep := by
  intro s hs
  refine ⟨_, ?_, hs.took_advance (.token (String.ofList taken))⟩
  have hslice : Text.slice (taken ++ ahead) 0 (Text.byteLength taken) = taken := by
    rw [Text.slice, Nat.sub_zero, Text.dropBytes_zero, Text.takeBytes_byteLength_append]
  have hmatch : pattern.find s.rest = some ⟨0, Text.byteLength taken⟩ := by
    rw [hfind, hs.rest, htaken, Regex.Match.taking_of_ne_nil hne]
  rw [Step.pattern, hmatch]
  simp only [hs.rest, hslice]

theorem refuses_pattern {pattern : Pattern} {scan : List Char → List Char}
    (hfind : pattern.FindsBy scan) (hnil : scan ahead = []) :
    (Step.pattern pattern : Step ν).Refuses ahead (.pattern pattern.source ahead) 0 := by
  intro s hs
  refine ⟨s.fail (.pattern pattern.source ahead), ?_, rfl, rfl, rfl⟩
  have hmatch : pattern.find s.rest = none := by
    rw [hfind, hs.rest, hnil]
    rfl
  rw [Step.pattern, hmatch, hs.rest]

theorem takes_endOfInput : (endOfInput : Step ν).Takes [] [] .absent .ignore := by
  intro s hs
  exact ⟨_, if_pos (hs.atEnd_iff.2 rfl), (hs.took_advance .absent).collectAs .ignore⟩

theorem refuses_endOfInput (h : ahead ≠ []) :
    (endOfInput : Step ν).Refuses ahead (.trailing ahead) 0 := by
  intro s hs
  refine ⟨_, if_neg (mt hs.atEnd_iff.1 h), rfl, rfl, ?_⟩
  rw [hs.rest]
  rfl

/-! ### One step -/

theorem Takes.collectedAs (h : p.Takes taken ahead v d) (d' : Disposition) :
    (collectedAs d' p).Takes taken ahead v d' := by
  intro s hs
  obtain ⟨t, ht, htook⟩ := h s hs
  refine ⟨t.collectAs d', ?_, htook.collectAs d'⟩
  simp [Step.collectedAs, ht, htook.failed]

theorem Refuses.collectedAs (h : p.Refuses ahead f n) (d : Disposition) :
    (collectedAs d p).Refuses ahead f n := by
  intro s hs
  obtain ⟨t, ht, hrefused⟩ := h s hs
  refine ⟨t, ?_, hrefused⟩
  simp [Step.collectedAs, ht, hrefused.failed]

theorem Takes.optional (h : p.Takes taken ahead v d) : (optional p).Takes taken ahead v .keep := by
  intro s hs
  obtain ⟨t, ht, htook⟩ := h s hs
  refine ⟨t.collectAs .keep, ?_, htook.collectAs .keep⟩
  simp [Step.optional, ht, htook.failed]

/-- What is left out takes nothing. -/
theorem Refuses.takes_optional (h : p.Refuses ahead f n) :
    (Step.optional p).Takes [] ahead .absent .keep := by
  intro s hs
  obtain ⟨t, ht, hrefused⟩ := h s hs
  refine ⟨t.rewind s.cursor, ?_, hs.took_rewind hrefused.input⟩
  simp [Step.optional, ht, hrefused.failed]

theorem Yields.map {g : Value ν → Value ν} (h : p.Yields taken ahead P d)
    (hg : ∀ w line, P w → Q ((g w).onLine line)) : (map g p).Yields taken ahead Q .keep := by
  intro s hs
  obtain ⟨t, w, ht, hw, htook⟩ := h s hs
  refine ⟨_, _, ?_, hg w t.line hw, htook.succeed hs _⟩
  simp [Step.map, ht, htook.failed, htook.result]

/-- A result that is no new node is changed without regard to lines. -/
theorem Takes.map {g : Value ν → Value ν} (h : p.Takes taken ahead v d)
    (hline : ∀ line, (g v).onLine line = g v) : (map g p).Takes taken ahead (g v) .keep := by
  refine takes_iff_yields.2 (Yields.map (takes_iff_yields.1 h) ?_)
  rintro _ line rfl
  exact hline line

theorem Refuses.map (h : p.Refuses ahead f n) (g : Value ν → Value ν) :
    (map g p).Refuses ahead f n := by
  intro s hs
  obtain ⟨t, ht, hrefused⟩ := h s hs
  refine ⟨t, ?_, hrefused⟩
  simp [Step.map, ht, hrefused.failed]

theorem Refuses.and (hp : p.Refuses ahead f n) (q : Step ν) : (and p q).Refuses ahead f n := by
  intro s hs
  obtain ⟨t, ht, hrefused⟩ := hp s hs
  refine ⟨t, ?_, hrefused⟩
  simp [Step.and, ht, hrefused.failed]

/-- Two steps in order fail where the second does. -/
theorem Takes.refuses_and (hp : p.Takes taken ahead v d) (hq : q.Refuses ahead f n) :
    (Step.and p q).Refuses (taken ++ ahead) f (Text.byteLength taken + n) := by
  intro s hs
  obtain ⟨t, ht, htook⟩ := hp s hs
  obtain ⟨u, hu, hrefused⟩ := hq _ (htook.at hs).collected
  have hplace := State.samePlace_collected t
  refine ⟨u, ?_, ?_, ?_, hrefused.failure⟩
  · simp [Step.and, ht, htook.failed, hu, hrefused.failed]
  · rw [hrefused.input, ← hplace.input, htook.input]
  · rw [hrefused.cursor, ← hplace.cursor, htook.cursor, Nat.add_assoc]

/-! ### Choice -/

theorem Yields.or_left (h : p.Yields taken ahead P d) (left right : String) (q : Step ν) :
    (or left right p q).Yields taken ahead P d := by
  intro s hs
  obtain ⟨t, w, ht, hw, htook⟩ := h s hs
  refine ⟨t, w, ?_, hw, htook⟩
  simp [Step.or, ht, htook.failed]

theorem Takes.or_left (h : p.Takes taken ahead v d) (left right : String) (q : Step ν) :
    (or left right p q).Takes taken ahead v d :=
  takes_iff_yields.2 ((takes_iff_yields.1 h).or_left left right q)

theorem Yields.or_right (hp : p.Refuses (taken ++ ahead) f n) (h : q.Yields taken ahead P d)
    (left right : String) : (or left right p q).Yields taken ahead P d := by
  intro s hs
  obtain ⟨t, ht, hrefused⟩ := hp s hs
  obtain ⟨u, w, hu, hw, htook⟩ := h _ (hs.rewind hrefused.input)
  refine ⟨u, w, ?_, hw, htook.of_samePlace (hs.onBoundary.samePlace_rewind hrefused.input)⟩
  simp [Step.or, ht, hrefused.failed, hu, htook.failed]

theorem Takes.or_right (hp : p.Refuses (taken ++ ahead) f n) (h : q.Takes taken ahead v d)
    (left right : String) : (or left right p q).Takes taken ahead v d :=
  takes_iff_yields.2 (Yields.or_right hp (takes_iff_yields.1 h) left right)

/-- Where both branches fail, so does the choice, and where it began. -/
theorem Refuses.or (hp : p.Refuses ahead f n) {f' : Failure} {n' : Nat}
    (hq : q.Refuses ahead f' n') (left right : String) :
    (or left right p q).Refuses ahead (.neither left right) 0 := by
  intro s hs
  obtain ⟨t, ht, hp⟩ := hp s hs
  obtain ⟨u, hu, hq⟩ := hq _ (hs.rewind hp.input)
  have hinput : u.input = s.input := hq.input.trans hp.input
  refine ⟨(u.rewind s.cursor).fail (.neither left right), ?_, hinput, ?_, rfl⟩
  · simp [Step.or, ht, hp.failed, hu, hq.failed]
  · exact (hs.onBoundary.samePlace_rewind hinput).cursor.symm

/-! ### Sequences -/

/-- The steps in order take `taken` in front of `ahead`, and add `items` to the list. -/
inductive InOrder : List (Step ν) → (taken ahead : List Char) → (items : List (Value ν)) → Prop where
  | nil {ahead : List Char} : InOrder [] [] ahead []
  | cons {p : Step ν} {ps : List (Step ν)} {taken taken' ahead : List Char} {v : Value ν}
      {d : Disposition} {items : List (Value ν)} (hp : p.Takes taken (taken' ++ ahead) v d)
      (hps : InOrder ps taken' ahead items) :
      InOrder (p :: ps) (taken ++ taken') ahead (State.keptOf v d ++ items)

variable {items : List (Value ν)}

/-- **A sequence takes what its steps take in order.** -/
theorem InOrder.takes (h : InOrder ps taken ahead items) :
    (sequence ps).Takes taken ahead (.list items) .keep := by
  suffices h : ∀ before : Array (Value ν),
      (sequenceFrom before ps).Takes taken ahead (.list (before.toList ++ items)) .keep from h #[]
  induction h with
  | nil =>
    intro before s hs
    rw [List.append_nil]
    exact ⟨_, rfl, hs.took_advance _⟩
  | cons hp hps ih =>
    intro before s hs
    rw [List.append_assoc] at hs
    obtain ⟨t, ht, htook⟩ := hp s hs
    obtain ⟨u, hu, htook'⟩ := ih (before ++ t.kept) _ (htook.at hs).collected
    rw [Array.toList_appendList, htook.kept, List.append_assoc] at htook'
    refine ⟨u, ?_, htook.trans (State.samePlace_collected t) htook'⟩
    simp [Step.sequenceFrom, ht, htook.failed, hu]

/-- **A sequence fails where the first of its steps does that fails.** -/
theorem InOrder.refuses (h : InOrder ps taken ahead items) (hp : p.Refuses ahead f n)
    (qs : List (Step ν)) :
    (sequence (ps ++ p :: qs)).Refuses (taken ++ ahead) f (Text.byteLength taken + n) := by
  suffices h : ∀ before : Array (Value ν), (sequenceFrom before (ps ++ p :: qs)).Refuses
      (taken ++ ahead) f (Text.byteLength taken + n) from h #[]
  induction h with
  | nil =>
    intro before s hs
    obtain ⟨t, ht, hrefused⟩ := hp s hs
    refine ⟨t, ?_, hrefused.input, ?_, hrefused.failure⟩
    · simp [Step.sequenceFrom, ht, hrefused.failed]
    · rw [hrefused.cursor, Text.byteLength_nil, Nat.zero_add]
  | cons hfirst _ ih =>
    intro before s hs
    rw [List.append_assoc] at hs
    obtain ⟨t, ht, htook⟩ := hfirst s hs
    obtain ⟨u, hu, hrefused⟩ := ih hp (before ++ t.kept) _ (htook.at hs).collected
    have hplace := State.samePlace_collected t
    refine ⟨u, ?_, ?_, ?_, hrefused.failure⟩
    · simp [Step.sequenceFrom, ht, htook.failed, hu]
    · rw [hrefused.input, ← hplace.input, htook.input]
    · rw [hrefused.cursor, ← hplace.cursor, htook.cursor, Text.byteLength_append, Nat.add_assoc,
        Nat.add_assoc]

/-! ### A step between two others -/

/-- A step between two others, with only its own result. -/
def between (opening closing center : Step ν) : Step ν :=
  map Value.head (sequence [collectedAs .ignore opening, center, collectedAs .ignore closing])

variable {opening closing center : Step ν} {x y : List Char} {w w' : Value ν} {e e' : Disposition}

/-- **The result is that of the step in the middle**, if that is not to be ignored. -/
theorem Takes.between (ho : opening.Takes x (taken ++ (y ++ ahead)) w e)
    (hp : center.Takes taken (y ++ ahead) v .keep) (hc : closing.Takes y ahead w' e')
    (hline : ∀ line, v.onLine line = v) :
    (between opening closing center).Takes (x ++ (taken ++ y)) ahead v .keep := by
  have hclose : InOrder [Step.collectedAs .ignore closing] (y ++ []) ahead [] :=
    .cons (hc.collectedAs .ignore) .nil
  rw [List.append_nil] at hclose
  have hcenter := InOrder.cons hp hclose
  have hopen := ho.collectedAs .ignore
  rw [← List.append_assoc] at hopen
  exact (InOrder.cons hopen hcenter).takes.map hline

/-- Where the step in the middle ends in front of something else, the whole fails. -/
theorem Takes.refuses_between (ho : opening.Takes x (taken ++ ahead) w e)
    (hp : center.Takes taken ahead v d) (hc : closing.Refuses ahead f n) :
    (Step.between opening closing center).Refuses (x ++ (taken ++ ahead)) f
      (Text.byteLength x + Text.byteLength taken + n) := by
  have hcenter : InOrder [center] (taken ++ []) ahead (State.keptOf v d ++ []) := .cons hp .nil
  rw [List.append_nil] at hcenter
  have h := (InOrder.cons (ho.collectedAs .ignore) hcenter).refuses (hc.collectedAs .ignore) []
  rw [List.append_assoc, Text.byteLength_append] at h
  exact h.map Value.head

theorem Refuses.between (ho : opening.Refuses ahead f n) (closing center : Step ν) :
    (Step.between opening closing center).Refuses ahead f n := by
  have h := InOrder.nil.refuses (ho.collectedAs .ignore)
    [center, Step.collectedAs .ignore closing]
  rw [Text.byteLength_nil, Nat.zero_add] at h
  exact h.map Value.head

/-! ### Values with separators between them -/

/-- In front of the text `taken ++ ahead`, the value and the separator in turn take `taken` until one
of them fails or both together take nothing; there are `count` values, and they add `items` to the
list. -/
inductive Alternates (value separator : Step ν) :
    (count : Nat) → (taken ahead : List Char) → (items : List (Value ν)) → Prop where
  | stop {ahead : List Char} {f : Failure} {n : Nat} (hvalue : value.Refuses ahead f n) :
      Alternates value separator 0 [] ahead []
  | last {taken ahead : List Char} {v : Value ν} {d : Disposition} {f : Failure} {n : Nat}
      (hvalue : value.Takes taken ahead v d) (hseparator : separator.Refuses ahead f n) :
      Alternates value separator 1 taken ahead (State.keptOf v d)
  | stalled {ahead : List Char} {v v' : Value ν} {d d' : Disposition}
      (hvalue : value.Takes [] ahead v d) (hseparator : separator.Takes [] ahead v' d') :
      Alternates value separator 1 [] ahead (State.keptOf v d)
  | next {count : Nat} {taken sep taken' ahead : List Char} {v v' : Value ν} {d d' : Disposition}
      {items : List (Value ν)} (hvalue : value.Takes taken (sep ++ (taken' ++ ahead)) v d)
      (hseparator : separator.Takes sep (taken' ++ ahead) v' d') (hne : taken ++ sep ≠ [])
      (htail : Alternates value separator count taken' ahead items) :
      Alternates value separator (count + 1) (taken ++ sep ++ taken') ahead
        (State.keptOf v d ++ items)

/-- **The rounds together take what each of them takes.**  Every round but the last takes some text,
so that a budget of one more than there are characters is enough. -/
theorem Alternates.separatedFrom {value separator : Step ν} {count : Nat} {items : List (Value ν)}
    (h : Alternates value separator count taken ahead items) {b : Nat} (hb : taken.length < b)
    {g : Harvest ν} (hg : g.state.At (taken ++ ahead)) :
    ∃ g', separatedFrom value separator b g = some g' ∧ g'.count = g.count + count ∧
      g'.items.toList = g.items.toList ++ items ∧ ∃ v d, g.state.Took taken v d g'.state := by
  obtain ⟨b, rfl⟩ := Nat.exists_eq_add_of_le' (Nat.lt_of_le_of_lt (Nat.zero_le _) hb)
  -- on the rounds: one that goes on has taken text, so the rest fits into a smaller budget
  induction h generalizing b g with
  | stop hvalue =>
    obtain ⟨t, ht, hrefused⟩ := hvalue g.state hg
    refine ⟨g.stop (t.rewind g.state.cursor), ?_, rfl, (List.append_nil _).symm, _, _,
      hg.took_rewind hrefused.input⟩
    simp [Step.separatedFrom, ht, hrefused.failed]
  | last hvalue hseparator =>
    obtain ⟨t, ht, htook⟩ := hvalue g.state hg
    obtain ⟨u, hu, hrefused⟩ := hseparator _ (htook.at hg).collected
    have hinput : u.input = t.input := hrefused.input.trans t.input_collected
    have hback := htook.trans ⟨rfl, rfl⟩ ((htook.at hg).took_rewind hinput)
    rw [List.append_nil] at hback
    refine ⟨(g.add t).stop (u.rewind t.cursor), ?_, rfl, htook.toList_add g, _, _, hback⟩
    simp [Step.separatedFrom, ht, htook.failed, Harvest.add, hu, hrefused.failed]
  | stalled hvalue hseparator =>
    obtain ⟨t, ht, htook⟩ := hvalue g.state hg
    obtain ⟨u, hu, htook'⟩ := hseparator _ (htook.at hg).collected
    have hboth := htook.trans (State.samePlace_collected t) htook'
    have hcursor : u.cursor = g.state.cursor := hboth.cursor
    refine ⟨(g.add t).stop u, ?_, rfl, htook.toList_add g, _, _, hboth⟩
    simp [Step.separatedFrom, ht, htook.failed, Harvest.add, hu, htook'.failed, hcursor]
  | @next count taken sep taken' ahead v v' d d' items hvalue hseparator hne htail ih =>
    rw [List.append_assoc, List.append_assoc] at hg
    obtain ⟨t, ht, htook⟩ := hvalue g.state hg
    obtain ⟨u, hu, htook'⟩ := hseparator _ (htook.at hg).collected
    have hboth := htook.trans (State.samePlace_collected t) htook'
    have hcursor : u.cursor ≠ g.state.cursor := by
      have hpos := Text.byteLength_pos hne
      rw [hboth.cursor]
      omega
    have hlength := List.length_pos_iff.2 hne
    rw [List.length_append] at hb
    have hrest : u.At (taken' ++ ahead) := by
      rw [← List.append_assoc] at hg
      exact hboth.at hg
    obtain ⟨b, rfl⟩ := Nat.exists_eq_add_of_le' (show 1 ≤ b by omega)
    obtain ⟨g', hg', hcount, hitems, w, e, htail⟩ :=
      ih (g := (g.add t).stop u) hrest b (by omega)
    have hround : Step.separatedFrom value separator (b + 1 + 1) g =
        Step.separatedFrom value separator (b + 1) ((g.add t).stop u) := by
      rw [Step.separatedFrom]
      simp [ht, htook.failed, Harvest.add, hu, htook'.failed, hcursor]
    refine ⟨g', hround.trans hg', ?_, ?_, w, e, hboth.trans ⟨rfl, rfl⟩ htail⟩
    · rw [hcount]
      show g.count + 1 + count = g.count + (count + 1)
      omega
    · rw [hitems, ← List.append_assoc]
      exact congrArg (· ++ items) (htook.toList_add g)

/-- **A repetition with separators takes what its rounds take together.** -/
theorem Alternates.takes {value separator : Step ν} {count : Nat} {items : List (Value ν)}
    (h : Alternates value separator count taken ahead items) {b : Nat} (hb : taken.length < b)
    {least : Nat} (hleast : least ≤ count) (valueLabel separatorLabel : String) :
    Takes (separated b least valueLabel separatorLabel value separator) taken ahead (.list items)
      .keep := by
  intro s hs
  obtain ⟨g, hg, hcount, hitems, v, d, htook⟩ := h.separatedFrom hb (g := .start s) hs
  have hitems : g.items.toList = items := hitems
  refine ⟨g.succeed, ?_, ?_⟩
  · have hle : ¬ g.count < least := by
      rw [hcount]
      exact Nat.not_lt.2 (Nat.le_trans hleast (Nat.le_add_left _ _))
    simp [Step.separated, hg, hle]
  · rw [Harvest.succeed, hitems]
    exact htook.succeed hs (.list items)

end Step

/-! ## Whole inputs -/

namespace Parser

theorem step_between (budget : Nat) (scope : Scope ν) (opening closing center : Parser ν) :
    (between opening closing center).step budget scope =
      Step.between (opening.step budget scope) (closing.step budget scope)
        (center.step budget scope) := by
  funext s
  rfl

variable {p : Parser ν} {input : Input}

theorem length_lt_budgetFor (input : Input) : input.chars.length < budgetFor input.size := by
  have hlength := Text.length_le_byteLength input.chars
  rw [budgetFor, input.size_eq]
  omega

theorem run_of_yields {taken ahead : List Char} {P : Value ν → Prop} {d : Disposition}
    (hinput : input.chars = taken ++ ahead)
    (h : Step.Yields (p.step (budgetFor input.size) Scope.none) taken ahead P d) :
    ∃ v, p.run input = some (.ok ⟨v, Text.byteLength taken⟩) ∧ P v := by
  obtain ⟨t, v, ht, hv, htook⟩ := h (.start input) (hinput ▸ State.at_start input)
  have hcursor : t.cursor = Text.byteLength taken :=
    htook.cursor.trans (Nat.zero_add (Text.byteLength taken))
  have hfinal : p.finalState input = some t := ht
  refine ⟨v, ?_, hv⟩
  rw [run, hfinal, Option.map_some, State.outcome, State.error?, htook.failure, htook.result,
    hcursor]
  rfl

/-- **A parser reports what it takes of the input.** -/
theorem run_of_takes {taken ahead : List Char} {v : Value ν} {d : Disposition}
    (hinput : input.chars = taken ++ ahead)
    (h : Step.Takes (p.step (budgetFor input.size) Scope.none) taken ahead v d) :
    p.run input = some (.ok ⟨v, Text.byteLength taken⟩) := by
  obtain ⟨_, hrun, rfl⟩ := run_of_yields hinput (Step.takes_iff_yields.1 h)
  exact hrun

/-- **A parser reports where and why it fails.** -/
theorem run_of_refuses {f : Failure} {n : Nat}
    (h : Step.Refuses (p.step (budgetFor input.size) Scope.none) input.chars f n) :
    p.run input = some (.error ⟨f.kind, f.message, n, input.line n⟩) := by
  obtain ⟨t, ht, hrefused⟩ := h (.start input) (State.at_start input)
  have hcursor : t.cursor = n := hrefused.cursor.trans (Nat.zero_add n)
  have hfinal : p.finalState input = some t := ht
  rw [run, hfinal, Option.map_some, State.outcome, State.error?, hrefused.failure, Option.map_some,
    State.line, hrefused.input, hcursor]
  rfl

end Parser

end TextGrammar
