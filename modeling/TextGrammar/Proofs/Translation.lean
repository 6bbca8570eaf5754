import TextGrammar.Element
import TextGrammar.Parser.Run
import TextGrammar.Proofs.Lockstep.Parser

/-!
# Parsers see only the text ahead

A parser that is run in the middle of a text does what it would do if the text began there, except
that offsets and lines are counted from the start.  This takes callbacks that do not tell lines
apart, since lines are the one thing that values know of the place they come from.

* `Value.eraseLines` — a value without the lines of its nodes; `Element.eraseLines` for nodes that
  have values inside.
* `Likeness.blind`, `Parser.LineBlind` — callbacks that see values without their lines.
* `State.Behind` — a state in a text with something put in front, and the state without it.
* `Parser.ends_behind` — runs of a parser behind a text and of the same parser without that text.
-/

namespace TextGrammar

variable {ν : Type}

/-! ## Values without lines -/

mutual

/-- The value without the lines of its nodes, which are changed by `inner` themselves. -/
def Value.eraseLines (inner : ν → ν) : Value ν → Value ν
  | .token text => .token text
  | .list items => .list (Value.eraseLinesOfList inner items)
  | .node n _ => .node (inner n) none
  | .absent => .absent

/-- Values without the lines of their nodes. -/
def Value.eraseLinesOfList (inner : ν → ν) : List (Value ν) → List (Value ν)
  | [] => []
  | v :: vs => Value.eraseLines inner v :: Value.eraseLinesOfList inner vs

end

theorem Value.eraseLinesOfList_eq_map (inner : ν → ν) (items : List (Value ν)) :
    Value.eraseLinesOfList inner items = items.map (Value.eraseLines inner) := by
  induction items with
  | nil => rfl
  | cons v vs ih => rw [eraseLinesOfList, ih, List.map_cons]

/-- Erasing takes away what stamping puts there. -/
@[simp] theorem Value.eraseLines_onLine (inner : ν → ν) (line : Nat) (v : Value ν) :
    (v.onLine line).eraseLines inner = v.eraseLines inner := by
  match v with
  | .token _ => rfl
  | .list _ => rfl
  | .node _ none => rfl
  | .node _ (some _) => rfl
  | .absent => rfl

/-- Values seen without lines. -/
def View.withoutLines (inner : ν → ν) : View ν where
  see := Value.eraseLines inner
  see_token _ := rfl
  see_list items := by rw [Value.eraseLines, Value.eraseLinesOfList_eq_map]
  see_node n line := ⟨inner n, none, rfl⟩
  see_absent := rfl

mutual

/-- The element without the lines of the nodes in it. -/
def Element.eraseLines : Element → Element
  | .mk tag v => .mk tag (Element.eraseLinesOfValue v)

/-- A value of elements without any lines. -/
def Element.eraseLinesOfValue : Value Element → Value Element
  | .token text => .token text
  | .list items => .list (Element.eraseLinesOfValues items)
  | .node e _ => .node e.eraseLines none
  | .absent => .absent

/-- Values of elements without any lines. -/
def Element.eraseLinesOfValues : List (Value Element) → List (Value Element)
  | [] => []
  | v :: vs => Element.eraseLinesOfValue v :: Element.eraseLinesOfValues vs

end

mutual

theorem Element.eraseLinesOfValue_eq (v : Value Element) :
    Element.eraseLinesOfValue v = v.eraseLines Element.eraseLines := by
  cases v with
  | token text => rfl
  | list items =>
    rw [eraseLinesOfValue, Value.eraseLines, Element.eraseLinesOfValues_eq]
  | node e line => rfl
  | absent => rfl

theorem Element.eraseLinesOfValues_eq (vs : List (Value Element)) :
    Element.eraseLinesOfValues vs = Value.eraseLinesOfList Element.eraseLines vs := by
  cases vs with
  | nil => rfl
  | cons v vs =>
    rw [eraseLinesOfValues, Value.eraseLinesOfList, Element.eraseLinesOfValue_eq,
      Element.eraseLinesOfValues_eq]

end

@[simp] theorem Element.eraseLines_mk (tag : String) (v : Value Element) :
    (Element.mk tag v).eraseLines = .mk tag (v.eraseLines Element.eraseLines) := by
  rw [eraseLines, eraseLinesOfValue_eq]

/-! ## Callbacks that do not see lines -/

/-- Callbacks correspond if they make values that are equal without lines of values that are;
those of a recovery see the kind and the message alone.  There are no callbacks for lines, and no
actions but to succeed with a value or to fail. -/
def Likeness.blind (inner : ν → ν) : Likeness ν where
  values v v' := v.eraseLines inner = v'.eraseLines inner
  maps f f' := ∀ v v', v.eraseLines inner = v'.eraseLines inner →
    (f v).eraseLines inner = (f' v').eraseLines inner
  mapsWithLine _ _ := False
  recoveries f f' := ∀ e e' : ParseError, e.kind = e'.kind → e.message = e'.message →
    (f e).eraseLines inner = (f' e').eraseLines inner
  actions act act' :=
    (∃ v v', v.eraseLines inner = v'.eraseLines inner ∧ (act = fun s => s.succeed v) ∧
      act' = fun s => s.succeed v') ∨
    ∃ failure, (act = fun s => s.fail failure) ∧ act' = fun s => s.fail failure
  renames := false

/-- The callbacks of the parser do not tell lines apart: they correspond to themselves. -/
def Parser.LineBlind (inner : ν → ν) (p : Parser ν) : Prop :=
  Parser.Alike (Likeness.blind inner) p p

/-- Runs behind a text and without it, with results seen without lines. -/
def Pairing.behind (inner : ν → ν) (ahead : List Char) : Pairing ν :=
  ⟨ahead, View.withoutLines inner, true⟩

theorem Likeness.blind_sound (inner : ν → ν) (ahead : List Char) :
    (Likeness.blind inner).Sound (Pairing.behind inner ahead) where
  values _ _ h := h
  maps f f' hf v v' n hv := by
    show ((f v).onLine _).eraseLines inner = ((f' v').onLine n).eraseLines inner
    rw [Value.eraseLines_onLine, Value.eraseLines_onLine]
    exact hf v v' hv
  mapsWithLine _ _ hf := hf.elim
  recoveries f f' hf e e' hkind hmessage _ _ := by
    show ((f e).onLine _).eraseLines inner = ((f' e').onLine _).eraseLines inner
    rw [Value.eraseLines_onLine, Value.eraseLines_onLine]
    exact hf e e' hkind (hmessage rfl)
  actions act act' h := by
    intro s s' _ _ hp
    rcases h with ⟨v, v', hv, rfl, rfl⟩ | ⟨failure, rfl, rfl⟩
    · exact .some (Pairing.Outcomes.succeed hp hv)
    · exact .some (Pairing.Outcomes.fail hp (Pairing.Failures.refl failure))
  renames _ := rfl

/-! ## Runs behind a text -/

/-- The state `t` lies behind the text `ahead`, and `t'` is the same without it: both have succeeded,
with results that are equal without lines, or both have failed for the same reason, and offsets and
lines differ by those of `ahead`. -/
def State.Behind (inner : ν → ν) (ahead : List Char) (t t' : State ν) : Prop :=
  match t.error?, t'.error? with
  | none, none =>
    t.cursor = Text.byteLength ahead + t'.cursor ∧ t.disposition = t'.disposition ∧
      t.result.eraseLines inner = t'.result.eraseLines inner
  | some e, some e' =>
    e.kind = e'.kind ∧ e.message = e'.message ∧
      e.position = Text.byteLength ahead + e'.position ∧ e.line = ahead.count '\n' + e'.line
  | _, _ => False

theorem State.failed_eq_false_of_error? {t : State ν} (h : t.error? = none) : t.failed = false := by
  unfold State.error? at h
  rw [State.failed, Option.map_eq_none_iff.1 h]
  rfl

theorem Pairing.Outcomes.behind {inner : ν → ν} {ahead : List Char} {t t' : State ν}
    (h : (Pairing.behind inner ahead).Outcomes t t') : t.Behind inner ahead t' := by
  have herror := h.error?_rel
  unfold State.Behind
  cases he : t.error? with
  | none =>
    rw [he] at herror
    cases he' : t'.error? with
    | none =>
      have hok := State.failed_eq_false_of_error? he
      exact ⟨h.cursor, h.disposition hok, h.result hok⟩
    | some e' => rw [he'] at herror; cases herror
  | some e =>
    rw [he] at herror
    cases he' : t'.error? with
    | none => rw [he'] at herror; cases herror
    | some e' =>
      rw [he'] at herror
      cases herror with
      | some herror => exact ⟨herror.1, herror.2.1 rfl, herror.2.2⟩

namespace Parser

/-- **Parsers see only the text ahead.**  A parser whose callbacks do not tell lines apart, run
behind a text `u`, ends if and only if it ends without that text in front; and it ends alike, with
offsets and lines that differ by those of `u`. -/
theorem ends_behind {inner : ν → ν} {p : Parser ν} (hp : p.LineBlind inner) {u w : List Char}
    {s s' : State ν} (hs : s.failed = false) (hs' : s'.failed = false)
    (hinput : s.input = .ofChars (u ++ w)) (hcursor : s.cursor = Text.byteLength u)
    (hinput' : s'.input = .ofChars w) (hcursor' : s'.cursor = 0) :
    ((∃ t, p.Ends Scope.none s t) ↔ ∃ t', p.Ends Scope.none s' t') ∧
      ∀ t t', p.Ends Scope.none s t → p.Ends Scope.none s' t' → t.Behind inner u t' := by
  have hplaces : (Pairing.behind inner u).Places s s' := by
    refine ⟨?_, ?_⟩
    · rw [hinput, hinput']
      rfl
    · rw [hcursor, hcursor']
      rfl
  obtain ⟨hiff, hends⟩ := Alike.ends (Likeness.blind_sound inner u) hp
    (fun h => Pairing.Lockstep.stray) hs hs' hplaces
  exact ⟨hiff, fun t t' ht ht' => (hends t t' ht ht').behind⟩

/-- A node behind a line is the node without that line, one line up. -/
theorem ends_behind_map_node :
    State.Behind Element.eraseLines "a\n".toList
      ((((State.start (.ofChars "a\nb".toList)).advance 2 .absent).advance 1 (.token "b")).succeed
        (.node (.mk "n" (.token "b")) (some 2)))
      (((State.start (.ofChars "b".toList)).advance 1 (.token "b")).succeed
        (.node (.mk "n" (.token "b")) (some 1))) := by
  have hblind : (map (Change.node "n").apply (literal "b")).LineBlind Element.eraseLines := by
    refine .map (fun v v' h => ?_) (.literal "b")
    show Value.node (Element.mk "n" v).eraseLines none = .node (Element.mk "n" v').eraseLines none
    rw [Element.eraseLines_mk, Element.eraseLines_mk, h]
  have hrun : ∀ (s : State Element) (line : Nat), s.line = line →
      ((s.succeed (((Change.node "n").apply (.token "b")).onLine s.line)) =
        s.succeed (.node (.mk "n" (.token "b")) (some line))) := by
    rintro s _ rfl
    rfl
  have hline : ∀ s : State Element, s.line = 1 + Text.newlinesBefore s.input.chars s.cursor :=
    fun s => s.input.line_eq s.cursor
  have hs : ((State.start (.ofChars "a\nb".toList) : State Element).advance 2 .absent).failed =
    false := rfl
  have hs' : (State.start (.ofChars "b".toList) : State Element).failed = false := rfl
  refine (ends_behind hblind hs hs' rfl rfl rfl rfl).2 _ _ ⟨1, ?_⟩ ⟨1, ?_⟩
  · exact congrArg some (hrun (((State.start (.ofChars "a\nb".toList)).advance 2 .absent).advance 1
      (.token "b")) 2 (hline _))
  · exact congrArg some (hrun ((State.start (.ofChars "b".toList)).advance 1 (.token "b")) 1
      (hline _))

end Parser

end TextGrammar
