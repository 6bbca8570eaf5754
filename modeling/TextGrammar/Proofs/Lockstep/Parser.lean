import TextGrammar.Parser.Run
import TextGrammar.Proofs.Lockstep.Step
import TextGrammar.Proofs.Parser.Budget

/-!
# Parsers in lockstep

Two parsers are alike if they are put together in the same way and their callbacks correspond.

* `Likeness` — which callbacks correspond to each other.
* `Parser.Alike` — parsers that differ in corresponding callbacks only, and in their names if these
  may differ.
* `Likeness.Sound` — what callbacks that correspond must do for the runs of a pairing.
* `Parser.Alike.lockstep` — then parsers that are alike run in lockstep.
* `Parser.Alike.ends` — so both end or none does, and they end alike.
-/

namespace TextGrammar

variable {ν : Type}

/-- Which callbacks of two parsers correspond. -/
structure Likeness (ν : Type) where
  /-- Results that may be told apart by no callback. -/
  values : Value ν → Value ν → Prop
  maps : (Value ν → Value ν) → (Value ν → Value ν) → Prop
  mapsWithLine : (Value ν → Nat → Value ν) → (Value ν → Nat → Value ν) → Prop
  recoveries : (ParseError → Value ν) → (ParseError → Value ν) → Prop
  actions : (State ν → State ν) → (State ν → State ν) → Prop
  /-- Whether names may differ. -/
  renames : Bool

namespace Parser

/-- Parsers that are put together in the same way, with callbacks that correspond. -/
inductive Alike (L : Likeness ν) : Parser ν → Parser ν → Prop where
  | literal (text : String) : Alike L (literal text) (literal text)
  | pattern (p : Pattern) : Alike L (pattern p) (pattern p)
  | endOfInput : Alike L endOfInput endOfInput
  | sequence {ps ps' : List (Parser ν)} (hlen : ps.length = ps'.length)
      (h : ∀ {p p' : Parser ν}, (p, p') ∈ ps.zip ps' → Alike L p p') :
      Alike L (sequence ps) (sequence ps')
  | and {left left' right right' : Parser ν} (hl : Alike L left left') (hr : Alike L right right') :
      Alike L (and left right) (and left' right')
  | or {left left' right right' : Parser ν} (hl : Alike L left left') (hr : Alike L right right') :
      Alike L (or left right) (or left' right')
  | choice {ps ps' : List (Parser ν)} (hlen : ps.length = ps'.length)
      (h : ∀ {p p' : Parser ν}, (p, p') ∈ ps.zip ps' → Alike L p p') :
      Alike L (choice ps) (choice ps')
  | optional {p p' : Parser ν} (h : Alike L p p') : Alike L (optional p) (optional p')
  | collectedAs (d : Disposition) {p p' : Parser ν} (h : Alike L p p') :
      Alike L (collectedAs d p) (collectedAs d p')
  | many (least : Nat) {p p' : Parser ν} (h : Alike L p p') : Alike L (many least p) (many least p')
  | separated (least : Nat) {value value' separator separator' : Parser ν}
      (hv : Alike L value value') (hs : Alike L separator separator') :
      Alike L (separated least value separator) (separated least value' separator')
  | all {p p' : Parser ν} (h : Alike L p p') : Alike L (all p) (all p')
  | map {f f' : Value ν → Value ν} (hf : L.maps f f') {p p' : Parser ν} (h : Alike L p p') :
      Alike L (map f p) (map f' p')
  | mapWithLine {f f' : Value ν → Nat → Value ν} (hf : L.mapsWithLine f f') {p p' : Parser ν}
      (h : Alike L p p') : Alike L (mapWithLine f p) (mapWithLine f' p')
  | recover {f f' : ParseError → Value ν} (hf : L.recoveries f f') {p p' : Parser ν}
      (h : Alike L p p') : Alike L (recover f p) (recover f' p')
  | chain {next next' : Value ν → Parser ν}
      (hn : ∀ v v', L.values v v' → Alike L (next v) (next' v')) {p p' : Parser ν}
      (h : Alike L p p') : Alike L (chain next p) (chain next' p')
  | named (label : String) {p p' : Parser ν} (h : Alike L p p') :
      Alike L (named label p) (named label p')
  | nameLeft (hr : L.renames = true) (label : String) {p p' : Parser ν} (h : Alike L p p') :
      Alike L (named label p) p'
  | nameRight (hr : L.renames = true) (label : String) {p p' : Parser ν} (h : Alike L p p') :
      Alike L p (named label p')
  | recursive (h : Handle) {body body' : Parser ν} (hb : Alike L body body') :
      Alike L (recursive h body) (recursive h body')
  | handle (h : Handle) : Alike L (handle h) (handle h)
  | custom (shown : String) {act act' : State ν → State ν} (h : L.actions act act') :
      Alike L (custom shown act) (custom shown act')

/-! ## Labels -/

theorem writeRest_congr {ps ps' : List (Parser ν)}
    (h : List.Forall₂ (fun p p' : Parser ν => ∀ depth, writeAt depth p = writeAt depth p') ps ps')
    (depth : Nat) (separator : String) :
    writeRest depth separator ps = writeRest depth separator ps' := by
  induction h with
  | nil => rfl
  | cons h _ ih =>
    funext label
    rw [writeRest, writeRest, h, ih]

theorem writeJoined_congr {ps ps' : List (Parser ν)}
    (h : List.Forall₂ (fun p p' : Parser ν => ∀ depth, writeAt depth p = writeAt depth p') ps ps')
    (depth : Nat) (separator : String) :
    writeJoined depth separator ps = writeJoined depth separator ps' := by
  cases h with
  | nil => rfl
  | cons h ht =>
    funext label
    rw [writeJoined, writeJoined, h, writeRest_congr ht]

/-- Parsers that are alike are written alike, if names may not differ. -/
theorem Alike.writeAt_eq {L : Likeness ν} (hr : L.renames = false) {p p' : Parser ν}
    (h : Alike L p p') (depth : Nat) : writeAt depth p = writeAt depth p' := by
  induction h generalizing depth with
  | literal text => rfl
  | pattern p => rfl
  | endOfInput => rfl
  | sequence hlen _ ih =>
    have hall := List.forall₂_iff_zip.2 ⟨hlen, fun hm => ih hm⟩
    funext label
    simp only [writeAt, writeJoined_congr hall]
  | and _ _ ihl ihr =>
    funext label
    simp only [writeAt, ihl, ihr]
  | or _ _ ihl ihr =>
    funext label
    simp only [writeAt, ihl, ihr]
  | choice hlen _ ih =>
    have hall := List.forall₂_iff_zip.2 ⟨hlen, fun hm => ih hm⟩
    funext label
    simp only [writeAt, writeJoined_congr hall]
  | optional _ ih =>
    funext label
    simp only [writeAt, ih]
  | collectedAs _ _ ih =>
    funext label
    simp only [writeAt, ih]
  | many _ _ ih =>
    funext label
    simp only [writeAt, ih]
  | separated _ _ _ ihv ihs =>
    funext label
    simp only [writeAt, ihv, ihs]
  | all _ ih =>
    funext label
    simp only [writeAt, ih]
  | map _ _ ih =>
    funext label
    simp only [writeAt, ih]
  | mapWithLine _ _ ih =>
    funext label
    simp only [writeAt, ih]
  | recover _ _ ih =>
    funext label
    simp only [writeAt, ih]
  | chain _ _ _ ih =>
    funext label
    simp only [writeAt, ih]
  | named label _ _ => rfl
  | nameLeft hn => rw [hr] at hn; cases hn
  | nameRight hn => rw [hr] at hn; cases hn
  | recursive _ _ ih =>
    funext label
    simp only [writeAt, ih]
  | handle _ => rfl
  | custom _ _ => rfl

theorem Alike.label_eq {L : Likeness ν} (hr : L.renames = false) {p p' : Parser ν}
    (h : Alike L p p') : p.label = p'.label := by
  rw [label, label, h.writeAt_eq hr]

end Parser

/-! ## Lockstep -/

/-- What callbacks that correspond do in the two runs of a pairing: they make of results that look
the same results that look the same, and names differ only if messages are not compared. -/
structure Likeness.Sound (L : Likeness ν) (K : Pairing ν) : Prop where
  values : ∀ v v', K.view.see v = K.view.see v' → L.values v v'
  maps : ∀ f f', L.maps f f' → ∀ v v' n, K.view.see v = K.view.see v' →
    K.view.see ((f v).onLine (K.ahead.count '\n' + n)) = K.view.see ((f' v').onLine n)
  mapsWithLine : ∀ f f', L.mapsWithLine f f' → ∀ v v' n, K.view.see v = K.view.see v' →
    K.view.see ((f v (K.ahead.count '\n' + n)).onLine (K.ahead.count '\n' + n)) =
      K.view.see ((f' v' n).onLine n)
  recoveries : ∀ f f', L.recoveries f f' → ∀ e e' : ParseError, e.kind = e'.kind →
    (K.strict = true → e.message = e'.message) →
    e.position = Text.byteLength K.ahead + e'.position → e.line = K.ahead.count '\n' + e'.line →
    K.view.see ((f e).onLine e.line) = K.view.see ((f' e').onLine e'.line)
  actions : ∀ act act', L.actions act act' → K.Lockstep (Step.ofState act) (Step.ofState act')
  renames : K.strict = true → L.renames = false

namespace Parser

open Pairing

variable {L : Likeness ν} {K : Pairing ν}

/-- **Parsers that are alike run in lockstep.** -/
theorem Alike.lockstep (hL : L.Sound K) {p p' : Parser ν} (h : Alike L p p') (b : Nat)
    {scope scope' : Scope ν} (hs : ∀ h, K.Lockstep (scope h) (scope' h)) :
    K.Lockstep (p.step b scope) (p'.step b scope') := by
  have labels : ∀ {p p' : Parser ν}, Alike L p p' → K.strict = true → p.label = p'.label :=
    fun h hstrict => h.label_eq (hL.renames hstrict)
  induction h generalizing scope scope' with
  | literal text => exact Lockstep.literal text
  | pattern p => exact Lockstep.pattern p
  | endOfInput => exact Lockstep.endOfInput
  | sequence hlen _ ih =>
    exact Lockstep.sequence (forall₂_steps (List.forall₂_iff_zip.2 ⟨hlen, fun hm => ih hm hs⟩))
  | and _ _ ihl ihr => exact (ihl hs).and (ihr hs)
  | or hl hr ihl ihr =>
    exact (ihl hs).or (fun hstrict => ⟨labels hl hstrict, labels hr hstrict⟩) (ihr hs)
  | choice hlen _ ih =>
    exact Lockstep.choice (forall₂_steps (List.forall₂_iff_zip.2 ⟨hlen, fun hm => ih hm hs⟩))
  | optional _ ih => exact (ih hs).optional
  | collectedAs d _ ih => exact (ih hs).collectedAs d
  | many least h ih => exact (ih hs).many b least (labels h)
  | separated least hv hsep ihv ihs =>
    exact (ihv hs).separated (ihs hs) b least
      (fun hstrict => ⟨labels hv hstrict, labels hsep hstrict⟩)
  | all h ih => exact (ih hs).all b (labels h)
  | map hf _ ih => exact Lockstep.map (hL.maps _ _ hf) (ih hs)
  | mapWithLine hf _ ih => exact Lockstep.mapWithLine (hL.mapsWithLine _ _ hf) (ih hs)
  | recover hf _ ih => exact Lockstep.recover (hL.recoveries _ _ hf) (ih hs)
  | chain _ _ ihn ih =>
    exact Lockstep.chain (fun v v' hv => ihn v v' (hL.values v v' hv) hs) (ih hs)
  | named _ _ ih => exact ih hs
  | nameLeft _ _ _ ih => exact ih hs
  | nameRight _ _ _ ih => exact ih hs
  | recursive h _ ih => exact Lockstep.fix (fun q q' hq => ih (Lockstep.bind hs h hq)) b
  | handle h => exact hs h
  | custom shown h => exact hL.actions _ _ h

/-- **Parsers that are alike end both or none, and if they end, alike.** -/
theorem Alike.ends (hL : L.Sound K) {p p' : Parser ν} (h : Alike L p p')
    {scope scope' : Scope ν} (hscope : ∀ h, K.Lockstep (scope h) (scope' h)) {s s' : State ν}
    (hs : s.failed = false) (hs' : s'.failed = false) (hp : K.Places s s') :
    ((∃ t, p.Ends scope s t) ↔ ∃ t', p'.Ends scope' s' t') ∧
      ∀ t t', p.Ends scope s t → p'.Ends scope' s' t' → K.Outcomes t t' :=
  ends_rel fun b => (h.lockstep hL b hscope).unlessFailed hs hs' hp

end Parser

end TextGrammar
