import TextGrammar.Parser.Basic
import TextGrammar.Parser.Rendering
import TextGrammar.Proofs.Text.Offset

/-!
# Labels are cut texts

The label of a parser is its whole text, or the longest beginning that fits with dots behind it, in
whatever pieces the text is written and wherever the label is full.

* `Text.LongestFront` — the longest beginning of a text within a number of bytes.
* `Label.write_write` — writing two pieces is writing one.
* `Parser.writeAt_eq` — so writing a parser is writing its text.
* `Rendering.Renders` — what a rendering does with any sink: it hands it what makes up a text, and sets
  the counter back.
* `Parser.renders` — so a parser is rendered, with the text that it has at the depth.
* `Label.feed_sink` — what becomes of a label that is written until it is full.
* `Sink.exists_feed_inPieces` — texts that are taken in pieces are still taken in order.
* `Parser.label_shows` — the label of a parser, and that of a rendering, show its text.
-/

namespace TextGrammar

/-! ## Fronts of texts -/

namespace Text

theorem takeBytes_append_of_le {front : List Char} {n : Nat} (h : byteLength front ≤ n)
    (back : List Char) :
    takeBytes n (front ++ back) = front ++ takeBytes (n - byteLength front) back := by
  obtain ⟨k, rfl⟩ := Nat.exists_eq_add_of_le h
  rw [takeBytes_append, Nat.add_sub_cancel_left]

theorem takeBytes_append_of_lt {front : List Char} {n : Nat} (h : n < byteLength front)
    (back : List Char) : takeBytes n (front ++ back) = takeBytes n front := by
  induction front generalizing n with
  | nil => exact absurd h (Nat.not_lt_zero n)
  | cons c cs ih =>
    rw [byteLength_cons] at h
    rw [List.cons_append, takeBytes, takeBytes]
    split
    · rw [ih (by omega)]
    · rfl

theorem byteLength_takeBytes_le (text : List Char) (n : Nat) :
    byteLength (takeBytes n text) ≤ n := by
  rw [← lastBoundary_eq]
  exact lastBoundary_le text n

/-- The longest beginning of the text that takes no more bytes than the limit and ends between
characters. -/
structure LongestFront (limit : Nat) (text front : List Char) : Prop where
  isPrefix : front <+: text
  le_limit : byteLength front ≤ limit
  longest : ∀ other, other <+: text → byteLength other ≤ limit → other <+: front

theorem longestFront_takeBytes (limit : Nat) (text : List Char) :
    LongestFront limit text (takeBytes limit text) where
  isPrefix := by
    obtain ⟨back, h⟩ := exists_eq_takeBytes_append text limit
    exact ⟨back, h.symm⟩
  le_limit := byteLength_takeBytes_le text limit
  longest := by
    rintro other ⟨back, rfl⟩ hlimit
    rw [takeBytes_append_of_le hlimit]
    exact List.prefix_append _ _

end Text

theorem utf8ByteSize_ofList (text : List Char) :
    (String.ofList text).utf8ByteSize = Text.byteLength text := by
  induction text with
  | nil => rfl
  | cons c cs ih =>
    rw [String.ofList_cons, String.utf8ByteSize_append, String.utf8ByteSize_singleton, ih,
      Text.byteLength_cons]

theorem utf8ByteSize_eq (text : String) : text.utf8ByteSize = Text.byteLength text.toList := by
  rw [← utf8ByteSize_ofList, String.ofList_toList]

/-! ## Writing to labels -/

namespace Label

variable {label : Label}

theorem write_of_full (h : label.full = true) (piece : String) : label.write piece = label := by
  rw [write, if_pos h]

/-- What fits is put behind the text. -/
theorem write_of_fits (h : label.full = false) {piece : String}
    (hfits : piece.utf8ByteSize ≤ labelLimit - label.text.utf8ByteSize) :
    label.write piece = ⟨label.text ++ piece, false⟩ := by
  simp only [write, h, Bool.false_eq_true, if_false, if_pos hfits]

/-- What does not fit is cut, and fills the label. -/
theorem write_of_cut (h : label.full = false) {piece : String}
    (hcut : ¬ piece.utf8ByteSize ≤ labelLimit - label.text.utf8ByteSize) :
    label.write piece = ⟨label.text ++ String.ofList
      (Text.takeBytes (labelLimit - label.text.utf8ByteSize) piece.toList), true⟩ := by
  simp only [write, h, Bool.false_eq_true, if_false, if_neg hcut]

@[simp] theorem write_empty (label : Label) : label.write "" = label := by
  cases h : label.full with
  | true => exact write_of_full h ""
  | false =>
    rw [write_of_fits h (Nat.zero_le _), String.append_empty, ← h]

/-- **Writing two pieces is writing one.** -/
theorem write_write (label : Label) (a b : String) :
    (label.write a).write b = label.write (a ++ b) := by
  cases hfull : label.full with
  | true => rw [write_of_full hfull, write_of_full hfull, write_of_full hfull]
  | false =>
    generalize hroom : labelLimit - label.text.utf8ByteSize = room
    have hsize : (a ++ b).utf8ByteSize = a.utf8ByteSize + b.utf8ByteSize :=
      String.utf8ByteSize_append
    by_cases ha : a.utf8ByteSize ≤ room
    · rw [write_of_fits hfull (hroom ▸ ha)]
      have hleft : labelLimit - (label.text ++ a).utf8ByteSize = room - a.utf8ByteSize := by
        rw [String.utf8ByteSize_append]
        omega
      by_cases hb : b.utf8ByteSize ≤ room - a.utf8ByteSize
      · rw [write_of_fits rfl (hleft ▸ hb), write_of_fits hfull (by omega), String.append_assoc]
      · rw [write_of_cut rfl (hleft ▸ hb), write_of_cut hfull (by omega), hleft, hroom,
          String.toList_append, Text.takeBytes_append_of_le (utf8ByteSize_eq a ▸ ha),
          String.ofList_append, String.ofList_toList, String.append_assoc, ← utf8ByteSize_eq]
    · rw [write_of_cut hfull (hroom ▸ ha), write_of_full rfl, write_of_cut hfull (by omega), hroom,
        String.toList_append, Text.takeBytes_append_of_lt (by rw [← utf8ByteSize_eq]; omega)]

/-- A part of a text is written unless it is too deep. -/
theorem shallow_eq {depth : Nat} {write : Label → Label} {text : Unit → String}
    (h : ∀ label : Label, write label = label.write (text ())) (label : Label) :
    label.shallow depth write = label.write (TextGrammar.shallow depth text) := by
  rw [Label.shallow, TextGrammar.shallow]
  split
  · next hfull => rw [write_of_full hfull]
  · split
    · rfl
    · exact h label

end Label

namespace Parser

variable {ν : Type} {p : Parser ν}

theorem writeRest_eq {ps : List (Parser ν)} {depth : Nat} (separator : String)
    (h : ∀ p ∈ ps, ∀ label : Label, p.writeAt depth label = label.write (p.textAt depth))
    (label : Label) :
    writeRest depth separator ps label = label.write (restText depth separator ps) := by
  induction ps generalizing label with
  | nil => rw [writeRest, restText, Label.write_empty]
  | cons p ps ih =>
    rw [writeRest, restText]
    split
    · next hfull => rw [Label.write_of_full hfull]
    · rw [ih fun q hq => h q (List.mem_cons_of_mem _ hq), h p List.mem_cons_self, Label.write_write,
        Label.write_write, String.append_assoc]

theorem writeJoined_eq {ps : List (Parser ν)} {depth : Nat} (separator : String)
    (h : ∀ p ∈ ps, ∀ label : Label, p.writeAt depth label = label.write (p.textAt depth))
    (label : Label) :
    writeJoined depth separator ps label = label.write (joinedText depth separator ps) := by
  cases ps with
  | nil => rw [writeJoined, joinedText, Label.write_empty]
  | cons p ps =>
    rw [writeJoined, joinedText, h p List.mem_cons_self,
      writeRest_eq separator fun q hq => h q (List.mem_cons_of_mem _ hq), Label.write_write]

/-- **Writing a parser is writing its text.** -/
theorem writeAt_eq (p : Parser ν) (depth : Nat) (label : Label) :
    p.writeAt depth label = label.write (p.textAt depth) := by
  induction p generalizing depth label with
  | named name p _ => rw [writeAt, textAt]
  | literal | endOfInput | handle | custom =>
    rw [writeAt, textAt]
    apply Label.shallow_eq
    intro label
    rfl
  | pattern p =>
    rw [writeAt, textAt]
    apply Label.shallow_eq
    intro label
    simp only [Label.write_write, String.append_assoc]
  | sequence ps ih =>
    rw [writeAt, textAt]
    exact Label.shallow_eq (writeJoined_eq " " fun p hp => ih p hp (depth + 1)) label
  | choice ps ih =>
    rw [writeAt, textAt]
    apply Label.shallow_eq
    intro label
    simp only [writeJoined_eq " | " fun p hp => ih p hp (depth + 1), Label.write_write,
      String.append_assoc]
  | and left right ih ih' | or left right ih ih' | separated _ left right ih ih' =>
    rw [writeAt, textAt]
    apply Label.shallow_eq
    intro label
    simp only [ih, ih', Label.write_write, String.append_assoc]
  | optional p ih | many least p ih | all p ih | chain _ p _ ih =>
    rw [writeAt, textAt]
    apply Label.shallow_eq
    intro label
    simp only [ih, Label.write_write, String.append_assoc]
  | collectedAs _ p ih | map _ p ih | mapWithLine _ p ih | recover _ p ih | recursive _ p ih =>
    rw [writeAt, textAt]
    exact Label.shallow_eq (ih (depth + 1)) label

theorem label_eq (p : Parser ν) : p.label = (Label.empty.write p.text).finish := by
  rw [label, writeAt_eq, text]

end Parser

/-! ## Renderings -/

theorem Sink.feed_append {σ : Type} (sink : Sink σ) (xs ys : List String) (out : σ) :
    sink.feed (xs ++ ys) out = sink.feed xs out >>= sink.feed ys := by
  induction xs generalizing out with
  | nil => rfl
  | cons x xs ih =>
    rw [List.cons_append, feed, feed, bind_assoc]
    exact bind_congr ih

namespace Rendering

variable {depth : Nat} {a b : String} {f g : (σ : Type) → Sink σ → Render σ}

/-- With any sink, and whatever has been put out, the rendering hands the sink the same texts, which
together are the text, in order and up to the one at which it stops.  It ends at the depth where it
began. -/
def Renders (f : (σ : Type) → Sink σ → Render σ) (depth : Nat) (text : String) : Prop :=
  ∃ texts, String.join texts = text ∧ ∀ (σ : Type) (sink : Sink σ) (out : σ),
    f σ sink ⟨out, depth⟩ = settle depth (sink.feed texts out)

theorem renders_put (depth : Nat) (text : String) :
    Renders (fun _ sink => put sink text) depth text := by
  refine ⟨[text], String.empty_append, fun σ sink out => ?_⟩
  show settle depth (sink text out) = settle depth (sink text out >>= sink.feed [])
  cases sink text out <;> rfl

theorem renders_pure (depth : Nat) : Renders (fun _ _ => pure) depth "" :=
  ⟨[], rfl, fun _ _ _ => rfl⟩

/-- What comes behind is not begun if the rendering has been stopped. -/
theorem Renders.andThen (hf : Renders f depth a) (hg : Renders g depth b) :
    Renders (fun σ sink => f σ sink >=> g σ sink) depth (a ++ b) := by
  obtain ⟨xs, rfl, hf⟩ := hf
  obtain ⟨ys, rfl, hg⟩ := hg
  refine ⟨xs ++ ys, String.join_append, fun σ sink out => ?_⟩
  show f σ sink ⟨out, depth⟩ >>= g σ sink = _
  rw [hf, Sink.feed_append]
  cases sink.feed xs out with
  | ok out => exact hg σ sink out
  | error out => rfl

theorem setDepth_settle {σ : Type} (depth inner : Nat) (e : Except σ σ) :
    setDepth depth (settle inner e) = settle depth e := by
  cases e <;> rfl

theorem output_settle {σ : Type} (depth : Nat) (e : Except σ σ) :
    output (settle depth e) = e := by
  cases e <;> rfl

/-- The counter is set back, whether the rendering is complete or has been stopped. -/
theorem Renders.level (hf : Renders f (depth + 1) a) :
    Renders (fun σ sink => Rendering.level sink (f σ sink)) depth (shallow depth fun _ => a) := by
  rw [shallow]
  split
  · next hdeep =>
    obtain ⟨texts, hjoin, hput⟩ := renders_put (depth + 1) ellipsis
    refine ⟨texts, hjoin, fun σ sink out => ?_⟩
    simp only [Rendering.level, if_pos hdeep, hput, setDepth_settle]
  · next hshallow =>
    obtain ⟨texts, hjoin, hf⟩ := hf
    refine ⟨texts, hjoin, fun σ sink out => ?_⟩
    simp only [Rendering.level, if_neg hshallow, hf, setDepth_settle]

end Rendering

namespace Parser

open Rendering

variable {ν : Type}

theorem renders_rest {ps : List (Parser ν)} {depth : Nat} (separator : String)
    (h : ∀ p ∈ ps, Renders (fun _ sink => p.render sink) depth (p.textAt depth)) :
    Renders (fun _ sink => renderRest sink separator ps) depth (restText depth separator ps) := by
  induction ps with
  | nil => exact renders_pure depth
  | cons p ps ih =>
    have hrest := ih fun q hq => h q (List.mem_cons_of_mem _ hq)
    simp only [renderRest, restText, String.append_assoc]
    exact (renders_put depth separator).andThen ((h p List.mem_cons_self).andThen hrest)

theorem renders_joined {ps : List (Parser ν)} {depth : Nat} (separator : String)
    (h : ∀ p ∈ ps, Renders (fun _ sink => p.render sink) depth (p.textAt depth)) :
    Renders (fun _ sink => renderJoined sink separator ps) depth
      (joinedText depth separator ps) := by
  cases ps with
  | nil => exact renders_pure depth
  | cons p ps =>
    exact (h p List.mem_cons_self).andThen
      (renders_rest separator fun q hq => h q (List.mem_cons_of_mem _ hq))

/-- **A parser is rendered with the text that it has at the depth.** -/
theorem renders (p : Parser ν) (depth : Nat) :
    Renders (fun _ sink => p.render sink) depth (p.textAt depth) := by
  induction p generalizing depth with
  | named name p _ =>
    simp only [render, textAt]
    exact renders_put depth name
  | literal | endOfInput | handle | custom =>
    simp only [render, textAt]
    exact (renders_put (depth + 1) _).level
  | pattern p =>
    simp only [render, textAt, String.append_assoc]
    exact ((renders_put _ "/").andThen ((renders_put _ p.source).andThen (renders_put _ "/"))).level
  | sequence ps ih =>
    simp only [render, textAt]
    exact (renders_joined " " fun p hp => ih p hp (depth + 1)).level
  | choice ps ih =>
    simp only [render, textAt, String.append_assoc]
    exact ((renders_put _ "(").andThen ((renders_joined " | " fun p hp =>
      ih p hp (depth + 1)).andThen (renders_put _ ")"))).level
  | and left right ih ih' | or left right ih ih' | separated _ left right ih ih' =>
    simp only [render, textAt, String.append_assoc]
    exact ((ih (depth + 1)).andThen ((renders_put _ _).andThen (ih' (depth + 1)))).level
  | optional p ih =>
    simp only [render, textAt, String.append_assoc]
    exact ((renders_put _ "[").andThen ((ih (depth + 1)).andThen (renders_put _ "]"))).level
  | many least p ih | all p ih | chain _ p _ ih =>
    simp only [render, textAt, String.append_assoc]
    exact ((ih (depth + 1)).andThen (renders_put _ _)).level
  | collectedAs _ p ih | map _ p ih | mapWithLine _ p ih | recover _ p ih | recursive _ p ih =>
    simp only [render, textAt]
    exact (ih (depth + 1)).level

/-- The texts are the same for every sink. -/
theorem exists_texts (p : Parser ν) (depth : Nat) :
    ∃ texts, String.join texts = p.textAt depth ∧ ∀ (σ : Type) (sink : Sink σ) (out : σ),
      p.render sink ⟨out, depth⟩ = settle depth (sink.feed texts out) :=
  renders p depth

end Parser

/-! ## What labels show -/

namespace Label

variable {label : Label} {text shown : String}

/-- What is shown of the text is the whole of it if it keeps to the limit, and otherwise its longest
front that does, with dots behind it. -/
structure Shows (limit : Nat) (text shown : String) : Prop where
  whole : text.utf8ByteSize ≤ limit → shown = text
  cut : limit < text.utf8ByteSize →
    ∃ front, Text.LongestFront limit text.toList front ∧ shown = String.ofList front ++ "..."

/-- The limit and the dots are all the room that is needed. -/
theorem Shows.size_le {limit : Nat} (h : Shows limit text shown) :
    shown.utf8ByteSize ≤ limit + 3 := by
  rcases Nat.lt_or_ge limit text.utf8ByteSize with hlt | hle
  · obtain ⟨front, hfront, rfl⟩ := h.cut hlt
    rw [String.utf8ByteSize_append, utf8ByteSize_ofList]
    exact Nat.add_le_add_right hfront.le_limit 3
  · rw [h.whole hle]
    omega

theorem shows_finish (text : String) : Shows labelLimit text (empty.write text).finish where
  whole h := by
    have hfits : text.utf8ByteSize ≤ labelLimit - empty.text.utf8ByteSize := h
    rw [write_of_fits rfl hfits, finish, if_neg Bool.false_ne_true]
    exact String.empty_append
  cut h := by
    have hcut : ¬ text.utf8ByteSize ≤ labelLimit - empty.text.utf8ByteSize := Nat.not_le.2 h
    refine ⟨_, Text.longestFront_takeBytes labelLimit text.toList, ?_⟩
    rw [write_of_cut rfl hcut, finish, if_pos rfl]
    exact congrArg (· ++ ellipsis) String.empty_append

/-- The label has not outgrown its limit. -/
def Fits (label : Label) : Prop := label.text.utf8ByteSize ≤ labelLimit

theorem fits_empty : empty.Fits := Nat.zero_le labelLimit

theorem Fits.write (h : label.Fits) (piece : String) : (label.write piece).Fits := by
  unfold Fits at h ⊢
  cases hfull : label.full with
  | true => rwa [write_of_full hfull]
  | false =>
    by_cases hfits : piece.utf8ByteSize ≤ labelLimit - label.text.utf8ByteSize
    · rw [write_of_fits hfull hfits, String.utf8ByteSize_append]
      omega
    · have hfront := Text.byteLength_takeBytes_le piece.toList
        (labelLimit - label.text.utf8ByteSize)
      rw [write_of_cut hfull hfits, String.utf8ByteSize_append, utf8ByteSize_ofList]
      omega

/-- The sink writes, and stops if that fills the label. -/
theorem sink_eq (hfull : label.full = false) (h : label.Fits) (piece : String) :
    sink piece (some label) =
      if (label.write piece).full = true then .error (some (label.write piece))
      else .ok (some (label.write piece)) := by
  unfold Fits at h
  rw [sink, if_pos h]
  by_cases hfits : piece.utf8ByteSize ≤ labelLimit - label.text.utf8ByteSize
  · simp only [write_of_fits hfull hfits, if_pos hfits, Bool.false_eq_true, if_false, hfull]
  · simp only [write_of_cut hfull hfits, if_neg hfits, if_true]

/-- **A label is written until it is full**, in whatever pieces, and never outgrows its limit. -/
theorem feed_sink (hfull : label.full = false) (h : label.Fits) (pieces : List String) :
    sink.feed pieces (some label) =
      if (label.write (String.join pieces)).full = true then
        .error (some (label.write (String.join pieces)))
      else .ok (some (label.write (String.join pieces))) := by
  induction pieces generalizing label with
  | nil =>
    rw [String.join_nil, write_empty, hfull, if_neg Bool.false_ne_true]
    rfl
  | cons piece pieces ih =>
    rw [Sink.feed, sink_eq hfull h, String.join_cons, ← write_write]
    cases hpiece : (label.write piece).full with
    | true =>
      rw [write_of_full hpiece, hpiece]
      rfl
    | false => exact ih hpiece (h.write piece)

end Label

namespace Sink

/-- Everything is put out. -/
theorem feed_whole (texts : List String) (out : String) :
    whole.feed texts out = .ok (out ++ String.join texts) := by
  induction texts generalizing out with
  | nil => exact congrArg Except.ok String.append_empty.symm
  | cons text texts ih =>
    rw [String.join_cons, ← String.append_assoc]
    exact ih (out ++ text)

/-- The sink is fed all the pieces one after the other, across the texts. -/
theorem exists_feed_inPieces (chunking : Chunking) (texts : List String) (before : Nat) :
    ∃ pieces, String.join pieces = String.join texts ∧ ∀ (σ : Type) (sink : Sink σ) (out : σ),
      uncounted ((sink.inPieces chunking).feed texts (before, out)) = sink.feed pieces out := by
  induction texts generalizing before with
  | nil => exact ⟨[], rfl, fun _ _ _ => rfl⟩
  | cons text texts ih =>
    obtain ⟨pieces, hjoin, h⟩ := ih (before + 1)
    refine ⟨chunking.pieces before text ++ pieces, ?_, fun σ sink out => ?_⟩
    · rw [String.join_append, chunking.join_pieces, hjoin, String.join_cons]
    · rw [feed, feed_append, inPieces]
      cases sink.feed (chunking.pieces before text) out with
      | ok out => exact h σ sink out
      | error out => rfl

end Sink

namespace Parser

variable {ν : Type}

theorem streamed_eq (chunking : Chunking) (depth : Nat) (p : Parser ν) :
    p.streamed chunking depth = some (Label.empty.write (p.textAt depth)).finish := by
  obtain ⟨texts, htexts, hrender⟩ := exists_texts p depth
  obtain ⟨pieces, hpieces, hfeed⟩ := Sink.exists_feed_inPieces chunking texts 0
  rw [streamed, hrender, Rendering.output_settle, hfeed, Label.feed_sink rfl Label.fits_empty,
    hpieces, htexts]
  split
  · rfl
  · next hfull =>
    rw [Label.finish, if_neg hfull]
    rfl

/-- **A label is the beginning of the whole text.**  It is the text of the parser, or the longest front
of it that takes 64 bytes at most, with dots behind it, and so never takes more than three bytes above
that.  At any depth, a rendering puts out the text of the parser; a label that is written by it in
whatever pieces, and stops it where it is full, has never outgrown the limit and shows that text; and
whatever a rendering is stopped by, the counter is back where it was. -/
theorem label_shows (p : Parser ν) :
    Label.Shows 64 p.text p.label ∧ p.label.utf8ByteSize ≤ 67 ∧
    (∀ chunking, p.streamed chunking 0 = some p.label) ∧
    (∀ depth, p.render Sink.whole ⟨"", depth⟩ = .ok ⟨p.textAt depth, depth⟩) ∧
    (∀ chunking depth, ∃ shown, p.streamed chunking depth = some shown ∧
      Label.Shows 64 (p.textAt depth) shown) ∧
    ∀ (σ : Type) (sink : Sink σ) (r : Rendering σ),
      (Rendering.left (p.render sink r)).depth = r.depth := by
  refine ⟨?_, ?_, fun chunking => ?_, fun depth => ?_, fun chunking depth => ?_,
    fun σ sink r => ?_⟩
  · rw [label_eq]
    exact Label.shows_finish p.text
  · rw [label_eq]
    exact (Label.shows_finish p.text).size_le
  · rw [streamed_eq, label_eq, text]
  · obtain ⟨texts, hjoin, h⟩ := exists_texts p depth
    rw [h, Sink.feed_whole, hjoin, String.empty_append]
    rfl
  · exact ⟨_, streamed_eq chunking depth p, Label.shows_finish _⟩
  · obtain ⟨texts, _, h⟩ := exists_texts p r.depth
    show (Rendering.left (p.render sink ⟨r.out, r.depth⟩)).depth = r.depth
    rw [h]
    cases sink.feed texts r.out <;> rfl

/-- A character that does not fit into the room that is left is not shown. -/
example : (literal (String.ofList (List.replicate 40 'é')) : Parser Nat).label =
    "\"" ++ String.ofList (List.replicate 31 'é') ++ "..." := by
  decide +kernel

end Parser

end TextGrammar
