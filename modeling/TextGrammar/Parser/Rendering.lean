import TextGrammar.Parser.Label

/-!
# Rendering parsers

The text of a parser is not put together first and cut then.  It is rendered text by text to a sink,
which may stop the rendering at any of them; whatever is being rendered then ends at once.  How deep
the parser lies that is being rendered is told by a counter, which outlives the rendering.

* `Sink` — what takes texts (`Formatter`); `Sink.whole` takes all of them, `Label.sink` as many as a label
  has room for (`Bounded.write_str`).
* `Sink.inPieces` — takes every text in pieces.
* `Rendering.level` — counts a parser while it is rendered (`Parser.repr`, with `DEPTH`).
* `Parser.render` — renders a parser (the `Combi.repr` of each type).
* `Parser.streamed` — the label of a parser that comes of that.
-/

namespace TextGrammar

/-- Takes a text, and goes on with what has been put out, or stops with it. -/
abbrev Sink (σ : Type) := String → σ → Except σ σ

namespace Sink

variable {σ : Type}

/-- Takes the texts in order, up to the one at which it stops. -/
def feed (sink : Sink σ) : List String → σ → Except σ σ
  | [], out => .ok out
  | text :: texts, out => sink text out >>= sink.feed texts

/-- Puts out everything. -/
def whole : Sink String := fun text out => .ok (out ++ text)

end Sink

/-- Writes a text to a label, as much of it as there is room for, and stops if that is not all.  The
room is a difference: if the label has outgrown its limit, there is none, and nothing is left. -/
def Label.sink : Sink (Option Label)
  | _, none => .error none
  | text, some label =>
    if label.text.utf8ByteSize ≤ labelLimit then
      let room := labelLimit - label.text.utf8ByteSize
      if text.utf8ByteSize ≤ room then .ok (some { label with text := label.text ++ text })
      else .error (some ⟨label.text ++ String.ofList (Text.takeBytes room text.toList), true⟩)
    else .error none

/-- The text of a label, with dots behind it if the label was full and stopped what was written. -/
def Label.shown : Except (Option Label) (Option Label) → Option String
  | .ok label => label.map Label.text
  | .error label => label.map Label.finish

/-- The pieces in which the texts of a rendering are handed on, by the number of those before. -/
structure Chunking where
  pieces : Nat → String → List String
  join_pieces : ∀ before text, String.join (pieces before text) = text

instance : Inhabited Chunking := ⟨⟨fun _ text => [text], fun _ _ => rfl⟩⟩

namespace Sink

variable {σ : Type}

/-- Takes every text in pieces, and counts the texts. -/
def inPieces (chunking : Chunking) (sink : Sink σ) : Sink (Nat × σ) := fun text taken =>
  match sink.feed (chunking.pieces taken.1 text) taken.2 with
  | .ok out => .ok (taken.1 + 1, out)
  | .error out => .error (taken.1 + 1, out)

/-- What has been put out, without the number of texts. -/
def uncounted : Except (Nat × σ) (Nat × σ) → Except σ σ
  | .ok taken => .ok taken.2
  | .error taken => .error taken.2

end Sink

/-- What has been put out, and how many parsers are open. -/
structure Rendering (σ : Type) where
  out : σ
  depth : Nat

/-- A part of a rendering, which goes on or has been stopped. -/
abbrev Render (σ : Type) := Rendering σ → Except (Rendering σ) (Rendering σ)

namespace Rendering

variable {σ : Type}

/-- What has been put out, stopped or not, with the counter at a depth. -/
def settle (depth : Nat) : Except σ σ → Except (Rendering σ) (Rendering σ)
  | .ok out => .ok ⟨out, depth⟩
  | .error out => .error ⟨out, depth⟩

/-- What the rendering leaves, whether it is complete or has been stopped. -/
def left : Except (Rendering σ) (Rendering σ) → Rendering σ
  | .ok r => r
  | .error r => r

/-- What has been put out by a rendering. -/
def output : Except (Rendering σ) (Rendering σ) → Except σ σ
  | .ok r => .ok r.out
  | .error r => .error r.out

/-- Sets the counter, also if the rendering has been stopped. -/
def setDepth (depth : Nat) :
    Except (Rendering σ) (Rendering σ) → Except (Rendering σ) (Rendering σ)
  | .ok r => .ok { r with depth }
  | .error r => .error { r with depth }

variable (sink : Sink σ)

/-- Puts out a text. -/
def put (text : String) : Render σ := fun r => settle r.depth (sink text r.out)

/-- Renders one parser deeper, unless that is too deep, and goes back to the depth from before. -/
def level (inner : Render σ) : Render σ := fun r =>
  let opened := { r with depth := r.depth + 1 }
  setDepth r.depth
    (if depthLimit ≤ r.depth then put sink ellipsis opened else inner opened)

end Rendering

namespace Parser

open Rendering

variable {ν σ : Type} (sink : Sink σ)

mutual

/-- Renders a parser. -/
def render : Parser ν → Render σ
  | named name _ => put sink name
  | literal text => level sink (put sink (Text.quote text))
  | pattern p => level sink (put sink "/" >=> put sink p.source >=> put sink "/")
  | endOfInput => level sink (put sink endSign)
  | sequence ps => level sink (renderJoined " " ps)
  | and left right => level sink (left.render >=> put sink " " >=> right.render)
  | or left right => level sink (left.render >=> put sink " | " >=> right.render)
  | choice ps => level sink (put sink "(" >=> renderJoined " | " ps >=> put sink ")")
  | optional p => level sink (put sink "[" >=> p.render >=> put sink "]")
  | collectedAs _ p => level sink p.render
  | many least p => level sink (p.render >=> put sink (repeatSign least))
  | separated _ value separator => level sink (value.render >=> put sink " / " >=> separator.render)
  | all p => level sink (p.render >=> put sink (ellipsis ++ " " ++ endSign))
  | map _ p => level sink p.render
  | mapWithLine _ p => level sink p.render
  | recover _ p => level sink p.render
  | chain _ p => level sink (p.render >=> put sink (" => " ++ ellipsis))
  | recursive _ body => level sink body.render
  | handle _ => level sink (put sink ellipsis)
  | custom shown _ => level sink (put sink shown)

/-- Renders parsers, with a separator between them. -/
def renderJoined (separator : String) : List (Parser ν) → Render σ
  | [] => pure
  | p :: ps => p.render >=> renderRest separator ps

/-- Renders parsers, each behind a separator. -/
def renderRest (separator : String) : List (Parser ν) → Render σ
  | [] => pure
  | p :: ps => put sink separator >=> p.render >=> renderRest separator ps

end

/-- The label of a parser that is rendered in pieces at a depth. -/
def streamed (chunking : Chunking) (depth : Nat) (p : Parser ν) : Option String :=
  Label.shown (Sink.uncounted (Rendering.output
    (p.render (Label.sink.inPieces chunking) ⟨(0, some .empty), depth⟩)))

end Parser

end TextGrammar
