import TextGrammar.Regex.Layout
import TextGrammar.Regex.Normal

/-!
# The room that expressions take

An expression is accepted only if the machine that matches it byte by byte fits into ten mebibytes,
whether it reads the text forward or backward.  The machines are laid out state by state, without
building them.

* `Expr.pinned` — whether a match needs the end of the text at which its machine begins.
* `CharSet.layOut`, `Expr.layOut` — the parts of a machine.
* `Expr.layout`, `Expr.fits` — whole machines, and the limit.
-/

namespace TextGrammar.Regex

/-- The direction in which a machine reads the text. -/
inductive Direction where
  | forward
  | backward
deriving DecidableEq, Repr

/-- The condition for the place at which a direction begins. -/
def Direction.origin : Direction → Anchor
  | .forward => .textStart
  | .backward => .textEnd

/-! ## Sets -/

/-- A machine with one character of a set. -/
def CharSet.layOut (d : Direction) (s : CharSet) (l : Layout) : Layout :=
  if s.ranges.all fun (_, hi) => hi < 0x80 then l.add.ranges s.ranges.length
  else
    let sequences := s.ranges.flatMap fun (lo, hi) => Text.Utf8.sequences lo hi
    match d with
    | .forward => l.sequences sequences
    | .backward => l.reversed sequences

namespace Expr

/-! ## Properties -/

mutual

/-- Whether a match begins, as the direction reads, where the text does. -/
def pinned (d : Direction) : Expr → Bool
  | anchor a => a = d.origin
  | group _ e => pinned d e
  | repeated _ least _ e => least ≠ 0 && pinned d e
  | concat es => pinnedInOrder d es
  | alternate es => allPinned d es
  | _ => false

/-- Whether a match of expressions one after the other begins where the text does. -/
def pinnedInOrder (d : Direction) : List Expr → Bool
  | [] => false
  | e :: es =>
    match d with
    | .forward => pinned d e || e.weightless && pinnedInOrder d es
    | .backward => pinnedInOrder d es || allWeightless es && pinned d e

/-- Whether all expressions of a list are pinned. -/
def allPinned (d : Direction) : List Expr → Bool
  | [] => true
  | e :: es => pinned d e && allPinned d es

end

mutual

/-- Whether a set inside has no members, so that nothing is known of the length of a match. -/
def hopeless : Expr → Bool
  | one s => s.ranges.isEmpty
  | group _ e => hopeless e
  | repeated _ _ _ e => hopeless e
  | concat es => anyHopeless es
  | alternate es => anyHopeless es
  | _ => false

/-- Whether some expression of a list is hopeless. -/
def anyHopeless : List Expr → Bool
  | [] => false
  | e :: es => hopeless e || anyHopeless es

end

/-- The text that an expression is. -/
def text? : Expr → Option (List Char)
  | text cs => some cs
  | _ => none

/-- The bytes of a text in the order in which a direction reads them. -/
def bytesOf (d : Direction) (cs : List Char) : List Text.Utf8.ByteRange :=
  match d with
  | .forward => cs.flatMap Text.Utf8.bytes
  | .backward => (cs.flatMap Text.Utf8.bytes).reverse

/-! ## Machines -/

mutual

/-- A machine with an expression.  The ends of groups are marked when reading forward only. -/
def layOut (d : Direction) : Expr → Layout → Layout
  | text cs, l => l.addMany (cs.map Char.utf8Size).sum
  | one s, l => s.layOut d l
  | anchor _, l => l.add
  | group _ e, l =>
    match d with
    | .forward => (layOut d e l.add).add
    | .backward => layOut d e l
  | repeated _ least most e, l =>
    Layout.repeated (e.nullable || e.hopeless) (layOut d e) least most l
  | concat es, l => if es.isEmpty then l.add else layOutInOrder d es l
  | alternate es, l =>
    match es.mapM text? with
    | some texts => l.texts (texts.map (bytesOf d))
    | none => layOutBranches d es.length 0 es l

/-- A machine with expressions one after the other, laid out in the order in which they are
read. -/
def layOutInOrder (d : Direction) : List Expr → Layout → Layout
  | [], l => l
  | e :: es, l =>
    match d with
    | .forward => layOutInOrder d es (layOut d e l)
    | .backward => layOut d e (layOutInOrder d es l)

/-- A machine with a choice of `count` expressions, of which `done` are laid out.  The states where
they part and meet come behind the first two of them. -/
def layOutBranches (d : Direction) (count done : Nat) : List Expr → Layout → Layout
  | [], l => l
  | e :: es, l =>
    let l := layOut d e l
    layOutBranches d count (done + 1) es (if done = 1 then (l.fork count).add else l)

end

/-- The machine for an expression.  If a match may begin anywhere, a loop that takes any byte stands
in front.  The machine that reads forward marks the ends of the match. -/
def layout (d : Direction) (e : Expr) : Layout :=
  let start := if e.pinned d then Layout.empty.add else ((Layout.empty.fork 2).add).ranges 1
  match d with
  | .forward => (e.layOut d start.add).add.add
  | .backward => (e.layOut d start).add

/-- Whether the machines for an expression fit. -/
def fits (e : Expr) : Bool := !(e.layout .forward).full && !(e.layout .backward).full

end Expr

end TextGrammar.Regex
