import TextGrammar.Regex.Reader.Parts
import TextGrammar.Regex.Room

/-!
# Reading regular expressions

The syntax is that of the `regex` library over Unicode.  Three parts of it are taken for ill-formed:
classes by a property of Unicode (`\p`), the flag `x` for white space and comments between the signs,
and turning Unicode off (`-u`).

* `Reader` — the expression read so far: the group that is open, the groups around it, and the
  numbers and names given to groups.
* `Expr.read?` — the expression that a text writes down, if it is well formed, nested no deeper than
  `nestLimit`, and not too large.
-/

namespace TextGrammar.Regex

/-- Something that has been read: what it matches, how deep its parts are nested, and whether it can
be repeated. -/
structure Item where
  expr : Expr
  depth : Nat
  repeatable : Bool

namespace Item

/-- Something without parts. -/
def simple (e : Expr) : Item := ⟨e, 0, true⟩

/-- A setting of flags: an item with nothing to match, which cannot be repeated. -/
def setting : Item := ⟨.empty, 0, false⟩

/-- Items put together, one level deeper than the deepest of them; a single one stays as it is. -/
def join (combine : List Expr → Expr) (items : List Item) : Item :=
  let depth := (items.map depth).foldl max 0
  ⟨combine (items.map expr), if items.length < 2 then depth else depth + 1, true⟩

end Item

/-- A group that is being read: its number, if it has one, its flags, its finished branches and the
items of the branch being read, both with the last one first. -/
structure Level where
  number : Option Nat
  flags : Flags
  branches : List Item
  items : List Item

namespace Level

/-- An empty group. -/
def start (number : Option Nat) (flags : Flags) : Level := ⟨number, flags, [], []⟩

/-- Puts an item behind the others. -/
def add (level : Level) (item : Item) : Level := { level with items := item :: level.items }

/-- The branch that is being read: its items in sequence. -/
def branch (level : Level) : Item := .join .sequence level.items.reverse

/-- Goes on with another branch. -/
def nextBranch (level : Level) : Level :=
  { level with branches := level.branch :: level.branches, items := [] }

/-- What the group holds: the first of its branches that matches. -/
def content (level : Level) : Item := .join .either (level.branch :: level.branches).reverse

/-- The finished group. -/
def close (level : Level) : Item :=
  let content := level.content
  let e :=
    match level.number with
    | some number => .group number content.expr
    | none => content.expr
  ⟨e, content.depth + 1, true⟩

end Level

/-- An expression that is being read: the innermost open group, the groups around it, how many
groups have numbers, and the names of groups. -/
structure Reader where
  inner : Level
  outer : List Level
  numbered : Nat
  names : List (List Char)

namespace Reader

/-- Nothing read yet. -/
def start : Reader := ⟨.start none {}, [], 0, []⟩

/-- Puts an item behind the others. -/
def add (r : Reader) (item : Item) : Reader := { r with inner := r.inner.add item }

/-- Puts an expression without parts behind the items. -/
def addSimple (r : Reader) (e : Expr) : Reader := r.add (.simple e)

/-- The set that a character stands for. -/
def charSet (r : Reader) (c : Char) : CharSet :=
  SetLevel.folded r.inner.flags.ignoreCase (.single c)

/-- What a dot stands for. -/
def dot (r : Reader) : CharSet :=
  if r.inner.flags.dotAll then .all
  else if r.inner.flags.returns then ((CharSet.single '\n').union (.single '\r')).complement
  else (CharSet.single '\n').complement

/-- The start of what the sign for it asks for. -/
def startSign (r : Reader) : Anchor :=
  if r.inner.flags.multiLine then (if r.inner.flags.returns then .returnStart else .lineStart)
  else .textStart

/-- The end of it. -/
def endSign (r : Reader) : Anchor :=
  if r.inner.flags.multiLine then (if r.inner.flags.returns then .returnEnd else .lineEnd)
  else .textEnd

/-- Repeats the last item.  There must be one, and a question mark behind the count changes the
preference. -/
def repeatLast (r : Reader) (least : Nat) (most : Option Nat) (rest : List Char) :
    Option (Reader × List Char) :=
  match r.inner.items with
  | ⟨e, depth, true⟩ :: items =>
    let lazy := rest.head? = some '?'
    let greedy := lazy == r.inner.flags.swapGreed
    let item : Item := ⟨.times greedy least most e, depth + 1, true⟩
    some ({ r with inner := { r.inner with items := item :: items } },
      if lazy then rest.tail else rest)
  | _ => none

/-- Reads a count in braces, behind the opening one. -/
def repeatCounted (r : Reader) (text : List Char) : Option (Reader × List Char) :=
  match readNumber text with
  | none => none
  | some (least, '\x7d' :: rest) => r.repeatLast least (some least) rest
  | some (least, ',' :: '\x7d' :: rest) => r.repeatLast least none rest
  | some (least, ',' :: rest) =>
    match readNumber rest with
    | some (most, '\x7d' :: rest) =>
      if least ≤ most then r.repeatLast least (some most) rest else none
    | _ => none
  | some _ => none

/-- Opens a group inside the one that is open. -/
def opened (r : Reader) (level : Level) : Reader :=
  { r with inner := level, outer := r.inner :: r.outer }

/-- Opens a group, or changes the flags of the one that is open. -/
def openGroup (r : Reader) (text : List Char) : Option (Reader × List Char) :=
  let flags := r.inner.flags
  match readGroup flags text with
  | none => none
  | some (.setting flags, rest) =>
    some ({ r.add .setting with inner := { (r.add .setting).inner with flags } }, rest)
  | some (.plain flags, rest) => some (r.opened (.start none flags), rest)
  | some (.numbered name, rest) =>
    if name.any r.names.contains then none
    else
      let number := r.numbered + 1
      some ({ r.opened (.start (some number) flags) with
        numbered := number, names := name.toList ++ r.names }, rest)

/-- Closes the innermost group. -/
def closeGroup (r : Reader) : Option Reader :=
  match r.outer with
  | [] => none
  | level :: outer => some { r with inner := level.add r.inner.close, outer }

/-- Reads one item, or one sign that joins items, starting with `c`. -/
def next (r : Reader) (c : Char) (cs : List Char) : Option (Reader × List Char) :=
  match c with
  | '(' => r.openGroup cs
  | ')' => r.closeGroup.map fun r => (r, cs)
  | '|' => some ({ r with inner := r.inner.nextBranch }, cs)
  | '[' =>
    (readSet r.inner.flags.ignoreCase cs).map fun (s, rest) =>
      (r.add ⟨.ofSet s.set, s.depth, true⟩, rest)
  | '?' => r.repeatLast 0 (some 1) cs
  | '*' => r.repeatLast 0 none cs
  | '+' => r.repeatLast 1 none cs
  | '\x7b' => r.repeatCounted cs
  | '.' => some (r.addSimple (.one r.dot), cs)
  | '^' => some (r.addSimple (.anchor r.startSign), cs)
  | '$' => some (r.addSimple (.anchor r.endSign), cs)
  | '\\' =>
    (readEscape cs).map fun
      | (.char c, rest) => (r.addSimple (.ofSet (r.charSet c)), rest)
      | (.set s, rest) => (r.addSimple (.one s), rest)
      | (.anchor a, rest) => (r.addSimple (.anchor a), rest)
  | c => some (r.addSimple (.ofSet (r.charSet c)), cs)

/-- Reads the text to its end, where all groups must be closed. -/
def readFrom : (fuel : Nat) → Reader → List Char → Option Item
  | _, r, [] => if r.outer.isEmpty then some r.inner.content else none
  | 0, _, _ :: _ => none
  | fuel + 1, r, c :: cs =>
    match r.next c cs with
    | some (r, rest) => readFrom fuel r rest
    | none => none

end Reader

/-- The greatest depth of an expression that is accepted. -/
def nestLimit : Nat := 250

/-- The expression that a text writes down. -/
def Expr.read? (text : List Char) : Option Expr :=
  match Reader.readFrom text.length .start text with
  | some item => if item.depth ≤ nestLimit ∧ item.expr.fits then some item.expr else none
  | none => none

end TextGrammar.Regex
