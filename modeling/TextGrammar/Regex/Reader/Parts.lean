import TextGrammar.Regex.Expr

/-!
# Reading the small parts of regular expressions

Numbers, escapes, bracketed sets and the heads of groups.  Every reader takes the text ahead and gives
what it has read with the text after it, or nothing where the text is not well formed.

* `readNumber` — a count in braces.
* `readEscape` — what follows a backslash; `readEdge` — what follows the escape of a word edge.
* `readNamed` — a class of ASCII by its name.
* `readSet` — what follows an opening bracket.
* `Flags` — what the letters between a question mark and a colon or parenthesis change.
* `readGroup` — what follows an opening parenthesis: it starts a group, which may be numbered, named or
  neither, or it sets flags for the rest of the group around it.
-/

namespace TextGrammar.Regex

/-! ## Numbers -/

/-- The value of a digit in base sixteen. -/
def hexDigit? (c : Char) : Option Nat :=
  if '0' ≤ c ∧ c ≤ '9' then some (c.toNat - '0'.toNat)
  else if 'a' ≤ c ∧ c ≤ 'f' then some (c.toNat - 'a'.toNat + 10)
  else if 'A' ≤ c ∧ c ≤ 'F' then some (c.toNat - 'A'.toNat + 10)
  else none

/-- The value of digits in base sixteen, after those that make up `value`. -/
def hexValue? (value : Nat) : List Char → Option Nat
  | [] => some value
  | c :: cs => (hexDigit? c).bind fun d => hexValue? (16 * value + d) cs

/-- The character with a number given in base sixteen. -/
def charOfHex? (digits : List Char) : Option Char :=
  if digits = [] then none
  else (hexValue? 0 digits).bind fun n => if n.isValidChar then some (Char.ofNat n) else none

/-- The value of decimal digits, after those that make up `value`. -/
def decimalValue (value : Nat) : List Char → Nat
  | [] => value
  | c :: cs => decimalValue (10 * value + (c.toNat - '0'.toNat)) cs

/-- A decimal count below 2^32, with white space around it. -/
def readNumber (text : List Char) : Option (Nat × List Char) :=
  let text := text.dropWhile Text.isBlank
  let digits := text.takeWhile Char.isDigit
  let value := decimalValue 0 digits
  if digits = [] ∨ 0x100000000 ≤ value then none
  else some (value, (text.dropWhile Char.isDigit).dropWhile Text.isBlank)

/-! ## Escapes -/

/-- What an escape stands for. -/
inductive Atom where
  | char (c : Char)
  | set (s : CharSet)
  | anchor (a : Anchor)
deriving DecidableEq

/-- A character given by its number: any count of digits in braces, or just `count` of them. -/
def readCode (count : Nat) : List Char → Option (Char × List Char)
  | [] => none
  | c :: cs =>
    if c = '\x7b' then
      match cs.dropWhile (· ≠ '\x7d') with
      | [] => none
      | _ :: rest => (charOfHex? (cs.takeWhile (· ≠ '\x7d'))).map fun d => (d, rest)
    else
      let digits := (c :: cs).take count
      if digits.length = count then
        (charOfHex? digits).map fun d => (d, (c :: cs).drop count)
      else none

/-- A character that a backslash makes stand for itself: any sign of ASCII other than letters,
digits and angle brackets. -/
def escapable (c : Char) : Bool := c.toNat < 0x80 && !c.isAlphanum && c != '<' && c != '>'

/-- The kinds of word edges that have names. -/
def edge? : String → Option Anchor
  | "start" => some .wordStart
  | "end" => some .wordEnd
  | "start-half" => some .wordStartHalf
  | "end-half" => some .wordEndHalf
  | _ => none

/-- The text ahead names a kind of word edge, in braces. -/
def namesEdge : List Char → Bool
  | b :: c :: _ => b = '\x7b' && (c.isAlpha || c = '-')
  | _ => false

/-- What follows the escape of an edge of a word: the name of a kind of edge, or nothing. -/
def readEdge (cs : List Char) : Option (Anchor × List Char) :=
  if namesEdge cs then
    match cs.dropWhile (· ≠ '\x7d') with
    | [] => none
    | _ :: rest =>
      (edge? (String.ofList (cs.tail.takeWhile (· ≠ '\x7d')))).map fun a => (a, rest)
  else some (.wordEdge, cs)

/-- What follows a backslash. -/
def readEscape : List Char → Option (Atom × List Char)
  | [] => none
  | 'x' :: cs => (readCode 2 cs).map fun (c, rest) => (.char c, rest)
  | 'u' :: cs => (readCode 4 cs).map fun (c, rest) => (.char c, rest)
  | 'U' :: cs => (readCode 8 cs).map fun (c, rest) => (.char c, rest)
  | 'd' :: cs => some (.set .digit, cs)
  | 'D' :: cs => some (.set (CharSet.complement .digit), cs)
  | 's' :: cs => some (.set .blank, cs)
  | 'S' :: cs => some (.set (CharSet.complement .blank), cs)
  | 'w' :: cs => some (.set .word, cs)
  | 'W' :: cs => some (.set (CharSet.complement .word), cs)
  | 'a' :: cs => some (.char '\x07', cs)
  | 'f' :: cs => some (.char '\x0c', cs)
  | 't' :: cs => some (.char '\t', cs)
  | 'n' :: cs => some (.char '\n', cs)
  | 'r' :: cs => some (.char '\r', cs)
  | 'v' :: cs => some (.char '\x0b', cs)
  | 'A' :: cs => some (.anchor .textStart, cs)
  | 'z' :: cs => some (.anchor .textEnd, cs)
  | 'b' :: cs => (readEdge cs).map fun (a, rest) => (.anchor a, rest)
  | 'B' :: cs => some (.anchor .noWordEdge, cs)
  | '<' :: cs => some (.anchor .wordStart, cs)
  | '>' :: cs => some (.anchor .wordEnd, cs)
  | c :: cs => if escapable c then some (.char c, cs) else none

/-! ## Bracketed sets -/

/-- An operation between two parts of a bracketed set. -/
inductive SetOperation where
  | inter
  | difference
  | symmetric
deriving DecidableEq, Repr

/-- The set that the operation makes of two. -/
def SetOperation.apply : SetOperation → CharSet → CharSet → CharSet
  | inter, s, t => s.inter t
  | difference, s, t => s.difference t
  | symmetric, s, t => s.symmetric t

/-- A set together with how deep its parts are nested. -/
structure NestedSet where
  set : CharSet
  depth : Nat

/-- A bracketed set that is being read: whether it is negated, the members since the last operation
with their number and the greatest depth among them, and that operation with what stands before
it. -/
structure SetLevel where
  negated : Bool
  members : CharSet
  count : Nat
  depth : Nat
  pending : Option (SetOperation × NestedSet)

namespace SetLevel

/-- Adds members. -/
def add (level : SetLevel) (s : NestedSet) : SetLevel :=
  { level with
    members := level.members.union s.set
    count := level.count + 1
    depth := max level.depth s.depth }

/-- Forgets case if that is asked for. -/
def folded (ignoreCase : Bool) (s : CharSet) : CharSet := if ignoreCase then s.anyCase else s

/-- The members since the last operation.  Two or more of them are one level deeper. -/
def part (level : SetLevel) (ignoreCase : Bool) : NestedSet :=
  ⟨folded ignoreCase level.members, if level.count < 2 then level.depth else level.depth + 1⟩

/-- The set read so far, without the negation. -/
def total (level : SetLevel) (ignoreCase : Bool) : NestedSet :=
  let part := level.part ignoreCase
  match level.pending with
  | none => part
  | some (operation, before) =>
    ⟨operation.apply before.set part.set, max before.depth part.depth + 1⟩

/-- Goes on behind an operation. -/
def operate (level : SetLevel) (ignoreCase : Bool) (operation : SetOperation) : SetLevel :=
  ⟨level.negated, .empty, 0, 0, some (operation, level.total ignoreCase)⟩

/-- The finished set. -/
def close (level : SetLevel) (ignoreCase : Bool) : NestedSet :=
  let total := level.total ignoreCase
  ⟨if level.negated then total.set.complement else total.set, total.depth + 1⟩

/-- What follows an opening bracket: a sign of negation, then hyphens, or else a closing bracket,
that stand for themselves. -/
def start (text : List Char) : SetLevel × List Char :=
  let negated := text.head? = some '^'
  let text := if negated then text.tail else text
  let level : SetLevel := ⟨negated, .empty, 0, 0, none⟩
  match text with
  | ']' :: cs => (level.add ⟨.single ']', 0⟩, cs)
  | '-' :: cs =>
    ((cs.takeWhile (· = '-')).foldl (fun level c => level.add ⟨.single c, 0⟩)
      (level.add ⟨.single '-', 0⟩), cs.dropWhile (· = '-'))
  | cs => (level, cs)

end SetLevel

/-- One character or one class of a bracketed set. -/
def readMember : List Char → Option (Atom × List Char)
  | [] => none
  | '\\' :: cs => readEscape cs
  | c :: cs => some (.char c, cs)

/-- One character, class or range of a bracketed set. -/
def readRange (text : List Char) : Option (CharSet × List Char) :=
  match readMember text with
  | some (.char first, '-' :: c :: cs) =>
    if c = ']' ∨ c = '-' then some (.single first, '-' :: c :: cs)
    else
      match readMember (c :: cs) with
      | some (.char last, rest) =>
        if first ≤ last then some (.ofRange first.toNat last.toNat, rest) else none
      | _ => none
  | some (.char c, rest) => some (.single c, rest)
  | some (.set s, '-' :: c :: cs) =>
    if c = ']' ∨ c = '-' then some (s, '-' :: c :: cs) else none
  | some (.set s, rest) => some (s, rest)
  | _ => none

/-- A class of ASCII by its name, between colons.  A sign in front of the name asks for the other
characters. -/
def readNamed (ignoreCase : Bool) : List Char → Option (CharSet × List Char)
  | ':' :: cs =>
    let negated := cs.head? = some '^'
    let cs := if negated then cs.tail else cs
    match cs.dropWhile (· ≠ ':') with
    | ':' :: ']' :: rest =>
      (CharSet.ascii? (String.ofList (cs.takeWhile (· ≠ ':')))).map fun s =>
        (if negated then (SetLevel.folded ignoreCase s).complement else s, rest)
    | _ => none
  | _ => none

/-- A bracketed set up to its closing bracket. -/
def readSetFrom (ignoreCase : Bool) : (fuel : Nat) → SetLevel → List Char →
    Option (NestedSet × List Char)
  | 0, _, _ => none
  | _ + 1, _, [] => none
  | fuel + 1, level, c :: cs =>
    if c = ']' then some (level.close ignoreCase, cs)
    else if c = '[' then
      match readNamed ignoreCase cs with
      | some (s, rest) => readSetFrom ignoreCase fuel (level.add ⟨s, 0⟩) rest
      | none =>
        let (inner, rest) := SetLevel.start cs
        match readSetFrom ignoreCase fuel inner rest with
        | some (s, rest) => readSetFrom ignoreCase fuel (level.add s) rest
        | none => none
    else if c = '&' ∧ cs.head? = some '&' then
      readSetFrom ignoreCase fuel (level.operate ignoreCase .inter) cs.tail
    else if c = '-' ∧ cs.head? = some '-' then
      readSetFrom ignoreCase fuel (level.operate ignoreCase .difference) cs.tail
    else if c = '~' ∧ cs.head? = some '~' then
      readSetFrom ignoreCase fuel (level.operate ignoreCase .symmetric) cs.tail
    else
      match readRange (c :: cs) with
      | some (s, rest) => readSetFrom ignoreCase fuel (level.add ⟨s, 0⟩) rest
      | none => none

/-- What follows an opening bracket. -/
def readSet (ignoreCase : Bool) (text : List Char) : Option (NestedSet × List Char) :=
  let (level, rest) := SetLevel.start text
  readSetFrom ignoreCase (text.length + 1) level rest

/-! ## Heads of groups -/

/-- Ways to read an expression: letters match in both cases, lines have starts and ends of their
own, the dot takes newlines too, repetitions prefer less instead of more, and carriage returns end
lines, too. -/
structure Flags where
  ignoreCase : Bool := false
  multiLine : Bool := false
  dotAll : Bool := false
  swapGreed : Bool := false
  returns : Bool := false
deriving DecidableEq, Repr

namespace Flags

/-- Turns the flag with a letter on or off.  The letter u, which asks for all of Unicode, changes
nothing and cannot be turned off. -/
def set? (flags : Flags) (letter : Char) (on : Bool) : Option Flags :=
  match letter with
  | 'i' => some { flags with ignoreCase := on }
  | 'm' => some { flags with multiLine := on }
  | 's' => some { flags with dotAll := on }
  | 'U' => some { flags with swapGreed := on }
  | 'R' => some { flags with returns := on }
  | 'u' => if on then some flags else none
  | _ => none

/-- Reads letters of flags up to a colon or a closing parenthesis, which stays ahead.  A hyphen, of
which there is at most one and not the last, turns off the flags behind it; no letter comes
twice. -/
def read (flags : Flags) (on : Bool) (seen : List Char) : List Char → Option (Flags × List Char)
  | [] => none
  | c :: cs =>
    if c = ':' ∨ c = ')' then
      if seen.head? = some '-' then none else some (flags, c :: cs)
    else if seen.contains c then none
    else if c = '-' then read flags false (c :: seen) cs
    else (flags.set? c on).bind fun flags => read flags on (c :: seen) cs

end Flags

/-- What an opening parenthesis begins: a group that is numbered and may have a name, a group that
only holds together what is in it, with flags, or a setting of flags that is complete. -/
inductive Opening where
  | numbered (name : Option (List Char))
  | plain (flags : Flags)
  | setting (flags : Flags)
deriving DecidableEq, Repr

/-- A letter that can stand anywhere in the name of a group. -/
def nameLetter (c : Char) : Bool :=
  c == '_' || c.isAlpha || (0x80 ≤ c.toNat && Text.isWord c && !Text.isDigit c)

/-- A character that can stand in the name of a group, other than at its start. -/
def nameSign (c : Char) : Bool :=
  nameLetter c || Text.isDigit c || c == '.' || c == '[' || c == ']'

/-- The name of a group, up to the closing angle bracket. -/
def readName (text : List Char) : Option (List Char × List Char) :=
  match text.takeWhile (· ≠ '>'), text.dropWhile (· ≠ '>') with
  | c :: cs, _ :: rest => if nameLetter c ∧ cs.all nameSign then some (c :: cs, rest) else none
  | _, _ => none

/-- What follows an opening parenthesis inside a group with the flags. -/
def readGroup (flags : Flags) : List Char → Option (Opening × List Char)
  | '?' :: '=' :: _ => none
  | '?' :: '!' :: _ => none
  | '?' :: '<' :: '=' :: _ => none
  | '?' :: '<' :: '!' :: _ => none
  | '?' :: 'P' :: '<' :: cs => (readName cs).map fun (name, rest) => (.numbered (some name), rest)
  | '?' :: '<' :: cs => (readName cs).map fun (name, rest) => (.numbered (some name), rest)
  | '?' :: cs =>
    match flags.read true [] cs with
    | some (flags, ':' :: rest) => some (.plain flags, rest)
    | some (flags, ')' :: rest) => if cs.head? = some ')' then none else some (.setting flags, rest)
    | _ => none
  | cs => some (.numbered none, cs)

end TextGrammar.Regex
