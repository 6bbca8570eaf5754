import TextGrammar.Text.Ranges
import Std.Data.TreeMap

/-!
# Layouts of machines

A machine that matches byte by byte is laid out state by state.  Only its measures are kept: how
many states there are, which is also the number of the state that comes next, and the room that
their links to one another take.

* `Layout.add`, `Layout.fork`, `Layout.ranges` — a layout with one more state, by what the state
  does.
* `Layout.room`, `Layout.limit`, `Layout.full` — the room in bytes, and whether it is too much.
* `Layout.copies`, `Layout.repeated` — a part several times.
* `Layout.texts` — a choice between texts, as a tree in which those that begin alike share their
  beginnings.
* `Sharing` — a layout in which states that do the same are found again, as far as they are
  remembered.
* `Layout.sequences`, `Layout.reversed` — a choice between sequences of ranges of bytes, for a
  machine that reads forward and for one that reads backward.
-/

namespace TextGrammar.Regex

/-- The measures of a machine: the count of its states, and the bytes that its links take. -/
structure Layout where
  states : Nat
  links : Nat
deriving DecidableEq, Repr

namespace Layout

/-- No states. -/
def empty : Layout := ⟨0, 0⟩

/-- With one more state, which goes on in a single way. -/
def add (l : Layout) : Layout := ⟨l.states + 1, l.links⟩

/-- With `count` more states, each of which goes on in a single way. -/
def addMany (count : Nat) (l : Layout) : Layout := ⟨l.states + count, l.links⟩

/-- With one more state, which goes on in `count` ways without taking a byte. -/
def fork (count : Nat) (l : Layout) : Layout := ⟨l.states + 1, l.links + 4 * count⟩

/-- With one more state, which goes on in `count` ways, each for a range of bytes. -/
def ranges (count : Nat) (l : Layout) : Layout := ⟨l.states + 1, l.links + 8 * count⟩

/-- The bytes that the machine takes. -/
def room (l : Layout) : Nat := 32 * l.states + l.links

/-- The greatest room of a machine, ten mebibytes. -/
def limit : Nat := 10 * 1024 * 1024

/-- Whether the machine is too large.  It stays so with more states. -/
def full (l : Layout) : Bool := limit < l.room

/-! ## Repetition -/

/-- With `count` times a part.  A machine that is too large already is left as it is. -/
def copies (part : Layout → Layout) : (count : Nat) → Layout → Layout
  | 0, l => l
  | count + 1, l => if l.full then l else copies part count (part l)

/-- With a part from `least` to `most` times.  A fork stands wherever there are two ways to go on.
Where a part may take nothing (`guarded`), the fork that leads back to it is not the one that leads
to it first. -/
def repeated (guarded : Bool) (part : Layout → Layout) :
    (least : Nat) → (most : Option Nat) → Layout → Layout
  | 0, none, l => if guarded then (((part l).fork 2).fork 2).add else part (l.fork 2)
  | least + 1, none, l => (copies part (least + 1) l).fork 2
  | 0, some 1, l => (part (l.fork 2)).add
  | least, some most, l =>
    let l := if least = 0 then l.add else copies part least l
    if most = least then l else copies (fun l => part (l.fork 2)) (most - least) l.add

end Layout

namespace Layout

variable {α : Type} [BEq α]

/-! ## Texts -/

/-- What is left of sequences behind each of their first elements. -/
def tails (xs : List (List α)) : List (List (List α)) :=
  (xs.filterMap List.head?).eraseDups.map fun a =>
    xs.filterMap fun
      | b :: tail => if a == b then some tail else none
      | [] => none

/-- Cuts a list of sequences at those that have ended. -/
def cutAtEnds : List (List α) → List (List (List α))
  | [] => [[]]
  | [] :: xs => [] :: cutAtEnds xs
  | x :: xs =>
    match cutAtEnds xs with
    | [] => [[x]]
    | part :: parts => (x :: part) :: parts

/-- Sequences with a single one that has ended in front of those that have not. -/
def singleEnd : List (List α) → List (List α)
  | [] :: xs => [] :: xs.dropWhile List.isEmpty
  | xs => xs

/-- With a state that goes on for each of `count` bytes. -/
def bytes (count : Nat) (l : Layout) : Layout := if count = 1 then l.add else l.ranges count

/-- With the tree of sequences, down to a depth.  Where a sequence has ended, those behind it begin
another tree, since it is preferred to them. -/
def tree : (depth : Nat) → List (List α) → Layout → Layout
  | 0, _, l => l
  | depth + 1, xs, l =>
    if xs.all List.isEmpty then l
    else
      let parts := cutAtEnds (singleEnd xs)
      let trees := parts.filter (!·.isEmpty)
      let l := trees.foldl
        (fun l xs => (tails xs).foldl (fun l xs => tree depth xs l) (bytes (tails xs).length l)) l
      l.fork (trees.length + (parts.length - 1))

/-- With a choice between texts, given by their bytes in the order in which they are read. -/
def texts (xs : List (List α)) (l : Layout) : Layout :=
  tree ((xs.map List.length).foldl max 0 + 1) xs l.add

end Layout

/-! ## States found again -/

/-- The hash FNV-1a with 64 bits: the hash so far meets each number bit by bit and is multiplied by a
prime. -/
def fnv (xs : List Nat) : UInt64 :=
  xs.foldl (fun hash x => (hash ^^^ x.toUInt64) * 1099511628211) 14695981039346656037

/-- A layout with the states that are remembered.  A state is given by a key, which says what it
does, and each slot of the memory holds one of them, with its number. -/
structure Sharing where
  layout : Layout
  slots : Std.TreeMap Nat (List Nat × Nat)

namespace Sharing

/-- A layout of which nothing is remembered. -/
def start (l : Layout) : Sharing := ⟨l, {}⟩

/-- The number of the state with a key, which is laid out by `new` if it is not remembered.  Its
slot, one of `count`, is given by the hash of the key, and whatever it held is forgotten. -/
def state (s : Sharing) (count : Nat) (key : List Nat) (new : Layout → Layout) : Sharing × Nat :=
  let slot := (fnv key).toNat % count
  let laid : Sharing × Nat :=
    (⟨new s.layout, s.slots.insert slot (key, s.layout.states)⟩, s.layout.states)
  match s.slots[slot]? with
  | some (known, number) => if known = key then (s, number) else laid
  | none => laid

/-- The state that begins the rest of sequences, with all that comes behind it: one state for all
that is left of them, whose ways go on to such states for the sequences that begin alike.  Where
the sequences end it is the state `last`. -/
def place (last : Nat) : (depth : Nat) → List (List Text.Utf8.ByteRange) → Sharing → Sharing × Nat
  | 0, _, s => (s, last)
  | depth + 1, xs, s =>
    if xs.all List.isEmpty then (s, last)
    else
      let (s, key) := (xs.splitBy fun x y => x.head? == y.head?).foldl
        (fun (s, key) alike =>
          let (s, next) := place last depth (alike.map List.tail) s
          match alike with
          | ((lo, hi) :: _) :: _ => (s, key ++ [lo, hi, next])
          | _ => (s, key))
        (s, [])
      s.state 10000 key (.ranges (key.length / 3))

end Sharing

namespace Layout

/-- With a choice between sequences, read forward.  What they have in common at the end is shared,
as far as it is remembered. -/
def sequences (xs : List (List Text.Utf8.ByteRange)) (l : Layout) : Layout :=
  (Sharing.place l.states 4 xs (.start l.add)).1.layout

/-- With a choice between sequences, read backward.  What they have in common at the beginning is
shared, as far as it is remembered. -/
def reversed (xs : List (List Text.Utf8.ByteRange)) (l : Layout) : Layout :=
  let l := l.fork xs.length
  let last := l.states
  (xs.foldl
    (fun s x =>
      (x.foldl (fun (s, next) (lo, hi) => s.state 1000 [next, lo, hi] add) (s, last)).1)
    (Sharing.start l.add)).layout

end Layout

end TextGrammar.Regex
