import TextGrammar.Proofs.Regex.Programs
import TextGrammar.Pattern

/-!
# What searches find

Whatever expression is searched for, and wherever its match starts, what is found is a match of the
expression: a piece of the text that starts and ends between characters, and one of the ways through
the expression leads from its start to its end.

* `Program.Leads` — what is accepted from one address is accepted from another one.
* `Program.Began` — what is kept as the run over the text goes on: what a thread comes to accept, the
  program accepts from where the thread began.
* `Expr.matchesIn_of_search` — so what is found is a match.
-/

namespace TextGrammar.Regex

namespace Program

variable {p : Program} {front ahead text : List Char} {arrived : List Thread}
  {best : Option (Nat × Nat)}

/-! ## Threads at one place -/

/-- Whatever the code accepts from address `b` at the place, it accepts from address `a` there. -/
def Leads (code : Array Instr) (x : Place) (a b : Nat) : Prop :=
  ∀ n z, Accepts code n b x z → ∃ m, Accepts code m a x z

theorem Leads.refl (code : Array Instr) (x : Place) (a : Nat) : Leads code x a a :=
  fun n _ h => ⟨n, h⟩

theorem Leads.trans {code : Array Instr} {x : Place} {a b c : Nat} (hab : Leads code x a b)
    (hbc : Leads code x b c) : Leads code x a c := fun n z h =>
  have ⟨m, h⟩ := hbc n z h
  hab m z h

/-- Following leaves the threads that are there, and adds those to which an address ahead leads. -/
theorem of_mem_threads_follow {x : Place} {start fuel : Nat} {todo : List Nat} {f : Frontier}
    {t : Thread} (ht : t ∈ (p.follow x.before x.ahead.head? start fuel todo f).threads) :
    t ∈ f.threads ∨ ∃ a ∈ todo, t.start = start ∧ Leads p.code x a t.address := by
  induction fuel generalizing todo f with
  | zero => exact .inl ht
  | succ fuel ih =>
    cases todo with
    | nil => exact .inl ht
    | cons a todo =>
      -- behind `a`, what leads on from one of the others still does
      have hothers (h : ∃ b ∈ todo, t.start = start ∧ Leads p.code x b t.address) :
          ∃ b ∈ a :: todo, t.start = start ∧ Leads p.code x b t.address := by
        obtain ⟨b, hb, h⟩ := h
        exact ⟨b, List.mem_cons_of_mem a hb, h⟩
      simp only [follow] at ht
      split at ht
      · exact (ih ht).imp_right hothers
      · split at ht
        · next next hcode =>
          split at ht
          · next hholds =>
            refine (ih ht).imp_right fun h => ?_
            obtain ⟨b, hb, hstart, hleads⟩ := h
            rcases List.mem_cons.1 hb with rfl | hb
            · exact ⟨a, List.mem_cons_self, hstart,
                .trans (fun n z h => ⟨n + 1, .check hcode hholds h⟩) hleads⟩
            · exact hothers ⟨b, hb, hstart, hleads⟩
          · exact (ih ht).imp_right hothers
        · next hcode =>
          refine (ih ht).imp_right fun h => ?_
          obtain ⟨b, hb, hstart, hleads⟩ := h
          rcases List.mem_cons.1 hb with rfl | hb
          · exact ⟨a, List.mem_cons_self, hstart,
              .trans (fun n z h => ⟨n + 1, .first hcode h⟩) hleads⟩
          rcases List.mem_cons.1 hb with rfl | hb
          · exact ⟨a, List.mem_cons_self, hstart,
              .trans (fun n z h => ⟨n + 1, .second hcode h⟩) hleads⟩
          · exact hothers ⟨b, hb, hstart, hleads⟩
        · rcases ih ht with ht | h
          · rcases List.mem_cons.1 ht with rfl | ht
            · exact .inr ⟨a, List.mem_cons_self, rfl, .refl p.code x a⟩
            · exact .inl ht
          · exact .inr (hothers h)

/-- Every thread at a place comes from one that has arrived there. -/
theorem of_mem_threads {x : Place} {t : Thread}
    (ht : t ∈ p.threads x.before x.ahead.head? arrived) :
    ∃ a ∈ arrived, t.start = a.start ∧ Leads p.code x a.address t.address := by
  suffices h : ∀ (arrived : List Thread) (f : Frontier),
      t ∈ (arrived.foldl (p.enter x.before x.ahead.head?) f).threads →
        t ∈ f.threads ∨ ∃ a ∈ arrived, t.start = a.start ∧ Leads p.code x a.address t.address from
    (h arrived ⟨0, []⟩ (List.mem_reverse.1 ht)).resolve_left (List.not_mem_nil)
  intro arrived
  induction arrived with
  | nil => exact fun f h => .inl h
  | cons a arrived ih =>
    intro f h
    rcases ih _ h with h | ⟨b, hb, h⟩
    · refine (of_mem_threads_follow h).imp_right fun ⟨b, hb, h⟩ => ?_
      rw [List.mem_singleton.1 hb] at h
      exact ⟨a, List.mem_cons_self, h⟩
    · exact .inr ⟨b, List.mem_cons_of_mem a hb, h⟩

/-! ## Threads on their way -/

/-- The thread began between characters of the text that the run has come through, and whatever it
comes to accept from here on, the program accepts from there. -/
def Began (p : Program) (front ahead : List Char) (t : Thread) : Prop :=
  ∃ before piece, front = before ++ piece ∧ t.start = Text.byteLength before ∧
    ∀ n z, Accepts p.code n t.address (.between front ahead) z →
      ∃ m, Accepts p.code m p.start (.between before (piece ++ ahead)) z

/-- All of the threads did. -/
def AllBegan (p : Program) (front ahead : List Char) (threads : List Thread) : Prop :=
  ∀ t ∈ threads, p.Began front ahead t

/-- The offsets are those of a piece of the text, and the program accepts its end from its start. -/
def IsPiece (p : Program) (text : List Char) (m : Nat × Nat) : Prop :=
  ∃ before piece after, text = before ++ (piece ++ after) ∧ m.1 = Text.byteLength before ∧
    m.2 = Text.byteLength before + Text.byteLength piece ∧
    ∃ n, Accepts p.code n p.start (.between before (piece ++ after))
      (.between (before ++ piece) after)

namespace AllBegan

theorem threads (h : p.AllBegan front ahead arrived) :
    p.AllBegan front ahead (p.threads front.getLast? ahead.head? arrived) := by
  intro t ht
  obtain ⟨a, ha, hstart, hleads⟩ := of_mem_threads (x := .between front ahead) ht
  obtain ⟨before, piece, hfront, hat, haccepts⟩ := h a ha
  refine ⟨before, piece, hfront, hstart.trans hat, fun n z hz => ?_⟩
  obtain ⟨m, hm⟩ := hleads n z hz
  exact haccepts m z hm

/-- A match may begin where the run has come to. -/
theorem begin (h : p.AllBegan front ahead arrived) (begins : Bool) :
    p.AllBegan front ahead
      (if begins then arrived ++ [⟨p.start, Text.byteLength front⟩] else arrived) := by
  cases begins with
  | false => exact h
  | true =>
    intro t ht
    rcases List.mem_append.1 ht with ht | ht
    · exact h t ht
    · rw [List.mem_singleton.1 ht]
      exact ⟨front, [], (List.append_nil front).symm, rfl, fun n z hz => ⟨n, hz⟩⟩

/-- A thread that waits for the next character goes on behind it. -/
theorem step {c : Char} {cs : List Char} (h : p.AllBegan front (c :: cs) arrived) :
    p.AllBegan (front ++ [c]) cs
      ((arrived.takeWhile (!p.accepts ·)).filterMap (p.step? c)) := by
  intro t ht
  obtain ⟨a, ha, hstep⟩ := List.mem_filterMap.1 ht
  obtain ⟨before, piece, hfront, hstart, haccepts⟩ := h a ((List.takeWhile_subset _) ha)
  unfold step? at hstep
  split at hstep
  · next s next hcode =>
    split at hstep
    · next hmem =>
      cases hstep
      refine ⟨before, piece ++ [c], by rw [hfront, List.append_assoc], hstart, fun n z hz => ?_⟩
      have hbefore : (front ++ [c]).getLast? = some c := List.getLast?_concat
      rw [Place.between, hbefore] at hz
      obtain ⟨m, hm⟩ := haccepts (n + 1) z (.take hcode hmem hz)
      exact ⟨m, by rwa [List.append_assoc]⟩
    · cases hstep
  · cases hstep

/-- A thread that accepts has found the piece from its start up to where the run has come. -/
theorem bestAt (htext : text = front ++ ahead) (h : p.AllBegan front ahead arrived)
    (hb : ∀ m ∈ best, p.IsPiece text m) :
    ∀ m ∈ p.bestAt (Text.byteLength front) arrived best, p.IsPiece text m := by
  unfold Program.bestAt
  split
  · next t ht =>
    intro m hm
    cases hm
    obtain ⟨before, piece, rfl, hstart, haccepts⟩ := h t (List.mem_of_find?_eq_some ht)
    have haccept : p.code[t.address]? = some .accept := by
      have hfound := List.find?_some ht
      unfold accepts at hfound
      split at hfound
      · assumption
      · cases hfound
    exact ⟨before, piece, ahead, htext.trans (List.append_assoc _ _ _), hstart,
      Text.byteLength_append before piece, haccepts 0 _ (.accept haccept)⟩
  · exact hb

end AllBegan

/-- **A run finds what the program accepts**, if its threads have begun in the text behind it and the best
match so far is such a piece. -/
theorem isPiece_of_scan (htext : text = front ++ ahead) (pinned : Bool)
    (ha : p.AllBegan front ahead arrived) (hb : ∀ m ∈ best, p.IsPiece text m) :
    ∀ m ∈ p.scan pinned front.getLast? (Text.byteLength front) arrived best ahead,
      p.IsPiece text m := by
  induction ahead generalizing front arrived best with
  | nil =>
    rw [scan]
    exact (ha.begin _).threads.bestAt htext hb
  | cons c cs ih =>
    have hthreads := (ha.begin (best.isNone && (front.getLast?.isNone || !pinned))).threads
    rw [scan]
    generalize p.threads front.getLast? (c :: cs).head? _ = threads at hthreads ⊢
    have hbest := hthreads.bestAt htext hb
    split
    · exact hbest
    · have hfront : Text.byteLength front + c.utf8Size = Text.byteLength (front ++ [c]) := by
        rw [Text.byteLength_append, Text.byteLength_cons, Text.byteLength_nil, Nat.add_zero]
      have hlast : (front ++ [c]).getLast? = some c := List.getLast?_concat
      rw [hfront, ← hlast]
      exact ih (htext.trans (List.append_cons front c cs)) hthreads.step hbest

end Program

open Program in
/-- **What is found for an expression is a match of what it means.** -/
theorem Expr.matchesIn_of_search {e : Expr} {text : List Char} {m : Match}
    (h : (ofExpr e).search text = some m) : e.term.MatchesIn text m := by
  obtain ⟨⟨start, stop⟩, hscan, rfl⟩ := Option.map_eq_some_iff.1 h
  have hseed : (ofExpr e).AllBegan [] text [] := fun _ h => nomatch h
  have hnone : ∀ m ∈ (none : Option (Nat × Nat)), (ofExpr e).IsPiece text m := fun _ h => nomatch h
  obtain ⟨before, piece, after, htext, hstart, hstop, n, haccepts⟩ :=
    isPiece_of_scan (List.nil_append text).symm (ofExpr e).anchored hseed hnone _ hscan
  exact ⟨before, piece, after, htext, hstart, hstop, mem_ways_of_accepts haccepts⟩

/-- **The built-in engine finds only matches of what expressions mean.** -/
theorem Engine.finds_builtIn : Engine.builtIn.Finds meaning := by
  intro source find hcompile text m hm
  simp only [builtIn] at hcompile
  split at hcompile
  · next e hread =>
    cases hcompile
    rw [meaning, hread]
    exact e.matchesIn_of_search hm
  · cases hcompile

end TextGrammar.Regex
