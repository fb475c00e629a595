import Mathlib.Data.List.Infix
import Curia.Proofs.Ledger.Encoding

/-!
A table that is written by appending only, and opened again any number of times, is the ledger that
is kept in memory: it reads back as the events that were appended, in their order, under the numbers
that were answered.
-/

namespace Curia

namespace SortedMap

variable [Ord κ] [Std.TransOrd κ] [Std.LawfulEqOrd κ]

omit [Std.LawfulEqOrd κ] in
/-- An entry of a key above all others goes to the end. -/
theorem insertEntry_of_greatest {k : κ} {a : α} {es : List (κ × α)}
    (h : ∀ e ∈ es, compare e.1 k = .lt) : insertEntry k a es = es ++ [(k, a)] := by
  induction es with
  | nil => rfl
  | cons e es ih =>
      have hgt : compare k e.1 = .gt := Std.OrientedCmp.gt_of_lt (h e List.mem_cons_self)
      rw [insertEntry, hgt]
      simp only [List.cons_append, ih fun e he => h e (List.mem_cons_of_mem _ he)]

omit [Std.LawfulEqOrd κ] in
theorem contains_of_greatest [DecidableEq κ] {m : SortedMap κ α} {k : κ}
    (h : ∀ e ∈ m.toList, compare e.1 k = .lt) : m.contains k = false := by
  refine Bool.eq_false_iff.2 fun hc => ?_
  obtain ⟨a, ha⟩ := contains_iff.1 hc
  have hlt := h (k, a) (mem_of_get? ha)
  rw [Std.ReflOrd.compare_self] at hlt
  cases hlt

end SortedMap

namespace Ledger

/-- A new ledger in memory to which the events have been appended in turn. -/
def ofEvents (events : List Event) : Ledger := events.foldl (fun l e => (l.append e).2) empty

theorem events_ofEvents (events : List Event) : (ofEvents events).events = events := by
  suffices h : ∀ l : Ledger, l.refuses = (fun _ => false) →
      (events.foldl (fun l e => (l.append e).2) l).events = l.events ++ events from h empty rfl
  induction events with
  | nil => simp
  | cons e events ih =>
      intro l hl
      have happend : (l.append e).2.events = l.events ++ [e] ∧
          (l.append e).2.refuses = fun _ => false := by
        simp [append, hl]
      rw [List.foldl_cons, ih _ happend.2, happend.1, List.append_assoc, List.singleton_append]

end Ledger

namespace Archive

/-! ### Calls -/

/-- What may be done to a table that is written by appending only. -/
inductive Call where
  | append (e : Event)
  /-- Numbers are passed over, as where an append fails that has been given its number. -/
  | skip (numbers : Nat)
  | reopen (skipped : Nat)

def Call.event? : Call → Option Event
  | .append e => some e
  | _ => none

/-- The events that are appended, in the order of the calls. -/
def appended (calls : List Call) : List Event := calls.filterMap Call.event?

def step (a : Archive) : Call → Archive
  | .append e => (a.append e).2
  | .skip numbers => { a with issued := a.issued + numbers }
  | .reopen skipped => a.reopen skipped

def run (a : Archive) (calls : List Call) : Archive := calls.foldl step a

/-- The answers to the calls that append, in their order. -/
def answers (a : Archive) : List Call → List (Except LedgerError Nat)
  | [] => []
  | .append e :: calls => (a.append e).1 :: answers (a.append e).2 calls
  | call :: calls => answers (a.step call) calls

theorem run_append (a : Archive) (calls more : List Call) :
    a.run (calls ++ more) = (a.run calls).run more :=
  List.foldl_append

theorem issued_append (a : Archive) (e : Event) : (a.append e).2.issued = a.issued + 1 := by
  rw [append]
  split <;> rfl

theorem issued_le_step (a : Archive) (call : Call) : a.issued ≤ (a.step call).issued := by
  cases call with
  | append e =>
      rw [step, issued_append]
      exact Nat.le_succ _
  | skip numbers => exact Nat.le_add_right _ _
  | reopen skipped => exact Nat.le_add_right _ _

theorem issued_le_run (a : Archive) (calls : List Call) : a.issued ≤ (a.run calls).issued := by
  induction calls generalizing a with
  | nil => exact Nat.le_refl _
  | cons call calls ih => exact Nat.le_trans (a.issued_le_step call) (ih (a.step call))

/-! ### What a table keeps -/

/-- The table holds the events under their numbers in turn, none of which is above the last number
that was handed out. -/
structure Keeps (a : Archive) (kept : List (Nat × Event)) : Prop where
  entries : a.entries.toList = kept.map fun e => (encodeSequence e.1, encodeEvent e.2)
  issued : ∀ e ∈ kept, e.1 ≤ a.issued

namespace Keeps

variable {a b : Archive} {kept : List (Nat × Event)}

theorem empty : Archive.empty.Keeps [] :=
  ⟨rfl, fun _ he => absurd he List.not_mem_nil⟩

theorem of_entries_eq (h : a.Keeps kept) (hentries : b.entries = a.entries)
    (hissued : a.issued ≤ b.issued) : b.Keeps kept :=
  ⟨hentries ▸ h.entries, fun e he => Nat.le_trans (h.issued e he) hissued⟩

/-- The next number is above all others and so is its key, so that an append succeeds and its entry
goes to the end. -/
theorem append (h : a.Keeps kept) (e : Event) (hnext : a.issued + 1 < 2 ^ 64) :
    (a.append e).1 = .ok (a.issued + 1) ∧ (a.append e).2.Keeps (kept ++ [(a.issued + 1, e)]) := by
  have hgreatest : ∀ x ∈ a.entries.toList, compare x.1 (encodeSequence (a.issued + 1)) = .lt := by
    rw [h.entries]
    intro x hx
    obtain ⟨y, hy, rfl⟩ := List.mem_map.1 hx
    exact compare_encodeSequence (Nat.lt_succ_of_le (h.issued y hy)) hnext
  have happend : a.append e = (.ok (a.issued + 1),
      ⟨a.entries.insert (encodeSequence (a.issued + 1)) (encodeEvent e), a.issued + 1⟩) := by
    rw [Archive.append, SortedMap.contains_of_greatest hgreatest]
    rfl
  rw [happend]
  refine ⟨rfl, ?_, fun x hx => ?_⟩
  · rw [SortedMap.toList_insert, SortedMap.insertEntry_of_greatest hgreatest, h.entries,
      List.map_append]
    rfl
  · rcases List.mem_append.1 hx with hx | hx
    · exact Nat.le_succ_of_le (h.issued x hx)
    · rw [List.mem_singleton.1 hx]

theorem readAll (h : a.Keeps kept) (hissued : a.issued < 2 ^ 64)
    (hstorable : ∀ e ∈ kept, e.2.Storable) : a.readAll = .ok kept := by
  have hread : ∀ e ∈ kept, readEntry (encodeSequence e.1, encodeEvent e.2) = .ok e := fun e he =>
    readEntry_encode (Nat.lt_of_le_of_lt (h.issued e he) hissued) (hstorable e he)
  rw [Archive.readAll, h.entries]
  clear h hstorable
  induction kept with
  | nil => rfl
  | cons e kept ih =>
      rw [List.map_cons, List.mapM_cons, hread e List.mem_cons_self,
        ih fun x hx => hread x (List.mem_cons_of_mem _ hx)]
      rfl

end Keeps

/-- Every append of the calls is answered with a number above those before, and adds its entry to
those that the table keeps. -/
structure Extends (a : Archive) (kept : List (Nat × Event)) (calls : List Call)
    (added : List (Nat × Event)) : Prop where
  answers : a.answers calls = (added.map Prod.fst).map .ok
  events : added.map Prod.snd = appended calls
  ascending : (a.issued :: added.map Prod.fst).Pairwise (· < ·)
  keeps : (a.run calls).Keeps (kept ++ added)

namespace Extends

variable {a : Archive} {kept added : List (Nat × Event)} {calls : List Call}

theorem cons_append {e : Event} (hanswer : (a.append e).1 = .ok (a.issued + 1))
    (h : (a.append e).2.Extends (kept ++ [(a.issued + 1, e)]) calls added) :
    a.Extends kept (.append e :: calls) ((a.issued + 1, e) :: added) where
  answers := by rw [Archive.answers, hanswer, h.answers, List.map_cons, List.map_cons]
  events := congrArg (e :: ·) h.events
  ascending := by
    have hascending := h.ascending
    rw [issued_append] at hascending
    refine List.pairwise_cons.2 ⟨fun n hn => ?_, hascending⟩
    rcases List.mem_cons.1 hn with rfl | hn
    · exact Nat.lt_succ_self _
    · exact Nat.lt_of_succ_lt ((List.pairwise_cons.1 hascending).1 n hn)
  keeps := by
    have hkeeps := h.keeps
    rw [List.append_assoc] at hkeeps
    exact hkeeps

/-- A call that appends nothing leaves a gap between the numbers at most. -/
theorem cons_of_event?_eq_none {call : Call} (hnone : call.event? = none)
    (h : (a.step call).Extends kept calls added) : a.Extends kept (call :: calls) added where
  answers := by
    rw [← h.answers]
    cases call with
    | append e => cases hnone
    | skip numbers => rfl
    | reopen skipped => rfl
  events := by
    rw [h.events]
    exact (List.filterMap_cons_none hnone).symm
  ascending := by
    obtain ⟨habove, hascending⟩ := List.pairwise_cons.1 h.ascending
    exact List.pairwise_cons.2
      ⟨fun n hn => Nat.lt_of_le_of_lt (a.issued_le_step call) (habove n hn), hascending⟩
  keeps := h.keeps

end Extends

/-- What one call keeps is kept by all calls in turn. -/
theorem Keeps.exists_extends {a : Archive} {kept : List (Nat × Event)} (h : a.Keeps kept)
    {calls : List Call} (hissued : (a.run calls).issued < 2 ^ 64) :
    ∃ added, a.Extends kept calls added := by
  induction calls generalizing a kept with
  | nil => exact ⟨[], rfl, rfl, List.pairwise_singleton _ _, (List.append_nil kept).symm ▸ h⟩
  | cons call calls ih =>
      have hpast (hnone : call.event? = none) (hentries : (a.step call).entries = a.entries) :
          ∃ added, a.Extends kept (call :: calls) added := by
        obtain ⟨added, hextends⟩ :=
          ih (h.of_entries_eq hentries (a.issued_le_step call)) hissued
        exact ⟨added, hextends.cons_of_event?_eq_none hnone⟩
      cases call with
      | append e =>
          have hnext : a.issued + 1 < 2 ^ 64 := by
            rw [← issued_append a e]
            exact Nat.lt_of_le_of_lt (issued_le_run _ calls) hissued
          obtain ⟨hanswer, hkeeps⟩ := h.append e hnext
          obtain ⟨added, hextends⟩ := ih hkeeps hissued
          exact ⟨_, hextends.cons_append hanswer⟩
      | skip numbers => exact hpast rfl rfl
      | reopen skipped => exact hpast rfl rfl

/-- What stands in the table stays there as it is, in front of all that comes later. -/
theorem entries_prefix_run {calls more : List Call}
    (hissued : (empty.run (calls ++ more)).issued < 2 ^ 64) :
    (empty.run calls).entries.toList <+: (empty.run (calls ++ more)).entries.toList := by
  rw [run_append] at hissued ⊢
  obtain ⟨kept, hkept⟩ :=
    Keeps.empty.exists_extends (Nat.lt_of_le_of_lt (issued_le_run _ more) hissued)
  obtain ⟨added, hadded⟩ := hkept.keeps.exists_extends hissued
  rw [hkept.keeps.entries, hadded.keeps.entries]
  exact List.IsPrefix.map _ (List.prefix_append _ _)

end Archive

end Curia
