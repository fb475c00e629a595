import Mathlib.Data.List.Nodup
import Curia.Proofs.Council.Resolution

/-!
Votes that are read out. A roll gives each vote once, but the order in which it does so is its own
and may depend on the order in which the votes were entered. Counted one by one as they come, they
lead to the answers that the votes have as a mapping: neither that order nor the order in which the
archons were assigned has a part in them.
-/

namespace Curia

/-- Votes in the order in which they are read out, one for each archon. -/
structure Roll where
  toList : List (Archon × Outcome)
  nodup : (toList.map (·.1)).Nodup

namespace Roll

/-! ### Counting as the votes come -/

/-- How many votes each outcome has so far is kept while the votes are read out. -/
def distribution (x : Roll) : SortedMap Outcome Nat :=
  x.toList.foldl (fun counts e => counts.insert e.2 ((counts.get? e.2).getD 0 + 1)) ∅

/-- Collects the archons whose votes meet a condition. -/
def collect (x : Roll) (p : Archon × Outcome → Bool) : SortedSet Archon :=
  SortedSet.ofList ((x.toList.filter p).map (·.1))

def winner? (x : Roll) : Option Outcome :=
  (x.distribution.toList.find? fun e => Consensus.threshold ≤ e.2).map (·.1)

def canWin (x : Roll) : Bool :=
  x.toList.length = Consensus.archonsPerSession &&
    x.distribution.values.any fun n => Consensus.threshold ≤ n

def check (x : Roll) (r : Resolver) (s : Session) : VoteCheck where
  unauthorized := x.collect fun e => !s.isAssigned e.1
  missing := SortedSet.ofList (s.archons.filter fun a => !x.toList.any fun e => e.1 = a)
  invalid := x.collect fun e => !r.permitted.contains e.2

def draft (x : Roll) (s : Session) (winner : Outcome) (now : Instant) : Consensus.Draft :=
  let majority := x.collect fun e => e.2 = winner
  let dissenters := x.collect fun e => e.2 ≠ winner
  let unanimous := majority.size = Consensus.archonsPerSession
  { session := s.id
    petition := s.petition
    status := if unanimous then .unanimous else .achieved
    winner := some winner
    distribution := x.distribution
    majority
    dissenter := if unanimous then none else dissenters.toList.head?
    resolvedAt := now }

def resolve (x : Roll) (r : Resolver) (s : Session) (now : Instant) :
    Except CouncilError Consensus :=
  let check := x.check r s
  if !check.isValid then .error (.voteValidation s.id check)
  else match x.winner? with
    | none => .error (.noConsensus s.id s.petition x.toList.length Consensus.threshold)
    | some winner => Consensus.ofDraft (x.draft s winner now)

/-! ### Counting the votes of a mapping -/

/-- The roll reads out the votes of the mapping. -/
def Reads (x : Roll) (votes : Ballot) : Prop := x.toList.Perm votes.toList

namespace Reads

variable {x : Roll} {votes : Ballot}

theorem mem (h : x.Reads votes) {a : Archon} {o : Outcome} :
    (a, o) ∈ x.toList ↔ votes.get? a = some o :=
  (List.Perm.mem_iff h).trans SortedMap.mem_toList_iff

/-- The counts do not depend on the order of the votes. -/
theorem distribution (h : x.Reads votes) : x.distribution = votes.distribution := by
  have hfold : x.distribution = (x.toList.map (·.2)).foldl
      (fun counts o => counts.insert o ((counts.get? o).getD 0 + 1)) ∅ := by
    rw [List.foldl_map]
    rfl
  have hcount (o : Outcome) : (x.toList.map (·.2)).count o = votes.values.count o :=
    (List.Perm.map (·.2) h).count_eq o
  apply SortedMap.ext_get?
  intro o
  rw [hfold, Ballot.distribution, Ballot.get?_foldl_count, Ballot.get?_foldl_count, hcount]

theorem length (h : x.Reads votes) : x.toList.length = votes.size := List.Perm.length_eq h

theorem winner? (h : x.Reads votes) : x.winner? = votes.winner? := by
  rw [Roll.winner?, h.distribution, Ballot.winner?]

theorem canWin (h : x.Reads votes) : x.canWin = votes.canWin := by
  rw [Roll.canWin, h.distribution, h.length, Ballot.canWin]

/-- Whoever is collected is the same, whatever the order. -/
theorem collect (h : x.Reads votes) {p : Archon × Outcome → Bool} {q : Archon → Bool}
    (hpq : ∀ a o, votes.get? a = some o → q a = p (a, o)) :
    x.collect p = (SortedSet.ofKeys votes).filter q := by
  apply SortedSet.ext_mem
  intro a
  rw [Roll.collect, SortedSet.mem_ofList, SortedSet.mem_filter, SortedSet.mem_ofKeys,
    SortedMap.contains_iff]
  constructor
  · intro ha
    obtain ⟨⟨b, o⟩, he, rfl⟩ := List.mem_map.1 ha
    obtain ⟨he, hp⟩ := List.mem_filter.1 he
    have ho : votes.get? b = some o := h.mem.1 he
    exact ⟨⟨o, ho⟩, (hpq b o ho).trans hp⟩
  · rintro ⟨⟨o, ho⟩, hq⟩
    refine List.mem_map.2 ⟨(a, o), List.mem_filter.2 ⟨h.mem.2 ho, ?_⟩, rfl⟩
    rw [← hpq a o ho]
    exact hq

theorem any (h : x.Reads votes) (a : Archon) :
    (x.toList.any fun e => e.1 = a) = votes.contains a := by
  rw [Bool.eq_iff_iff, List.any_eq_true, SortedMap.contains_iff]
  constructor
  · rintro ⟨⟨b, o⟩, he, hb⟩
    obtain rfl : b = a := of_decide_eq_true hb
    exact ⟨o, h.mem.1 he⟩
  · rintro ⟨o, ho⟩
    exact ⟨(a, o), h.mem.2 ho, decide_eq_true rfl⟩

variable {s t : Session}

/-- The archons may have been assigned in any order. -/
theorem check (h : x.Reads votes) (r : Resolver) (hst : s.archons.Perm t.archons) :
    x.check r s = r.check t votes := by
  have hassigned (a : Archon) : s.isAssigned a = t.isAssigned a := by
    simp [Session.isAssigned, hst.mem_iff]
  have hunauthorized : (x.check r s).unauthorized = (r.check t votes).unauthorized := by
    apply h.collect
    intro a o _
    rw [hassigned]
  have hmissing : (x.check r s).missing = (r.check t votes).missing := by
    apply SortedSet.ext_mem
    intro a
    simp [Roll.check, Resolver.check, SortedSet.mem_ofList, SortedSet.mem_filter, h.any,
      hst.mem_iff]
  have hinvalid : (x.check r s).invalid = (r.check t votes).invalid := by
    apply h.collect
    intro a o ho
    simp [ho]
  rw [Roll.check, Resolver.check, VoteCheck.mk.injEq]
  exact ⟨hunauthorized, hmissing, hinvalid⟩

theorem draft (h : x.Reads votes) (hid : s.id = t.id) (hpetition : s.petition = t.petition)
    (winner : Outcome) (now : Instant) :
    x.draft s winner now = Resolver.draft t votes winner now := by
  have hfor : (x.collect fun e => e.2 = winner) = votes.votersFor winner := by
    apply h.collect
    intro a o ho
    simp [ho]
  have hagainst : (x.collect fun e => e.2 ≠ winner) = votes.votersAgainst winner := by
    apply h.collect
    intro a o ho
    simp [ho]
  simp only [Roll.draft, Resolver.draft, hfor, hagainst, h.distribution, hid, hpetition]

theorem resolve (h : x.Reads votes) (r : Resolver) (hid : s.id = t.id)
    (hpetition : s.petition = t.petition) (hst : s.archons.Perm t.archons) (now : Instant) :
    x.resolve r s now = r.resolve t votes now := by
  rw [Roll.resolve, Resolver.resolve, h.check r hst, h.winner?, h.length, hid, hpetition]
  cases votes.winner? with
  | none => rfl
  | some winner =>
      show (if _ then _ else Consensus.ofDraft (x.draft s winner now)) = _
      rw [h.draft hid hpetition]

end Reads

/-! ### Entering the votes -/

/-- The vote that an archon has after the entries have been made, of which the last one counts. -/
def lastVote (entries : List (Archon × Outcome)) (a : Archon) : Option Outcome :=
  (entries.filter fun e => e.1 = a).getLast?.map (·.2)

/-- The roll reads out the votes that stand after the entries have been made. -/
def Holds (x : Roll) (entries : List (Archon × Outcome)) : Prop :=
  ∀ a o, (a, o) ∈ x.toList ↔ lastVote entries a = some o

theorem Holds.reads {x : Roll} {entries : List (Archon × Outcome)} (h : x.Holds entries)
    {votes : Ballot} (hvotes : ∀ a, votes.get? a = lastVote entries a) : x.Reads votes := by
  have hnodup : x.toList.Nodup := List.Nodup.of_map _ x.nodup
  refine (List.perm_ext_iff_of_nodup hnodup votes.nodup_toList).2 fun ⟨a, o⟩ => ?_
  rw [h a o, SortedMap.mem_toList_iff, hvotes]

theorem Reads.holds {x : Roll} {entries : List (Archon × Outcome)}
    (h : x.Reads (SortedMap.ofList entries)) : x.Holds entries := by
  intro a o
  rw [h.mem, SortedMap.get?_ofList]
  rfl

/-- Whatever leads to the same votes leads to the same answers: in whatever order the votes were
entered and are read out, and in whatever order the archons were assigned, the votes have the same
faults, can win or cannot, and come to the same consensus or the same error. -/
theorem answers_in_any_order (r : Resolver) {id : SessionId} {petition : PetitionId}
    {archons archons' : List Archon} {s₀ : Session}
    (hstart : Session.start id petition archons = .ok s₀) (hperm : archons'.Perm archons)
    {entries entries' : List (Archon × Outcome)}
    (hsame : ∀ a, lastVote entries' a = lastVote entries a) {x x' : Roll} (hx : x.Holds entries)
    (hx' : x'.Holds entries') (now : Instant) :
    ∃ s₀', Session.start id petition archons' = .ok s₀' ∧
      ∀ s s', s₀.Evolves s → s₀'.Evolves s' →
        let votes : Ballot := SortedMap.ofList entries
        (x'.check r s' = x.check r s ∧ x.check r s = r.check s votes) ∧
          (x'.canWin = x.canWin ∧ x.canWin = votes.canWin) ∧
          x'.resolve r s' now = x.resolve r s now ∧ x.resolve r s now = r.resolve s votes now := by
  obtain ⟨hlength, hnodup, rfl⟩ := Session.start_eq_ok_iff.1 hstart
  refine ⟨.fresh id petition archons', Session.start_eq_ok_iff.2 ⟨?_, ?_, rfl⟩, ?_⟩
  · rw [hperm.length_eq, hlength]
  · exact hperm.nodup_iff.2 hnodup
  intro s s' hs hs' votes
  have hreads : x.Reads votes := hx.reads (SortedMap.get?_ofList entries)
  have hreads' : x'.Reads votes := by
    apply hx'.reads
    intro a
    rw [hsame]
    exact SortedMap.get?_ofList entries a
  have hid : s'.id = s.id := hs'.id_eq.trans hs.id_eq.symm
  have hpetition : s'.petition = s.petition := hs'.petition_eq.trans hs.petition_eq.symm
  have harchons : s'.archons.Perm s.archons := by
    rw [hs'.archons_eq, hs.archons_eq]
    exact hperm
  refine ⟨⟨?_, hreads.check r .rfl⟩, ⟨?_, hreads.canWin⟩, ?_, hreads.resolve r rfl rfl .rfl now⟩
  · rw [hreads'.check r harchons, hreads.check r .rfl]
  · rw [hreads'.canWin, hreads.canWin]
  · rw [hreads'.resolve r hid hpetition harchons, hreads.resolve r rfl rfl .rfl]

/-- An archon of the first session changes its mind; the votes of the second are entered straight
away and in another order, and its archons are assigned in yet another. -/
theorem answers_in_any_order_of_changed_mind :
    let entries : List (Archon × Outcome) :=
      [(⟨"a"⟩, .escalate), (⟨"b"⟩, .refer), (⟨"c"⟩, .escalate), (⟨"a"⟩, .refer)]
    let entries' : List (Archon × Outcome) :=
      [(⟨"c"⟩, .escalate), (⟨"a"⟩, .refer), (⟨"b"⟩, .refer)]
    let x : Roll := ⟨[(⟨"b"⟩, .refer), (⟨"a"⟩, .refer), (⟨"c"⟩, .escalate)], by decide⟩
    let x' : Roll := ⟨entries', by decide⟩
    let archons : List Archon := [⟨"a"⟩, ⟨"b"⟩, ⟨"c"⟩]
    let archons' : List Archon := [⟨"c"⟩, ⟨"a"⟩, ⟨"b"⟩]
    let s₀ := Session.fresh ⟨.ofNat 1⟩ ⟨.ofNat 2⟩ archons
    Session.start ⟨.ofNat 1⟩ ⟨.ofNat 2⟩ archons = .ok s₀ ∧ archons'.Perm archons ∧
      (∀ a, lastVote entries' a = lastVote entries a) ∧ x.Holds entries ∧ x'.Holds entries' ∧
      (x.resolve .default s₀ .epoch).isOk = true ∧
      ∃ s₀', Session.start ⟨.ofNat 1⟩ ⟨.ofNat 2⟩ archons' = .ok s₀' ∧
        x'.resolve .default s₀' .epoch = x.resolve .default s₀ .epoch := by
  intro entries entries' x x' archons archons' s₀
  have hstart : Session.start ⟨.ofNat 1⟩ ⟨.ofNat 2⟩ archons = .ok s₀ := rfl
  have hperm : archons'.Perm archons := by decide
  have hmap : SortedMap.ofList entries' = SortedMap.ofList entries := by decide +kernel
  have hsame (a : Archon) : lastVote entries' a = lastVote entries a := by
    rw [lastVote, lastVote, ← SortedMap.get?_ofList, hmap, SortedMap.get?_ofList]
  have hx : x.Holds entries := by
    apply Reads.holds
    show x.toList.Perm (SortedMap.ofList entries).toList
    decide +kernel
  have hx' : x'.Holds entries' := by
    apply Reads.holds
    show x'.toList.Perm (SortedMap.ofList entries').toList
    decide +kernel
  obtain ⟨s₀', hstart', hanswers⟩ :=
    answers_in_any_order .default hstart hperm hsame hx hx' .epoch
  refine ⟨hstart, hperm, hsame, hx, hx', by decide +kernel, s₀', hstart', ?_⟩
  exact (hanswers s₀ s₀' .refl .refl).2.2.1

end Roll

end Curia
