import Curia.Council.Resolution
import Curia.Proofs.Council.Drafts
import Curia.Proofs.Council.Session

/-!
What a consensus says that was counted from the votes of a session: its winner has two of the three
votes, and its dissenter is the one, if any, who voted for something else. Two countings of the
same votes agree in both.
-/

namespace Curia

/-! ### Counting -/

namespace Ballot

theorem get?_foldl_count (os : List Outcome) (counts : SortedMap Outcome Nat) (o : Outcome) :
    (os.foldl (fun counts o => counts.insert o ((counts.get? o).getD 0 + 1)) counts).get? o =
      if os.count o = 0 then counts.get? o else some ((counts.get? o).getD 0 + os.count o) := by
  induction os generalizing counts with
  | nil => simp
  | cons p os ih =>
      rw [List.foldl_cons, ih, SortedMap.get?_insert, List.count_cons]
      by_cases hp : p = o
      · subst hp
        simp only [↓reduceIte, beq_self_eq_true, Option.getD_some]
        split <;> simp <;> omega
      · simp [hp]

theorem get?_distribution (votes : Ballot) (o : Outcome) :
    votes.distribution.get? o =
      if votes.values.count o = 0 then none else some (votes.values.count o) := by
  rw [distribution, get?_foldl_count]
  simp

/-- The outcome that wins has enough votes. -/
theorem threshold_le_of_winner? {votes : Ballot} {o : Outcome} (h : votes.winner? = some o) :
    Consensus.threshold ≤ votes.values.count o := by
  obtain ⟨⟨p, n⟩, hfind, rfl⟩ := Option.map_eq_some_iff.1 h
  have hn : Consensus.threshold ≤ n := by simpa using List.find?_some hfind
  have hget := SortedMap.mem_toList_iff.1 (List.mem_of_find?_eq_some hfind)
  rw [get?_distribution] at hget
  split at hget
  · cases hget
  · rwa [Option.some.inj hget]

/-- How many votes an outcome has. -/
def tally (votes : Ballot) (o : Outcome) : Nat := votes.values.count o

theorem filter_ofKeys_toList (votes : Ballot) (p : Option Outcome → Bool) :
    ((SortedSet.ofKeys votes).filter fun a => p (votes.get? a)).toList =
      (votes.toList.filter fun e => p (some e.2)).map (·.1) := by
  change (votes.toList.map (·.1)).filter _ = _
  rw [List.filter_map]
  refine congrArg _ (List.filter_congr fun e he => ?_)
  exact congrArg p (SortedMap.mem_toList_iff.1 he)

theorem votersAgainst_toList (votes : Ballot) (o : Outcome) :
    (votes.votersAgainst o).toList = (votes.toList.filter fun e => e.2 ≠ o).map (·.1) := by
  have h := filter_ofKeys_toList votes fun v => decide (v ≠ some o)
  simpa [votersAgainst] using h

theorem votersFor_size (votes : Ballot) (o : Outcome) :
    (votes.votersFor o).size = votes.values.count o := by
  have h := filter_ofKeys_toList votes fun v => decide (v = some o)
  rw [SortedSet.size, votersFor, h, List.length_map, SortedMap.values, List.count_eq_countP,
    List.countP_map, List.countP_eq_length_filter]
  refine congrArg _ (List.filter_congr fun e _ => ?_)
  by_cases he : e.2 = o <;> simp [he]

/-- Everyone votes for an outcome or against it. -/
theorem tally_add_votersAgainst (votes : Ballot) (o : Outcome) :
    votes.tally o + (votes.votersAgainst o).size = votes.size := by
  rw [SortedSet.size, votersAgainst_toList, tally, SortedMap.values, SortedMap.size,
    List.length_map]
  induction votes.toList with
  | nil => rfl
  | cons e es ih =>
      rw [List.map_cons, List.count_cons, List.filter_cons]
      by_cases he : e.2 = o
      · simp [he] at ih ⊢
        omega
      · simp [he] at ih ⊢
        omega

end Ballot

theorem Outcome.count_add_count_le {a b : Outcome} (h : a ≠ b) (os : List Outcome) :
    os.count a + os.count b ≤ os.length := by
  induction os with
  | nil => simp
  | cons o os ih =>
      have hone : ¬(o = a ∧ o = b) := fun ⟨ha, hb⟩ => h (ha.symm.trans hb)
      simp only [List.count_cons, List.length_cons, beq_iff_eq]
      split <;> split <;> first | omega | exact absurd ⟨‹_›, ‹_›⟩ hone

theorem Ballot.tally_add_le (votes : Ballot) {a b : Outcome} (h : a ≠ b) :
    votes.tally a + votes.tally b ≤ votes.size := by
  have hle := Outcome.count_add_count_le h votes.values
  rwa [SortedMap.values, List.length_map] at hle

/-- Only one outcome can have two of three votes. -/
theorem Ballot.eq_of_tally {votes : Ballot} {a b : Outcome}
    (hsize : votes.size = Consensus.archonsPerSession) (ha : Consensus.threshold ≤ votes.tally a)
    (hb : Consensus.threshold ≤ votes.tally b) : a = b := by
  refine Decidable.byContradiction fun hne => ?_
  have hle := votes.tally_add_le hne
  simp only [Consensus.archonsPerSession, Consensus.threshold] at *
  omega

/-! ### Votes of a session -/

namespace Session

/-- How many votes an outcome has. -/
def support (s : Session) (o : Outcome) : Nat := s.voteMap.values.count o

/-- Those who voted for another outcome. -/
def opposed (s : Session) (o : Outcome) : List Archon :=
  (s.votes.toList.filter fun e => e.2.outcome ≠ o).map (·.1)

/-- Two votes stand against one. -/
def IsSplit (s : Session) : Prop := ∃ a b, a ≠ b ∧ s.support a = 2 ∧ s.support b = 1

theorem size_voteMap (s : Session) : s.voteMap.size = s.votes.size := SortedMap.size_map ..

theorem votersAgainst_voteMap (s : Session) (o : Outcome) :
    (Ballot.votersAgainst s.voteMap o).toList = s.opposed o := by
  rw [Ballot.votersAgainst_toList, opposed, voteMap, SortedMap.map, List.filter_map, List.map_map]
  rfl

theorem support_add_opposed (s : Session) (o : Outcome) :
    s.support o + (s.opposed o).length = s.votes.size := by
  rw [← votersAgainst_voteMap, ← size_voteMap]
  exact Ballot.tally_add_votersAgainst s.voteMap o

theorem support_add_le {s : Session} {a b : Outcome} (h : a ≠ b) :
    s.support a + s.support b ≤ s.votes.size := by
  rw [← size_voteMap]
  exact Ballot.tally_add_le s.voteMap h

theorem eq_of_support {s : Session} {a b : Outcome}
    (hsize : s.votes.size = Consensus.archonsPerSession) (ha : Consensus.threshold ≤ s.support a)
    (hb : Consensus.threshold ≤ s.support b) : a = b :=
  Ballot.eq_of_tally (s.size_voteMap.trans hsize) ha hb

theorem support_pos_of_mem {s : Session} {a : Archon} {v : Vote} (h : s.votes.get? a = some v) :
    0 < s.support v.outcome := by
  refine List.count_pos_iff.2 (List.mem_map.2 ⟨(a, v.outcome), ?_, rfl⟩)
  exact List.mem_map.2 ⟨(a, v), SortedMap.mem_of_get? h, rfl⟩

theorem mem_opposed {s : Session} {o : Outcome} {a : Archon} :
    a ∈ s.opposed o ↔ ∃ v, s.votes.get? a = some v ∧ v.outcome ≠ o := by
  rw [opposed, SortedMap.mem_map_fst_filter]
  simp

/-- Where an outcome has won, the votes are split just if someone voted against it. -/
theorem isSplit_iff {s : Session} {o : Outcome} (hsize : s.votes.size = Consensus.archonsPerSession)
    (ho : Consensus.threshold ≤ s.support o) : s.IsSplit ↔ s.opposed o ≠ [] := by
  have hsum := s.support_add_opposed o
  simp only [Consensus.archonsPerSession, Consensus.threshold] at hsize ho
  constructor
  · rintro ⟨a, b, hab, ha, hb⟩ hnil
    rw [hnil, List.length_nil] at hsum
    have hao : a = o := eq_of_support hsize (by rw [ha]; exact Nat.le_refl 2) ho
    rw [hao] at ha
    omega
  · intro hne
    obtain ⟨a, ha⟩ := List.exists_mem_of_ne_nil _ hne
    obtain ⟨v, hv, hvo⟩ := mem_opposed.1 ha
    have hpos := support_pos_of_mem hv
    have hle := support_add_le (s := s) (Ne.symm hvo)
    exact ⟨o, v.outcome, Ne.symm hvo, by omega, by omega⟩

end Session

/-! ### The consensus of a session -/

namespace Consensus

/-- The consensus is what the votes of a session come to: the winner has enough of them, and the
dissenter is the first who is against it. -/
structure Counts (c : Consensus) (s : Session) (winner : Outcome) (now : Instant) : Prop where
  session : c.session = s.id
  petition : c.petition = s.petition
  winner_eq : c.winner = some winner
  support : threshold ≤ s.support winner
  dissenter : c.dissenter = (s.opposed winner).head?
  status : c.status = if s.opposed winner = [] then .unanimous else .achieved
  resolvedAt : c.resolvedAt = now

end Consensus

/-- A state of a session and its consensus repeat what another state and its consensus say. -/
structure Session.SameCount (s : Session) (c : Consensus) (t : Session) (c' : Consensus) : Prop where
  id : t.id = s.id
  petition : t.petition = s.petition
  votes : t.votes = s.votes
  winner : c'.winner = c.winner
  dissenter : c'.dissenter = c.dissenter

/-- Whenever the votes of a session are counted, the count is the same. -/
theorem Consensus.Counts.same {s t : Session} {c c' : Consensus} {winner winner' : Outcome}
    {now now' : Instant} (hst : s.Akin t) (hs : s.Valid) (ht : t.Valid) (hsall : s.AllVoted)
    (htall : t.AllVoted) (hc : c.Counts s winner now) (hc' : c'.Counts t winner' now') :
    s.SameCount c t c' := by
  have hvotes : t.votes = s.votes := hst.votes_eq hs ht hsall htall
  have hmap : t.voteMap = s.voteMap := by rw [Session.voteMap, Session.voteMap, hvotes]
  obtain rfl : winner = winner' := by
    refine Session.eq_of_support (hs.votes_size hsall) hc.support ?_
    rw [Session.support, ← hmap]
    exact hc'.support
  refine ⟨hst.id_eq, hst.petition_eq, hvotes, hc'.winner_eq.trans hc.winner_eq.symm, ?_⟩
  rw [hc'.dissenter, hc.dissenter, Session.opposed, Session.opposed, hvotes]

/-- The count depends on the votes alone, and on whose they are. -/
theorem Consensus.Counts.congr {s t : Session} {c : Consensus} {winner : Outcome} {now : Instant}
    (h : c.Counts s winner now) (hid : t.id = s.id) (hpetition : t.petition = s.petition)
    (hvotes : t.votes = s.votes) : c.Counts t winner now := by
  have hopposed : t.opposed winner = s.opposed winner := by
    rw [Session.opposed, Session.opposed, hvotes]
  have hsupport : t.support winner = s.support winner := by
    rw [Session.support, Session.support, Session.voteMap, Session.voteMap, hvotes]
  refine ⟨h.session.trans hid.symm, h.petition.trans hpetition.symm, h.winner_eq,
    hsupport ▸ h.support, ?_, ?_, h.resolvedAt⟩
  · rw [hopposed]
    exact h.dissenter
  · rw [hopposed]
    exact h.status

namespace Resolver

theorem check_isValid_iff {r : Resolver} {s : Session} {votes : Ballot} :
    (r.check s votes).isValid = true ↔
      (∀ a, votes.contains a = true → a ∈ s.archons) ∧
        (∀ a ∈ s.archons, votes.contains a = true) ∧
        ∀ a o, votes.get? a = some o → r.permitted.contains o = true := by
  have hstatus (c : VoteCheck) : c.isValid = true ↔
      c.unauthorized.isEmpty = true ∧ c.missing.isEmpty = true ∧ c.invalid.isEmpty = true := by
    rw [VoteCheck.isValid, decide_eq_true_eq, VoteCheck.status]
    cases c.unauthorized.isEmpty <;> cases c.missing.isEmpty <;> cases c.invalid.isEmpty <;> simp
  rw [hstatus]
  simp only [check, SortedSet.isEmpty_iff, SortedSet.mem_filter, SortedSet.mem_ofKeys,
    SortedSet.mem_ofList, Session.isAssigned]
  refine and_congr ?_ (and_congr ?_ ?_)
  · simp
  · simp
  · simp only [SortedMap.contains_iff, not_and, Bool.not_eq_true]
    constructor
    · intro h a o ho
      simpa [ho] using h a ⟨o, ho⟩
    · rintro h a ⟨o, ho⟩
      simpa [ho] using h a o ho

/-- A consensus comes of votes that are in order and of which an outcome has enough. -/
theorem resolve_eq_ok {r : Resolver} {s : Session} {votes : Ballot} {now : Instant} {c : Consensus}
    (h : r.resolve s votes now = .ok c) :
    (r.check s votes).isValid = true ∧ ∃ winner, votes.winner? = some winner ∧
      c.toDraft = draft s votes winner now := by
  rw [resolve] at h
  split at h
  · cases h
  · next hvalid =>
    refine ⟨by simpa using hvalid, ?_⟩
    split at h
    · cases h
    · next winner hw =>
      exact ⟨winner, hw, Consensus.ofDraft_eq_ok_iff.1 h⟩

/-- What has been counted from the votes of a session. -/
theorem counts_of_resolve {r : Resolver} {s : Session} {now : Instant} {c : Consensus}
    (hs : s.Valid) (h : r.resolve s s.voteMap now = .ok c) :
    s.AllVoted ∧ ∃ winner, c.Counts s winner now := by
  obtain ⟨hvalid, winner, hw, hdraft⟩ := resolve_eq_ok h
  have hall : s.AllVoted := fun a ha => by
    have := (check_isValid_iff.1 hvalid).2.1 a ha
    simpa [Session.voteMap, SortedMap.contains, SortedMap.get?_map] using this
  have hsum := s.support_add_opposed winner
  have hfor : (Ballot.votersFor s.voteMap winner).size = s.support winner :=
    Ballot.votersFor_size ..
  rw [hs.votes_size hall] at hsum
  -- all have voted for the winner just if nobody is against it
  have hunanimous : (Ballot.votersFor s.voteMap winner).size = Consensus.archonsPerSession ↔
      s.opposed winner = [] := by
    rw [hfor, ← List.length_eq_zero_iff]
    omega
  refine ⟨hall, winner, ?_⟩
  constructor
  · rw [hdraft, draft]
  · rw [hdraft, draft]
  · rw [hdraft, draft]
  · exact Ballot.threshold_le_of_winner? hw
  · rw [hdraft]
    simp only [draft, hunanimous, Session.votersAgainst_voteMap]
    split
    · next hnil => rw [hnil, List.head?_nil]
    · rfl
  · rw [hdraft]
    simp only [draft, hunanimous]
  · rw [hdraft, draft]

end Resolver

end Curia
