import Mathlib.Algebra.GroupWithZero.Nat
import Mathlib.Data.List.Nodup
import Curia.Proofs.Council.Resolution

/-!
Two of three: what any votes come to that are given for a session. There is a consensus just if the
three archons and nobody else have voted, all for permitted outcomes, and two of them for the same
one; it says who won with how many votes, and who stood apart. Otherwise the error says what is
wrong with the votes, or that no two of them agree.
-/

namespace Curia

/-! ### Sums over a map -/

namespace SortedMap

variable {κ α : Type} [Ord κ] [Std.TransOrd κ] [Std.LawfulEqOrd κ] [DecidableEq κ]

/-- A new number takes the place of the one that was there. -/
theorem sum_values_insert (m : SortedMap κ Nat) (k : κ) (n : Nat) :
    (m.insert k n).values.sum + (m.get? k).getD 0 = m.values.sum + n := by
  obtain ⟨es, hs⟩ := m
  simp only [values, get?, toList_insert]
  induction es with
  | nil => simp [insertEntry]
  | cons e es ih =>
      obtain ⟨hlt, hs'⟩ := List.pairwise_cons.1 hs
      have hbefore (h : compare k e.1 = .lt) : ∀ f ∈ es, f.1 ≠ k := by
        intro f hf hk
        have := Std.TransCmp.lt_trans h (hlt f hf)
        rw [hk, Std.ReflOrd.compare_self] at this
        cases this
      rw [insertEntry]
      split
      · next hk =>
        have hne : e.1 ≠ k := by
          rintro rfl
          rw [Std.ReflOrd.compare_self] at hk
          cases hk
        have hfind : (es.find? fun f => f.1 = k) = none := by
          simpa using hbefore hk
        simp [hne, hfind]
        omega
      · next hk =>
        have hk : k = e.1 := Std.LawfulEqOrd.eq_of_compare hk
        simp [← hk]
        omega
      · next hk =>
        have hne : e.1 ≠ k := by
          rintro rfl
          rw [Std.ReflOrd.compare_self] at hk
          cases hk
        have ih := ih hs'
        simp [hne] at ih ⊢
        omega

omit [Std.LawfulEqOrd κ] in
/-- Looking all keys up gives all values. -/
theorem map_get?_keys (m : SortedMap κ α) : m.keys.map m.get? = m.values.map some := by
  rw [keys, values, List.map_map, List.map_map]
  refine List.map_congr_left fun e he => ?_
  exact mem_toList_iff.1 he

end SortedMap

/-! ### Votes of any number -/

namespace Ballot

theorem sum_foldl_count (os : List Outcome) (counts : SortedMap Outcome Nat) :
    (os.foldl (fun counts o => counts.insert o ((counts.get? o).getD 0 + 1)) counts).values.sum =
      counts.values.sum + os.length := by
  induction os generalizing counts with
  | nil => simp
  | cons o os ih =>
      rw [List.foldl_cons, ih, List.length_cons]
      have hinsert := counts.sum_values_insert o ((counts.get? o).getD 0 + 1)
      omega

/-- Every vote is counted, and it is counted once. -/
theorem sum_distribution (votes : Ballot) : votes.distribution.values.sum = votes.size := by
  rw [distribution, sum_foldl_count, SortedMap.values, SortedMap.values, List.length_map,
    SortedMap.size]
  exact Nat.zero_add _

theorem winner?_eq_none_iff {votes : Ballot} :
    votes.winner? = none ↔ ∀ o, votes.tally o < Consensus.threshold := by
  rw [winner?, Option.map_eq_none_iff, List.find?_eq_none]
  constructor
  · intro h o
    by_cases hzero : votes.tally o = 0
    · rw [hzero]
      decide
    · have hget : votes.distribution.get? o = some (votes.tally o) := by
        rw [get?_distribution]
        exact if_neg hzero
      simpa using h _ (SortedMap.mem_of_get? hget)
  · rintro h ⟨o, n⟩ he
    have hget := SortedMap.mem_toList_iff.1 he
    rw [get?_distribution] at hget
    split at hget
    · cases hget
    · have hn : votes.tally o = n := Option.some.inj hget
      simpa [← hn] using h o

theorem mem_votersFor {votes : Ballot} {o : Outcome} {a : Archon} :
    a ∈ (votes.votersFor o).toList ↔ votes.get? a = some o := by
  rw [votersFor, SortedSet.mem_filter, SortedSet.mem_ofKeys, SortedMap.contains_iff,
    decide_eq_true_eq]
  exact ⟨And.right, fun h => ⟨⟨o, h⟩, h⟩⟩

theorem mem_votersAgainst {votes : Ballot} {o : Outcome} {a : Archon} :
    a ∈ (votes.votersAgainst o).toList ↔ votes.contains a = true ∧ votes.get? a ≠ some o := by
  rw [votersAgainst, SortedSet.mem_filter, SortedSet.mem_ofKeys, decide_eq_true_eq]

/-- The archons, and nobody else, have voted. -/
def CastBy (votes : Ballot) (archons : List Archon) : Prop :=
  ∀ a, votes.contains a = true ↔ a ∈ archons

/-- The votes are all different just if no outcome has two of them. -/
theorem CastBy.nodup_iff {votes : Ballot} {archons : List Archon} (h : votes.CastBy archons)
    (hnodup : archons.Nodup) :
    (archons.map votes.get?).Nodup ↔ ∀ o, votes.tally o < Consensus.threshold := by
  rw [← ((SortedMap.keys_perm hnodup h).map votes.get?).nodup_iff, SortedMap.map_get?_keys,
    List.nodup_map_iff fun _ _ => Option.some.inj, List.nodup_iff_count_le_one]
  exact forall_congr' fun o => Nat.lt_succ_iff.symm

end Ballot

/-! ### What a consensus says -/

namespace Consensus

/-- The consensus says what the votes come to that the archons of a session have cast. -/
structure Settles (c : Consensus) (s : Session) (votes : Ballot) (now : Instant)
    (winner : Outcome) : Prop where
  session : c.session = s.id
  petition : c.petition = s.petition
  resolvedAt : c.resolvedAt = now
  winner_eq : c.winner = some winner
  support : threshold ≤ votes.tally winner
  unique : ∀ o, threshold ≤ votes.tally o → o = winner
  distribution : ∀ o, c.distribution.get? o =
    if votes.tally o = 0 then none else some (votes.tally o)
  total : c.distribution.values.sum = archonsPerSession
  majority : ∀ a, a ∈ c.majority.toList ↔ votes.get? a = some winner
  unanimous : c.status = .unanimous ∧ c.dissenter = none ↔
    ∀ a ∈ s.archons, ∀ b ∈ s.archons, votes.get? a = votes.get? b
  achieved : ¬(∀ a ∈ s.archons, ∀ b ∈ s.archons, votes.get? a = votes.get? b) →
    c.status = .achieved ∧ ∃ d, c.dissenter = some d ∧
      ∀ a, a = d ↔ a ∈ s.archons ∧ a ∉ c.majority.toList

end Consensus

namespace Resolver

/-- The archons of the session, and nobody else, have voted, and for permitted outcomes. -/
def InOrder (r : Resolver) (s : Session) (votes : Ballot) : Prop :=
  votes.CastBy s.archons ∧ ∀ a o, votes.get? a = some o → r.permitted.contains o = true

theorem check_isValid_iff_inOrder {r : Resolver} {s : Session} {votes : Ballot} :
    (r.check s votes).isValid = true ↔ r.InOrder s votes := by
  rw [check_isValid_iff, InOrder, Ballot.CastBy]
  constructor
  · rintro ⟨hvoter, hvoted, hpermitted⟩
    exact ⟨fun a => ⟨hvoter a, hvoted a⟩, hpermitted⟩
  · rintro ⟨hcast, hpermitted⟩
    exact ⟨fun a => (hcast a).1, fun a => (hcast a).2, hpermitted⟩

section

variable {s : Session} {votes : Ballot} {winner : Outcome}

/-- Either all of three votes are for the winner, or one is not. -/
theorem split_cases (hsize : votes.size = Consensus.archonsPerSession)
    (hw : Consensus.threshold ≤ votes.tally winner) :
    ((votes.votersFor winner).size = 3 ∧ (votes.votersAgainst winner).toList = []) ∨
      (votes.votersFor winner).size = 2 ∧ ∃ d, (votes.votersAgainst winner).toList = [d] := by
  have hsum := votes.tally_add_votersAgainst winner
  rw [hsize] at hsum
  have hfor : (votes.votersFor winner).size = votes.tally winner := votes.votersFor_size winner
  simp only [Consensus.archonsPerSession, Consensus.threshold, SortedSet.size] at *
  obtain h | h : votes.tally winner = 3 ∨ votes.tally winner = 2 := by omega
  · refine .inl ⟨by omega, List.length_eq_zero_iff.1 (by omega)⟩
  · refine .inr ⟨by omega, List.length_eq_one_iff.1 (by omega)⟩

/-- The parts of what is drafted from three votes agree with each other. -/
theorem consistent_draft (hsize : votes.size = Consensus.archonsPerSession)
    (hw : Consensus.threshold ≤ votes.tally winner) (now : Instant) :
    (draft s votes winner now).Consistent := by
  have hfor : (votes.votersFor winner).size = votes.tally winner := votes.votersFor_size winner
  have hget : votes.distribution.get? winner = some (votes.votersFor winner).size := by
    rw [Ballot.get?_distribution, hfor]
    refine if_neg fun hzero => ?_
    rw [Ballot.tally, hzero] at hw
    cases hw
  have hwon : (draft s votes winner now).WonBy winner (votes.votersFor winner).size :=
    ⟨rfl, rfl, hget⟩
  rcases split_cases hsize hw with ⟨hthree, -⟩ | ⟨htwo, d, hagainst⟩
  · rw [hthree] at hwon
    refine .unanimous ?_ hwon ?_ <;> simp [draft, hthree, Consensus.archonsPerSession]
  · rw [htwo] at hwon
    have hd : d ∈ (votes.votersAgainst winner).toList := by simp [hagainst]
    have hapart : d ∉ (votes.votersFor winner).toList := by
      rw [Ballot.mem_votersFor]
      exact (Ballot.mem_votersAgainst.1 hd).2
    refine .achieved ?_ hwon ?_ hapart <;>
      simp [draft, htwo, hagainst, Consensus.archonsPerSession]

/-- The archons agree just if nobody is against the winner. -/
theorem agree_iff (hcast : votes.CastBy s.archons)
    (hw : Consensus.threshold ≤ votes.tally winner) :
    (∀ a ∈ s.archons, ∀ b ∈ s.archons, votes.get? a = votes.get? b) ↔
      (votes.votersAgainst winner).toList = [] := by
  rw [List.eq_nil_iff_forall_not_mem]
  constructor
  · intro h d hd
    obtain ⟨hvoted, hne⟩ := Ballot.mem_votersAgainst.1 hd
    have hpos : 0 < (votes.votersFor winner).toList.length := by
      have hfor := votes.votersFor_size winner
      simp only [Consensus.threshold, SortedSet.size, Ballot.tally] at hw hfor
      omega
    obtain ⟨a, ha⟩ := List.exists_mem_of_length_pos hpos
    have ha : votes.get? a = some winner := Ballot.mem_votersFor.1 ha
    have hmem : a ∈ s.archons := (hcast a).1 (SortedMap.contains_iff.2 ⟨winner, ha⟩)
    exact hne ((h d ((hcast d).1 hvoted) a hmem).trans ha)
  · intro h
    have hall (a : Archon) (ha : a ∈ s.archons) : votes.get? a = some winner := by
      by_contra hne
      exact h a (Ballot.mem_votersAgainst.2 ⟨(hcast a).2 ha, hne⟩)
    intro a ha b hb
    rw [hall a ha, hall b hb]

theorem settles_of_draft (hs : s.Valid) (hcast : votes.CastBy s.archons)
    (hw : Consensus.threshold ≤ votes.tally winner) {now : Instant} {c : Consensus}
    (hc : c.toDraft = draft s votes winner now) : c.Settles s votes now winner := by
  have hsize : votes.size = Consensus.archonsPerSession := by
    rw [← hs.archons_length]
    exact SortedMap.size_eq_length hs.archons_nodup hcast
  have hmajority (a : Archon) : a ∈ c.majority.toList ↔ votes.get? a = some winner := by
    rw [hc]
    exact Ballot.mem_votersFor
  constructor
  · rw [hc, draft]
  · rw [hc, draft]
  · rw [hc, draft]
  · rw [hc, draft]
  · exact hw
  · intro o ho
    exact Ballot.eq_of_tally hsize ho hw
  · intro o
    rw [hc]
    exact votes.get?_distribution o
  · rw [hc]
    exact votes.sum_distribution.trans hsize
  · exact hmajority
  · rw [agree_iff hcast hw, hc]
    rcases split_cases hsize hw with ⟨hthree, hagainst⟩ | ⟨htwo, d, hagainst⟩
    · simp [draft, hthree, hagainst, Consensus.archonsPerSession]
    · simp [draft, htwo, hagainst, Consensus.archonsPerSession]
  · intro hne
    rw [agree_iff hcast hw] at hne
    obtain ⟨-, hagainst⟩ | ⟨htwo, d, hagainst⟩ := split_cases hsize hw
    · exact absurd hagainst hne
    · refine ⟨?_, d, ?_, fun a => ?_⟩
      · rw [hc]
        simp [draft, htwo, Consensus.archonsPerSession]
      · rw [hc]
        simp [draft, htwo, hagainst, Consensus.archonsPerSession]
      · rw [hmajority, ← hcast a, ← Ballot.mem_votersAgainst, hagainst, List.mem_singleton]

end

/-! ### The answer -/

section

variable {r : Resolver} {s : Session} {votes : Ballot} {now : Instant}

theorem resolve_of_not_inOrder (h : ¬r.InOrder s votes) :
    r.resolve s votes now = .error (.voteValidation s.id (r.check s votes)) := by
  rw [← check_isValid_iff_inOrder, Bool.not_eq_true] at h
  simp [resolve, h]

theorem resolve_of_inOrder (h : r.InOrder s votes) :
    r.resolve s votes now = match votes.winner? with
      | none => .error (.noConsensus s.id s.petition votes.size Consensus.threshold)
      | some winner => Consensus.ofDraft (draft s votes winner now) := by
  rw [← check_isValid_iff_inOrder] at h
  show (if (!(r.check s votes).isValid) = true then _ else _) = _
  rw [h]
  rfl

theorem InOrder.size (h : r.InOrder s votes) (hs : s.Valid) :
    votes.size = Consensus.archonsPerSession := by
  rw [← hs.archons_length]
  exact SortedMap.size_eq_length hs.archons_nodup h.1

/-- Votes that are in order either have a winner, and settle the matter, or are all different. -/
theorem InOrder.resolve_cases (h : r.InOrder s votes) (hs : s.Valid) (now : Instant) :
    (∃ winner c, Consensus.threshold ≤ votes.tally winner ∧ r.resolve s votes now = .ok c ∧
        c.Settles s votes now winner) ∨
      (∀ o, votes.tally o < Consensus.threshold) ∧
        r.resolve s votes now = .error (.noConsensus s.id s.petition
          Consensus.archonsPerSession Consensus.threshold) := by
  rw [resolve_of_inOrder h, ← h.size hs]
  cases hw : votes.winner? with
  | none => exact .inr ⟨Ballot.winner?_eq_none_iff.1 hw, rfl⟩
  | some winner =>
      have hsupport : Consensus.threshold ≤ votes.tally winner := Ballot.threshold_le_of_winner? hw
      have hflaw := Consensus.Draft.flaw?_eq_none_iff.2
        (consistent_draft (s := s) (h.size hs) hsupport now)
      refine .inl ⟨winner, ⟨_, hflaw⟩, hsupport, Consensus.ofDraft_eq_ok_iff.2 rfl, ?_⟩
      exact settles_of_draft hs h.1 hsupport rfl

end

end Resolver

/-! ### The faults of votes -/

theorem SortedSet.pairwise_name_lt (s : SortedSet Archon) :
    s.toList.Pairwise fun a b => a.name < b.name :=
  s.sorted.imp fun h => compareOfLessAndEq_eq_lt.1 h

namespace VoteCheck

/-- The check lists the archons whose votes are at fault or missing, by their names, and tells of
the first kind of fault that there is. -/
structure Lists (c : VoteCheck) (r : Resolver) (s : Session) (votes : Ballot) : Prop where
  unauthorized : ∀ a, a ∈ c.unauthorized.toList ↔ votes.contains a = true ∧ a ∉ s.archons
  missing : ∀ a, a ∈ c.missing.toList ↔ a ∈ s.archons ∧ votes.contains a = false
  invalid : ∀ a, a ∈ c.invalid.toList ↔
    ∃ o, votes.get? a = some o ∧ r.permitted.contains o = false
  ascending : ∀ list ∈ [c.unauthorized.toList, c.missing.toList, c.invalid.toList],
    list.Pairwise fun a b => a.name < b.name
  unauthorizedVoter : c.status = .unauthorizedVoter ↔ c.unauthorized.toList ≠ []
  missingVotes : c.status = .missingVotes ↔ c.unauthorized.toList = [] ∧ c.missing.toList ≠ []
  invalidOutcome : c.status = .invalidOutcome ↔
    c.unauthorized.toList = [] ∧ c.missing.toList = [] ∧ c.invalid.toList ≠ []

end VoteCheck

theorem Resolver.check_lists (r : Resolver) (s : Session) (votes : Ballot) :
    (r.check s votes).Lists r s votes := by
  constructor
  · intro a
    simp [check, SortedSet.mem_filter, SortedSet.mem_ofKeys, Session.isAssigned]
  · intro a
    simp [check, SortedSet.mem_filter, SortedSet.mem_ofList]
  · intro a
    simp only [check, SortedSet.mem_filter, SortedSet.mem_ofKeys, SortedMap.contains_iff]
    cases votes.get? a <;> simp
  · intro list hlist
    simp only [List.mem_cons, List.not_mem_nil, or_false] at hlist
    rcases hlist with rfl | rfl | rfl <;> exact SortedSet.pairwise_name_lt _
  all_goals
    obtain ⟨⟨unauthorized, _⟩, ⟨missing, _⟩, ⟨invalid, _⟩⟩ := r.check s votes
    cases unauthorized <;> cases missing <;> cases invalid <;>
      simp [VoteCheck.status, SortedSet.isEmpty]

namespace Resolver

/-- There is a consensus just if exactly the archons of the session have voted, for permitted
outcomes, and one outcome has two votes, and the consensus says what the votes come to. If the votes
are not in order the error lists their faults; if they are, an error means that they all differ.
What is drafted from the votes is never flawed. -/
theorem resolve_two_of_three (r : Resolver) {s : Session} (hs : s.Arises) (votes : Ballot)
    (now : Instant) :
    ((∃ c, r.resolve s votes now = .ok c) ↔
        r.InOrder s votes ∧ ∃ o, 2 ≤ votes.tally o) ∧
      (∀ c, r.resolve s votes now = .ok c → ∃ winner, c.Settles s votes now winner) ∧
      (r.resolve s votes now = .error (.voteValidation s.id (r.check s votes)) ↔
        ¬r.InOrder s votes) ∧
      (r.check s votes).Lists r s votes ∧
      (r.InOrder s votes → (r.resolve s votes now = .error (.noConsensus s.id s.petition 3 2) ↔
        (s.archons.map votes.get?).Nodup)) ∧
      ∀ e, r.resolve s votes now = .error e →
        e = .voteValidation s.id (r.check s votes) ∨ e = .noConsensus s.id s.petition 3 2 := by
  by_cases h : r.InOrder s votes
  · have hvalid : s.Valid := hs.valid
    have hdiffer : (s.archons.map votes.get?).Nodup ↔ ∀ o, votes.tally o < 2 :=
      h.1.nodup_iff hvalid.archons_nodup
    rcases h.resolve_cases hvalid now with ⟨winner, c, hw, hc, hsettles⟩ | ⟨hno, he⟩
    · rw [hc]
      refine ⟨?_, ?_, ?_, r.check_lists s votes, fun _ => ?_, ?_⟩
      · exact ⟨fun _ => ⟨h, winner, hw⟩, fun _ => ⟨c, rfl⟩⟩
      · rintro c' hc'
        cases hc'
        exact ⟨winner, hsettles⟩
      · simp [h]
      · rw [hdiffer]
        simpa using ⟨winner, hw⟩
      · simp
    · rw [he]
      refine ⟨?_, ?_, ?_, r.check_lists s votes, fun _ => ?_, ?_⟩
      · constructor
        · rintro ⟨c, hc⟩
          cases hc
        · rintro ⟨-, o, ho⟩
          exact absurd ho (Nat.not_le.2 (hno o))
      · simp
      · simp [h]
      · simpa [hdiffer, Consensus.archonsPerSession, Consensus.threshold] using hno
      · rintro e he
        cases he
        exact .inr rfl
  · rw [resolve_of_not_inOrder h]
    refine ⟨?_, ?_, ?_, r.check_lists s votes, fun hin => absurd hin h, ?_⟩
    · simp [h]
    · simp
    · simp [h]
    · simp [eq_comm]

/-- Two archons agree, and the third stands apart. -/
theorem resolve_two_of_three_split :
    let s := Session.sample 1 2 .refer .escalate .refer
    s.Arises ∧ ∃ c, default.resolve s s.voteMap .epoch = .ok c ∧
      c.Settles s s.voteMap .epoch .refer ∧ c.status = .achieved := by
  intro s
  have hs : s.Arises := Session.sample_arises 1 2 .refer .escalate .refer
  obtain ⟨hok, hsettles, -⟩ := resolve_two_of_three default hs s.voteMap .epoch
  have hsupport : 2 ≤ Ballot.tally s.voteMap .refer := by decide +kernel
  obtain ⟨c, hc⟩ := hok.2 ⟨check_isValid_iff_inOrder.1 (by decide +kernel), .refer, hsupport⟩
  obtain ⟨winner, hwinner⟩ := hsettles c hc
  obtain rfl := hwinner.unique .refer hsupport
  exact ⟨hs, c, hc, hwinner, (hwinner.achieved (by decide +kernel)).1⟩

end Resolver

end Curia
