import Curia.Council.Consensus

/-!
Which drafts become a consensus: those whose parts agree with each other. A draft whose parts do not
is refused, and the flaw that the error tells of is there. So a consensus has a winner just if the
matter is resolved, and a dissenter just if two archons have carried it against the third.
-/

namespace Curia.Consensus

namespace Draft

/-- The winner that is named has `n` votes, which are those of the majority. -/
structure WonBy (d : Draft) (winner : Outcome) (n : Nat) : Prop where
  winner_eq : d.winner = some winner
  majority_size : d.majority.size = n
  get?_distribution : d.distribution.get? winner = some n

/-- The parts of a draft agree with each other. -/
inductive Consistent (d : Draft) : Prop
  | unanimous {winner : Outcome} (hstatus : d.status = .unanimous) (hwon : d.WonBy winner 3)
      (hdissenter : d.dissenter = none)
  | achieved {winner : Outcome} {a : Archon} (hstatus : d.status = .achieved)
      (hwon : d.WonBy winner 2) (hdissenter : d.dissenter = some a) (ha : a ∉ d.majority.toList)
  | unresolved (hstatus : d.status = .notReached ∨ d.status = .invalid) (hwinner : d.winner = none)
      (hdissenter : d.dissenter = none)

end Draft

/-- What is wrong is so of the draft. -/
def Flaw.Of (d : Draft) : Flaw → Prop
  | .noWinner => d.status.isResolved = true ∧ d.winner = none
  | .majoritySize => d.status.isResolved = true ∧ d.majority.size ≠ Draft.majoritySize d.status
  | .majorityCount => d.status.isResolved = true ∧
    ∃ winner, d.winner = some winner ∧ d.distribution.get? winner ≠ some d.majority.size
  | .unanimousDissent => d.status = .unanimous ∧ ∃ a, d.dissenter = some a
  | .splitWithoutDissent => d.status = .achieved ∧ d.dissenter = none
  | .dissenterInMajority => d.status = .achieved ∧ ∃ a ∈ d.majority.toList, d.dissenter = some a
  | .unresolvedWinner => d.status.isResolved = false ∧ (d.winner ≠ none ∨ d.dissenter ≠ none)

namespace Draft

variable {d : Draft} {winner : Outcome}

theorem Consistent.not_of (h : d.Consistent) (flaw : Flaw) : ¬flaw.Of d := by
  cases h with
  | unanimous hstatus hwon hdissenter =>
      have hcount := hwon.get?_distribution
      rw [← hwon.majority_size] at hcount
      cases flaw <;> simp [Flaw.Of, hstatus, Status.isResolved, majoritySize, archonsPerSession,
        hwon.winner_eq, hwon.majority_size, hcount, hdissenter]
  | achieved hstatus hwon hdissenter ha =>
      have hcount := hwon.get?_distribution
      rw [← hwon.majority_size] at hcount
      cases flaw <;> simp [Flaw.Of, hstatus, Status.isResolved, majoritySize, threshold,
        hwon.winner_eq, hwon.majority_size, hcount, hdissenter, ha]
  | unresolved hstatus hwinner hdissenter =>
      rcases hstatus with hstatus | hstatus <;> cases flaw <;>
        simp [Flaw.Of, hstatus, Status.isResolved, hwinner, hdissenter]

/-- What a check of a draft comes to: it finds a flaw that is there, or there is none. -/
def Examined (d : Draft) : Option Flaw → Prop
  | none => d.Consistent
  | some flaw => flaw.Of d

theorem examined_winnerFlaw? (hresolved : d.status.isResolved = true)
    (hwinner : d.winner = some winner) : d.Examined (d.winnerFlaw? winner) := by
  rw [winnerFlaw?]
  split
  · next hsize => exact ⟨hresolved, hsize⟩
  · next hsize =>
    rw [ne_eq, Decidable.not_not] at hsize
    split
    · next hcount => exact ⟨hresolved, winner, hwinner, hcount⟩
    · next hcount =>
      rw [ne_eq, Decidable.not_not, hsize] at hcount
      have hwon : d.WonBy winner (majoritySize d.status) := ⟨hwinner, hsize, hcount⟩
      cases hstatus : d.status with
      | unanimous =>
          rw [hstatus] at hwon
          cases hdissenter : d.dissenter with
          | none => exact .unanimous hstatus hwon hdissenter
          | some a => exact ⟨hstatus, a, hdissenter⟩
      | achieved =>
          rw [hstatus] at hwon
          cases hdissenter : d.dissenter with
          | none => exact ⟨hstatus, hdissenter⟩
          | some a =>
              simp only
              split
              · next ha => exact ⟨hstatus, a, SortedSet.contains_iff.1 ha, hdissenter⟩
              · next ha => exact .achieved hstatus hwon hdissenter (mt SortedSet.contains_iff.2 ha)
      | notReached => rw [hstatus] at hresolved; cases hresolved
      | invalid => rw [hstatus] at hresolved; cases hresolved

theorem examined_winner? (hresolved : d.status.isResolved = true) :
    d.Examined (match d.winner with
      | none => some .noWinner
      | some winner => d.winnerFlaw? winner) := by
  cases hwinner : d.winner with
  | none => exact ⟨hresolved, hwinner⟩
  | some winner => exact examined_winnerFlaw? hresolved hwinner

theorem examined_unresolved (hstatus : d.status = .notReached ∨ d.status = .invalid) :
    d.Examined (if d.winner.isSome ∨ d.dissenter.isSome then some .unresolvedWinner else none) := by
  split
  · next h =>
    have hunresolved : d.status.isResolved = false := by
      rcases hstatus with hstatus | hstatus <;> rw [hstatus] <;> rfl
    rw [Option.isSome_iff_ne_none, Option.isSome_iff_ne_none] at h
    exact ⟨hunresolved, h⟩
  · next h =>
    rw [not_or, Option.not_isSome_iff_eq_none, Option.not_isSome_iff_eq_none] at h
    exact .unresolved hstatus h.1 h.2

theorem examined_flaw? (d : Draft) : d.Examined d.flaw? := by
  rw [flaw?]
  split
  · next hstatus => exact examined_winner? (by rw [hstatus]; rfl)
  · next hstatus => exact examined_winner? (by rw [hstatus]; rfl)
  · next hstatus => exact examined_unresolved (.inl hstatus)
  · next hstatus => exact examined_unresolved (.inr hstatus)

theorem flaw?_eq_none_iff : d.flaw? = none ↔ d.Consistent := by
  have hexamined := d.examined_flaw?
  constructor
  · intro h
    rwa [h] at hexamined
  · intro h
    cases hflaw : d.flaw? with
    | none => rfl
    | some flaw =>
        rw [hflaw] at hexamined
        exact absurd hexamined (h.not_of flaw)

instance : Decidable d.Consistent := decidable_of_iff (d.flaw? = none) flaw?_eq_none_iff

end Draft

/-! ### What is made of a draft -/

theorem ofDraft_eq_ok_iff {d : Draft} {c : Consensus} : ofDraft d = .ok c ↔ c.toDraft = d := by
  constructor
  · intro h
    rw [ofDraft] at h
    split at h
    · cases h
      rfl
    · cases h
  · rintro rfl
    rw [ofDraft]
    split
    · rfl
    · next flaw hflaw =>
      rw [c.flawless] at hflaw
      cases hflaw

theorem ofDraft_eq_error_iff {d : Draft} {e : CouncilError} : ofDraft d = .error e ↔
    ∃ flaw, d.flaw? = some flaw ∧ e = .invalidConsensus d.session flaw := by
  rw [ofDraft]
  split
  · next hflaw => simp [hflaw]
  · next flaw hflaw => simp [hflaw, eq_comm]

/-- The parts of a consensus agree with each other. -/
theorem consistent (c : Consensus) : c.Consistent := Draft.flaw?_eq_none_iff.1 c.flawless

theorem exists_winner_iff (c : Consensus) :
    (∃ winner, c.winner = some winner) ↔ c.status.isResolved = true := by
  cases c.consistent with
  | unanimous hstatus hwon => simp [hstatus, hwon.winner_eq, Status.isResolved]
  | achieved hstatus hwon => simp [hstatus, hwon.winner_eq, Status.isResolved]
  | unresolved hstatus hwinner =>
      rcases hstatus with hstatus | hstatus <;> simp [hstatus, hwinner, Status.isResolved]

theorem exists_dissenter_iff (c : Consensus) :
    (∃ a, c.dissenter = some a) ↔ c.status = .achieved := by
  cases c.consistent with
  | unanimous hstatus _ hdissenter => simp [hstatus, hdissenter]
  | achieved hstatus _ hdissenter => simp [hstatus, hdissenter]
  | unresolved hstatus _ hdissenter =>
      rcases hstatus with hstatus | hstatus <;> simp [hstatus, hdissenter]

/-- A draft becomes a consensus just if its parts agree with each other, and then nothing but what it
says; otherwise it is refused for something that is wrong with it. Every consensus has a winner
just if it is resolved, and a dissenter just if it was reached against one archon. -/
theorem accepted_iff_consistent :
    (∀ d : Draft, (∃ c, ofDraft d = .ok c) ↔ d.Consistent) ∧
      (∀ (d : Draft) (c : Consensus), ofDraft d = .ok c ↔ c.toDraft = d) ∧
      (∀ d : Draft, ¬d.Consistent ↔
        ∃ flaw, flaw.Of d ∧ ofDraft d = .error (.invalidConsensus d.session flaw)) ∧
      ∀ c : Consensus, ((∃ winner, c.winner = some winner) ↔ c.status.isResolved = true) ∧
        ((∃ a, c.dissenter = some a) ↔ c.status = .achieved) := by
  refine ⟨fun d => ?_, fun d c => ofDraft_eq_ok_iff, fun d => ?_,
    fun c => ⟨c.exists_winner_iff, c.exists_dissenter_iff⟩⟩
  · constructor
    · rintro ⟨c, hc⟩
      rw [← ofDraft_eq_ok_iff.1 hc]
      exact c.consistent
    · intro h
      exact ⟨⟨d, Draft.flaw?_eq_none_iff.2 h⟩, ofDraft_eq_ok_iff.2 rfl⟩
  · constructor
    · intro h
      obtain ⟨flaw, hflaw⟩ : ∃ flaw, d.flaw? = some flaw :=
        Option.ne_none_iff_exists'.1 (mt Draft.flaw?_eq_none_iff.1 h)
      have hexamined := d.examined_flaw?
      rw [hflaw] at hexamined
      exact ⟨flaw, hexamined, ofDraft_eq_error_iff.2 ⟨flaw, hflaw, rfl⟩⟩
    · rintro ⟨flaw, hof, -⟩ h
      exact h.not_of flaw hof

/-- The archon who dissents cannot be one of the majority. -/
example :
    let draft (dissenter : Archon) : Draft :=
      { session := ⟨.ofNat 1⟩, petition := ⟨.ofNat 2⟩, status := .achieved, winner := some .refer
        distribution := .ofList [(.refer, 2), (.escalate, 1)], majority := .ofList [⟨"a"⟩, ⟨"b"⟩]
        dissenter := some dissenter, resolvedAt := .epoch }
    (draft ⟨"c"⟩).Consistent ∧ ¬(draft ⟨"a"⟩).Consistent := by
  decide +kernel

end Curia.Consensus
