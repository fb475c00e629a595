import Mathlib.Logic.ExistsUnique
import Curia.Proofs.Council.Recorder

/-!
What a dissent is recorded as. The dissenter's vote is the one that the session has, or else the only
outcome that the numbers of votes leave open. Where there is no such vote, or it is for the winner,
the record is refused and nothing is written; a vote is never guessed.
-/

namespace Curia

/-- Going by the numbers of votes, the one who dissents can have voted for the outcome. -/
def Consensus.LeavesOpen (c : Consensus) (winner o : Outcome) : Prop :=
  o ≠ winner ∧ c.distribution.get? o = some 1

instance (c : Consensus) (winner o : Outcome) : Decidable (c.LeavesOpen winner o) :=
  inferInstanceAs (Decidable (_ ∧ _))

/-- Votes that are split have a winner and a dissenter. -/
theorem Consensus.exists_of_achieved {c : Consensus} (h : c.status = .achieved) :
    ∃ a winner, c.dissenter = some a ∧ c.winner = some winner := by
  obtain ⟨a, ha⟩ := c.exists_dissenter_iff.2 h
  have hresolved : c.status.isResolved = true := by
    rw [h]
    rfl
  obtain ⟨winner, hwinner⟩ := c.exists_winner_iff.2 hresolved
  exact ⟨a, winner, ha, hwinner⟩

/-- What the dissenter voted for, as far as it can be told. -/
inductive Session.Attributes (s : Session) (c : Consensus) (a : Archon) (winner : Outcome) :
    Outcome → Prop
  | voted {o : Outcome} (h : s.voteOf? a = some o) : Attributes s c a winner o
  | inferred {o : Outcome} (hnone : s.voteOf? a = none)
      (h : ∀ p, c.LeavesOpen winner p ↔ p = o) : Attributes s c a winner o

namespace Recorder

/-! ### The outcome that is left open -/

section

variable {c : Consensus} {winner o : Outcome}

theorem mem_candidates : o ∈ candidates c winner ↔ c.LeavesOpen winner o := by
  rw [candidates, SortedMap.mem_map_fst_filter, Consensus.LeavesOpen]
  simp [and_comm]

/-- The candidates are listed in the order of outcomes. -/
theorem candidates_pairwise (c : Consensus) (winner : Outcome) :
    (candidates c winner).Pairwise fun o p => o.rank < p.rank :=
  (c.distribution.pairwise_map_fst_filter _).imp fun h => Nat.compare_eq_lt.1 h

theorem candidates_eq_singleton_iff :
    candidates c winner = [o] ↔ ∀ p, c.LeavesOpen winner p ↔ p = o := by
  constructor
  · intro h p
    rw [← mem_candidates, h, List.mem_singleton]
  · intro h
    have hnodup : (candidates c winner).Nodup :=
      nodup_of_pairwise_compare (c.distribution.pairwise_map_fst_filter _)
    refine List.perm_singleton.1 ((List.perm_ext_iff_of_nodup hnodup (by simp)).2 fun p => ?_)
    rw [mem_candidates, h, List.mem_singleton]

end

section

variable {s : Session} {c : Consensus} {a : Archon} {winner : Outcome}

theorem dissentOutcome_eq_ok_iff {o : Outcome} :
    dissentOutcome s c a winner = .ok o ↔ s.Attributes c a winner o := by
  rw [dissentOutcome]
  constructor
  · intro h
    split at h
    · next o' hvote =>
      cases h
      exact .voted hvote
    · next hnone =>
      split at h
      · next only hcandidates =>
        cases h
        exact .inferred hnone (candidates_eq_singleton_iff.1 hcandidates)
      · cases h
  · rintro (hvote | ⟨hnone, hleft⟩)
    · rw [hvote]
    · rw [hnone, candidates_eq_singleton_iff.2 hleft]

/-- Either it can be told what the dissenter voted for, or there is no vote and not just one outcome
is left open. -/
theorem exists_attributes_or (s : Session) (c : Consensus) (a : Archon) (winner : Outcome) :
    (∃ o, s.Attributes c a winner o) ∨
      s.voteOf? a = none ∧ ¬∃! o, c.LeavesOpen winner o := by
  cases hvote : s.voteOf? a with
  | some o => exact .inl ⟨o, .voted hvote⟩
  | none =>
      by_cases h : ∃! o, c.LeavesOpen winner o
      · obtain ⟨o, ho, hunique⟩ := h
        exact .inl ⟨o, .inferred hvote fun p => ⟨hunique p, fun hp => hp ▸ ho⟩⟩
      · exact .inr ⟨rfl, h⟩

theorem dissentOutcome_eq_error (hnone : s.voteOf? a = none)
    (h : ¬∃! o, c.LeavesOpen winner o) :
    dissentOutcome s c a winner = .error (.ambiguousDissent s.id a (candidates c winner)) := by
  rw [dissentOutcome, hnone]
  simp only
  split
  · next only hcandidates =>
    have hleft := candidates_eq_singleton_iff.1 hcandidates
    exact absurd ⟨only, (hleft only).2 rfl, fun p hp => (hleft p).1 hp⟩ h
  · rfl

end

/-! ### Recording for the first time -/

/-- Nothing is stored or held for the session, and neither the next append nor the next save will be
refused. -/
structure Clear (r : Recorder) (l : Ledger) (session : SessionId) : Prop where
  unstored : r.store.ofSession? session = none
  unheld : r.held.get? session = none
  ledger : l.refuses (l.attempts + 1) = false
  store : r.store.refuses (r.store.attempts + 1) = false

/-- The dissent has been stored and is told of on the ledger, and that is all. -/
structure Gains (r : Recorder) (l : Ledger) (d : Dissent) (eventId : EventId) (r' : Recorder)
    (l' : Ledger) : Prop where
  stored : ∀ t, r'.store.ofSession? t = if d.session = t then some d else r.store.ofSession? t
  held : r'.held = r.held
  events : l'.events = l.events ++ [d.event eventId]

section

variable {r : Recorder} {l : Ledger} {s : Session} {c : Consensus} {rationale : String}
  {now : Instant} {id : DissentId} {eventId : EventId}

theorem recordSplit_of_record (hsession : c.session = s.id) (hstatus : c.status = .achieved) :
    r.record l s c rationale now id eventId = r.recordSplit l s c rationale now id eventId := by
  rw [record, if_neg (not_not_intro hsession), hstatus]

theorem record_of_dissentOf_eq_error (hsession : c.session = s.id) (hstatus : c.status = .achieved)
    (hclear : r.Clear l s.id) {e : CouncilError}
    (he : dissentOf s c rationale now id = .error e) :
    r.record l s c rationale now id eventId = (.error e, r, l) := by
  rw [recordSplit_of_record hsession hstatus, recordSplit, hclear.unstored]
  simp only [witness, hclear.unheld, he]

theorem record_of_dissentOf_eq_ok (hsession : c.session = s.id) (hstatus : c.status = .achieved)
    (hclear : r.Clear l s.id) {d : Dissent} (hd : dissentOf s c rationale now id = .ok d) :
    ∃ r' l', r.record l s c rationale now id eventId = (.ok (some d), r', l') ∧
      r.Gains l d eventId r' l' := by
  obtain ⟨-, -, -, -, hown, -⟩ := dissentOf_eq_ok hd
  obtain ⟨l', happend, hevents⟩ := Ledger.append_of_not_refused hclear.ledger (d.event eventId)
  have hunstored : r.store.ofSession? d.session = none := hown ▸ hclear.unstored
  obtain ⟨hrefused, -⟩ | ⟨store', hsave, -, hstored⟩ := save_cases hunstored
  · rw [hclear.store] at hrefused
    cases hrefused
  · rw [recordSplit_of_record hsession hstatus, recordSplit, hclear.unstored]
    simp only [witness, hclear.unheld, hd, happend, hsave]
    refine ⟨_, _, rfl, hstored, ?_, hevents⟩
    -- the record is held only until it is stored
    refine SortedMap.ext_get? fun t => ?_
    rw [SortedMap.get?_erase, SortedMap.get?_insert]
    split
    · next ht => rw [← ht, hclear.unheld]
    · rfl

end

section

variable {r : Recorder} {l : Ledger} {s : Session} {c : Consensus} {a : Archon}
  {winner o : Outcome} (ha : c.dissenter = some a) (hwinner : c.winner = some winner)
  (hsession : c.session = s.id) (hstatus : c.status = .achieved) (hclear : r.Clear l s.id)
  (rationale : String) (now : Instant) (id : DissentId) (eventId : EventId)

include ha hwinner

theorem dissentOf_eq : dissentOf s c rationale now id =
    (dissentOutcome s c a winner).bind fun o =>
      Dissent.new id s.id s.petition a o winner rationale now := by
  rw [dissentOf, hwinner, ha]
  rfl

include hsession hstatus hclear

theorem record_of_attributes (h : s.Attributes c a winner o) (hne : o ≠ winner) :
    ∃ d r' l', r.record l s c rationale now id eventId = (.ok (some d), r', l') ∧
      Dissent.new id s.id s.petition a o winner rationale now = .ok d ∧
      r.Gains l d eventId r' l' := by
  obtain ⟨d, hnew⟩ : ∃ d, Dissent.new id s.id s.petition a o winner rationale now = .ok d :=
    ⟨_, by rw [Dissent.new, if_neg hne]⟩
  have hd : dissentOf s c rationale now id = .ok d := by
    rw [dissentOf_eq ha hwinner, dissentOutcome_eq_ok_iff.2 h]
    exact hnew
  obtain ⟨r', l', hanswer, hgains⟩ := record_of_dissentOf_eq_ok hsession hstatus hclear hd
  exact ⟨d, r', l', hanswer, hnew, hgains⟩

theorem record_of_attributes_winner (h : s.Attributes c a winner winner) :
    r.record l s c rationale now id eventId =
      (.error (.dissentWithMajority s.id a winner), r, l) := by
  have hd := dissentOf_eq (s := s) ha hwinner rationale now id
  rw [dissentOutcome_eq_ok_iff.2 h, Except.bind, Dissent.new, if_pos rfl] at hd
  exact record_of_dissentOf_eq_error hsession hstatus hclear hd

theorem record_of_ambiguous (hnone : s.voteOf? a = none) (h : ¬∃! o, c.LeavesOpen winner o) :
    r.record l s c rationale now id eventId =
      (.error (.ambiguousDissent s.id a (candidates c winner)), r, l) := by
  have hd := dissentOf_eq (s := s) ha hwinner rationale now id
  rw [dissentOutcome_eq_error hnone h, Except.bind] at hd
  exact record_of_dissentOf_eq_error hsession hstatus hclear hd

/-- Nothing else is recorded than what the dissenter voted for. -/
theorem attributes_of_record {x : Option Dissent} {r' : Recorder} {l' : Ledger}
    (hanswer : r.record l s c rationale now id eventId = (.ok x, r', l')) :
    ∃ o d, x = some d ∧ s.Attributes c a winner o ∧ o ≠ winner ∧
      Dissent.new id s.id s.petition a o winner rationale now = .ok d ∧
      r.Gains l d eventId r' l' := by
  obtain ⟨o, ho⟩ | ⟨hnone, h⟩ := exists_attributes_or s c a winner
  · by_cases hne : o = winner
    · subst hne
      rw [record_of_attributes_winner ha hwinner hsession hstatus hclear rationale now id eventId
        ho] at hanswer
      cases hanswer
    · obtain ⟨d, r₁, l₁, hrecord, hnew, hgains⟩ :=
        record_of_attributes ha hwinner hsession hstatus hclear rationale now id eventId ho hne
      cases hrecord.symm.trans hanswer
      exact ⟨o, d, rfl, ho, hne, hnew, hgains⟩
  · rw [record_of_ambiguous ha hwinner hsession hstatus hclear rationale now id eventId hnone
      h] at hanswer
    cases hanswer

end

/-- Of a split session that has no record yet a dissent is recorded just if it can be told what the
dissenter voted for, and that has not won; the record says so. A vote for the winner is refused, and
so is a dissenter without a vote if the numbers of votes do not leave just one outcome open; then
those that they do leave open are listed. What is refused changes nothing. -/
theorem attributed_or_refused {r : Recorder} {l : Ledger} {s : Session} {c : Consensus}
    (hsession : c.session = s.id) (hstatus : c.status = .achieved) (hclear : r.Clear l s.id)
    (rationale : String) (now : Instant) (id : DissentId) (eventId : EventId) :
    let answer := r.record l s c rationale now id eventId
    ∃ a winner, c.dissenter = some a ∧ c.winner = some winner ∧
      ((∃ x r' l', answer = (.ok x, r', l')) ↔ ∃ o, s.Attributes c a winner o ∧ o ≠ winner) ∧
      (∀ x r' l', answer = (.ok x, r', l') → ∃ o d, x = some d ∧
        s.Attributes c a winner o ∧ o ≠ winner ∧
        d = { id, session := s.id, petition := s.petition, archon := a, outcome := o
              majority := winner, rationale, rationaleHash := Digest.ofText rationale
              recordedAt := now } ∧
        r.Gains l d eventId r' l') ∧
      (s.voteOf? a = none → (¬∃! o, c.LeavesOpen winner o) →
        ∃ os, answer = (.error (.ambiguousDissent s.id a os), r, l) ∧
          (∀ o, o ∈ os ↔ c.LeavesOpen winner o) ∧ os.Pairwise fun o p => o.rank < p.rank) ∧
      (s.voteOf? a = some winner →
        answer = (.error (.dissentWithMajority s.id a winner), r, l)) := by
  intro answer
  obtain ⟨a, winner, ha, hwinner⟩ := Consensus.exists_of_achieved hstatus
  have hrecorded {x : Option Dissent} {r' : Recorder} {l' : Ledger}
      (hanswer : answer = (.ok x, r', l')) :=
    attributes_of_record ha hwinner hsession hstatus hclear rationale now id eventId hanswer
  have hattributes {o : Outcome} :=
    record_of_attributes (o := o) ha hwinner hsession hstatus hclear rationale now id eventId
  have hmajority :=
    record_of_attributes_winner ha hwinner hsession hstatus hclear rationale now id eventId
  have hambiguous := record_of_ambiguous ha hwinner hsession hstatus hclear rationale now id eventId
  refine ⟨a, winner, ha, hwinner, ⟨?_, ?_⟩, ?_, ?_, fun h => hmajority (.voted h)⟩
  · rintro ⟨x, r', l', hanswer⟩
    obtain ⟨o, d, -, ho, hne, -⟩ := hrecorded hanswer
    exact ⟨o, ho, hne⟩
  · rintro ⟨o, ho, hne⟩
    obtain ⟨d, r', l', hanswer, -⟩ := hattributes ho hne
    exact ⟨some d, r', l', hanswer⟩
  · intro x r' l' hanswer
    obtain ⟨o, d, hx, ho, hne, hnew, hgains⟩ := hrecorded hanswer
    exact ⟨o, d, hx, ho, hne, (Dissent.new_eq_ok hnew).2, hgains⟩
  · intro hnone h
    exact ⟨_, hambiguous hnone h, fun o => mem_candidates, candidates_pairwise c winner⟩

/-- Nobody's vote is known. The one for another outcome must be the dissenter's; if there is none, or
there are two, then nothing is recorded. -/
theorem attributed_or_refused_inferred :
    let s := Session.fresh ⟨.ofNat 1⟩ ⟨.ofNat 2⟩ [⟨"a"⟩, ⟨"b"⟩, ⟨"c"⟩]
    let draft (counts : List (Outcome × Nat)) : Consensus.Draft :=
      { session := s.id, petition := s.petition, status := .achieved, winner := some .refer
        distribution := .ofList counts, majority := .ofList [⟨"a"⟩, ⟨"b"⟩]
        dissenter := some ⟨"c"⟩, resolvedAt := .epoch }
    let one : Consensus := ⟨draft [(.refer, 2), (.escalate, 1)], by decide +kernel⟩
    let two : Consensus :=
      ⟨draft [(.refer, 2), (.escalate, 1), (.acknowledge, 1)], by decide +kernel⟩
    let answer (c : Consensus) := empty.record .empty s c "no" .epoch ⟨.ofNat 3⟩ ⟨.ofNat 4⟩
    (∃ d r' l', answer one = (.ok (some d), r', l') ∧ d.archon = ⟨"c"⟩ ∧ d.outcome = .escalate ∧
        r'.store.ofSession? s.id = some d) ∧
      ∃ os, answer two = (.error (.ambiguousDissent s.id ⟨"c"⟩ os), empty, .empty) ∧
        .acknowledge ∈ os ∧ .escalate ∈ os := by
  intro s draft one two answer
  have hclear : empty.Clear .empty s.id := ⟨rfl, rfl, rfl, rfl⟩
  have hone : ∀ p, one.LeavesOpen .refer p ↔ p = .escalate := by
    intro p
    cases p <;> decide +kernel
  have htwo : two.LeavesOpen .refer .acknowledge ∧ two.LeavesOpen .refer .escalate := by
    decide +kernel
  have hmany : ¬∃! o, two.LeavesOpen .refer o := fun h => by
    cases h.unique htwo.1 htwo.2
  constructor
  · obtain ⟨a, winner, ha, hwinner, hrecorded, hrecord, -⟩ :=
      attributed_or_refused (s := s) (c := one) rfl rfl hclear "no" .epoch ⟨.ofNat 3⟩ ⟨.ofNat 4⟩
    obtain rfl : ⟨"c"⟩ = a := Option.some.inj ha
    obtain rfl : .refer = winner := Option.some.inj hwinner
    obtain ⟨x, r', l', hanswer⟩ :=
      hrecorded.2 ⟨.escalate, .inferred rfl hone, by decide⟩
    obtain ⟨o, d, rfl, hattributed, -, rfl, hgains⟩ := hrecord x r' l' hanswer
    obtain rfl : o = .escalate := by
      cases hattributed with
      | voted h => cases h
      | inferred hnone h => exact (hone o).1 ((h o).2 rfl)
    refine ⟨_, r', l', hanswer, rfl, rfl, ?_⟩
    rw [hgains.stored, if_pos rfl]
  · obtain ⟨a, winner, ha, hwinner, -, -, hambiguous, -⟩ :=
      attributed_or_refused (s := s) (c := two) rfl rfl hclear "no" .epoch ⟨.ofNat 3⟩ ⟨.ofNat 4⟩
    obtain rfl : ⟨"c"⟩ = a := Option.some.inj ha
    obtain rfl : .refer = winner := Option.some.inj hwinner
    obtain ⟨os, hanswer, hos, -⟩ := hambiguous rfl hmany
    exact ⟨os, hanswer, (hos _).2 htwo.1, (hos _).2 htwo.2⟩

end Recorder

end Curia
