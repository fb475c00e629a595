import Mathlib.Data.List.Perm.Subperm
import Mathlib.Logic.Relation
import Curia.Council.Session

/-!
How a session develops. Its identity and its archons stay what they were when it was opened, and so
does every vote once it is cast; nobody else votes. Once all three have voted the votes are
settled.
-/

namespace Curia

namespace SortedMap

variable {κ α : Type} [Ord κ] [Std.TransOrd κ] [DecidableEq κ]

theorem keys_perm {m : SortedMap κ α} {ks : List κ} (hnodup : ks.Nodup)
    (h : ∀ k, m.contains k = true ↔ k ∈ ks) : m.keys.Perm ks := by
  refine (List.perm_ext_iff_of_nodup m.nodup_keys hnodup).2 fun k => ?_
  rw [mem_keys_iff, h]

theorem size_eq_length {m : SortedMap κ α} {ks : List κ} (hnodup : ks.Nodup)
    (h : ∀ k, m.contains k = true ↔ k ∈ ks) : m.size = ks.length := by
  rw [← (keys_perm hnodup h).length_eq, keys, List.length_map, size]

end SortedMap

namespace Session

/-- An operation on a session that is not refused. -/
inductive Step : Session → Session → Prop
  | transcript {s t : Session} (p : Phase) (hash : Digest)
      (h : s.recordTranscript p hash = (.ok (), t)) : Step s t
  | vote {s t : Session} (a : Archon) (v : Vote) (h : s.castVote a v = (.ok (), t)) : Step s t
  | complete {s t : Session} (c : Consensus) (h : s.complete c = (.ok (), t)) : Step s t

/-- The second state is a later one of the same session, or the same. -/
def Evolves : Session → Session → Prop := Relation.ReflTransGen Step

/-- The state is one that a session comes to after it has been opened. -/
def Arises (s : Session) : Prop :=
  ∃ id petition archons s₀, start id petition archons = .ok s₀ ∧ s₀.Evolves s

/-- Three different archons deliberate, and nobody else has voted. -/
structure Valid (s : Session) : Prop where
  archons_length : s.archons.length = Consensus.archonsPerSession
  archons_nodup : s.archons.Nodup
  voter : ∀ {a : Archon}, s.votes.contains a = true → a ∈ s.archons

def AllVoted (s : Session) : Prop := ∀ a ∈ s.archons, s.votes.contains a = true

instance (s : Session) : Decidable s.AllVoted :=
  inferInstanceAs (Decidable (∀ a ∈ s.archons, _))

/-! ### One operation -/

theorem recordTranscript_eq_ok {s t : Session} {p : Phase} {hash : Digest}
    (h : s.recordTranscript p hash = (.ok (), t)) :
    s.isComplete = false ∧ p ≠ .complete ∧
      t = { s with transcripts := s.transcripts.insert p hash, phase := s.phase.later p } := by
  rw [recordTranscript] at h
  split at h
  · cases h
  · next hc =>
    split at h
    · cases h
    · next hp => exact ⟨Bool.eq_false_iff.2 hc, hp, (Prod.mk.inj h).2.symm⟩

theorem castVote_eq_ok {s t : Session} {a : Archon} {v : Vote} (h : s.castVote a v = (.ok (), t)) :
    s.isComplete = false ∧ a ∈ s.archons ∧ s.votes.get? a = none ∧
      t = { s with votes := s.votes.insert a v, phase := s.phase.later .vote } := by
  rw [castVote] at h
  split at h
  · cases h
  · next hc =>
    split at h
    · cases h
    · next ha =>
      split at h
      · cases h
      · next hv =>
        refine ⟨Bool.eq_false_iff.2 hc, ?_, ?_, (Prod.mk.inj h).2.symm⟩
        · simpa [isAssigned] using ha
        · simpa [SortedMap.contains] using hv

theorem complete_eq_ok {s t : Session} {c : Consensus} (h : s.complete c = (.ok (), t)) :
    s.isComplete = false ∧ c.session = s.id ∧ ∃ outcome, c.winner = some outcome ∧
      t = { s with
        outcome := some outcome
        dissenter := c.dissenter
        completedAt := some c.resolvedAt
        phase := .complete } := by
  rw [complete] at h
  split at h
  · cases h
  · next hc =>
    split at h
    · cases h
    · next hs =>
      split at h
      · cases h
      · next outcome ho =>
        exact ⟨Bool.eq_false_iff.2 hc, Decidable.not_not.1 hs, outcome, ho, (Prod.mk.inj h).2.symm⟩

theorem recordTranscript_eq_error {s t : Session} {p : Phase} {hash : Digest} {e : CouncilError}
    (h : s.recordTranscript p hash = (.error e, t)) : t = s := by
  rw [recordTranscript] at h
  split at h
  · exact (Prod.mk.inj h).2.symm
  · split at h
    · exact (Prod.mk.inj h).2.symm
    · cases h

theorem castVote_eq_error {s t : Session} {a : Archon} {v : Vote} {e : CouncilError}
    (h : s.castVote a v = (.error e, t)) : t = s := by
  rw [castVote] at h
  split at h
  · exact (Prod.mk.inj h).2.symm
  · split at h
    · exact (Prod.mk.inj h).2.symm
    · split at h
      · exact (Prod.mk.inj h).2.symm
      · cases h

theorem complete_eq_error {s t : Session} {c : Consensus} {e : CouncilError}
    (h : s.complete c = (.error e, t)) : t = s := by
  rw [complete] at h
  split at h
  · exact (Prod.mk.inj h).2.symm
  · split at h
    · exact (Prod.mk.inj h).2.symm
    · split at h
      · exact (Prod.mk.inj h).2.symm
      · cases h

/-- What an operation leaves as it is, and how it may add to the votes. -/
theorem Step.kept {s t : Session} (h : s.Step t) :
    t.id = s.id ∧ t.petition = s.petition ∧ t.archons = s.archons ∧
      (t.votes = s.votes ∨
        ∃ a v, a ∈ s.archons ∧ s.votes.get? a = none ∧ t.votes = s.votes.insert a v) := by
  cases h with
  | transcript p hash h =>
      obtain ⟨-, -, rfl⟩ := recordTranscript_eq_ok h
      exact ⟨rfl, rfl, rfl, .inl rfl⟩
  | vote a v h =>
      obtain ⟨-, ha, hnone, rfl⟩ := castVote_eq_ok h
      exact ⟨rfl, rfl, rfl, .inr ⟨a, v, ha, hnone, rfl⟩⟩
  | complete c h =>
      obtain ⟨-, -, outcome, -, rfl⟩ := complete_eq_ok h
      exact ⟨rfl, rfl, rfl, .inl rfl⟩

theorem Step.get?_votes {s t : Session} (h : s.Step t) {a : Archon} {v : Vote}
    (hv : s.votes.get? a = some v) : t.votes.get? a = some v := by
  obtain ⟨-, -, -, hvotes | ⟨b, w, -, hb, hvotes⟩⟩ := h.kept
  · rw [hvotes, hv]
  · have hne : b ≠ a := by
      rintro rfl
      rw [hb] at hv
      cases hv
    rw [hvotes, SortedMap.get?_insert, if_neg hne, hv]

theorem Step.valid {s t : Session} (h : s.Step t) (hs : s.Valid) : t.Valid := by
  obtain ⟨-, -, harchons, hvotes⟩ := h.kept
  refine ⟨harchons ▸ hs.archons_length, harchons ▸ hs.archons_nodup, fun {a} ha => ?_⟩
  rw [harchons]
  rcases hvotes with hvotes | ⟨b, v, hb, -, hvotes⟩
  · exact hs.voter (hvotes ▸ ha)
  · rw [hvotes, SortedMap.contains, SortedMap.get?_insert] at ha
    split at ha
    · next hba => exact hba ▸ hb
    · exact hs.voter ha

/-! ### Many operations -/

namespace Evolves

theorem id_eq {s t : Session} (h : s.Evolves t) : t.id = s.id := by
  induction h with
  | refl => rfl
  | tail _ hstep ih => exact hstep.kept.1.trans ih

theorem petition_eq {s t : Session} (h : s.Evolves t) : t.petition = s.petition := by
  induction h with
  | refl => rfl
  | tail _ hstep ih => exact hstep.kept.2.1.trans ih

theorem archons_eq {s t : Session} (h : s.Evolves t) : t.archons = s.archons := by
  induction h with
  | refl => rfl
  | tail _ hstep ih => exact hstep.kept.2.2.1.trans ih

theorem get?_votes {s t : Session} (h : s.Evolves t) {a : Archon} {v : Vote}
    (hv : s.votes.get? a = some v) : t.votes.get? a = some v := by
  induction h with
  | refl => exact hv
  | tail _ hstep ih => exact hstep.get?_votes ih

theorem valid {s t : Session} (h : s.Evolves t) (hs : s.Valid) : t.Valid := by
  induction h with
  | refl => exact hs
  | tail _ hstep ih => exact hstep.valid ih

/-- Once all have voted the votes stay the same. -/
theorem votes_eq {s t : Session} (h : s.Evolves t) (hs : s.Valid) (hall : s.AllVoted) :
    t.votes = s.votes := by
  refine SortedMap.ext_get? fun a => ?_
  by_cases ha : a ∈ s.archons
  · obtain ⟨v, hv⟩ := SortedMap.contains_iff.1 (hall a ha)
    rw [hv, h.get?_votes hv]
  · -- nobody but the archons has a vote in either state
    have hnone {u : Session} (hu : u.Valid) (harchons : u.archons = s.archons) :
        u.votes.get? a = none := by
      cases hv : u.votes.get? a with
      | none => rfl
      | some v => exact absurd (harchons ▸ hu.voter (SortedMap.contains_iff.2 ⟨v, hv⟩)) ha
    rw [hnone hs rfl, hnone (h.valid hs) h.archons_eq]

end Evolves

/-! ### Sequences of operations -/

/-- What may be asked of a session. -/
inductive Op where
  | transcript (p : Phase) (hash : Digest)
  | vote (a : Archon) (v : Vote)
  | complete (c : Consensus)

/-- The answer to an operation and the session after it. -/
def answer (s : Session) : Op → Except CouncilError Unit × Session
  | .transcript p hash => s.recordTranscript p hash
  | .vote a v => s.castVote a v
  | .complete c => s.complete c

def perform (s : Session) (op : Op) : Session := (s.answer op).2

def play (s : Session) (ops : List Op) : Session := ops.foldl perform s

theorem answer_eq {s : Session} {op : Op} {r : Except CouncilError Unit}
    (h : (s.answer op).1 = r) : s.answer op = (r, s.perform op) :=
  Prod.ext h rfl

/-- What is refused leaves the session as it is. -/
theorem perform_of_error {s : Session} {op : Op} {e : CouncilError}
    (h : (s.answer op).1 = .error e) : s.perform op = s := by
  cases op with
  | transcript p hash => exact recordTranscript_eq_error (answer_eq h)
  | vote a v => exact castVote_eq_error (answer_eq h)
  | complete c => exact complete_eq_error (answer_eq h)

theorem step_perform {s : Session} {op : Op} (h : (s.answer op).1 = .ok ()) :
    s.Step (s.perform op) := by
  cases op with
  | transcript p hash => exact .transcript p hash (answer_eq h)
  | vote a v => exact .vote a v (answer_eq h)
  | complete c => exact .complete c (answer_eq h)

theorem evolves_perform (s : Session) (op : Op) : s.Evolves (s.perform op) := by
  cases h : (s.answer op).1 with
  | error e =>
      rw [perform_of_error h]
      exact .refl
  | ok _ => exact .single (step_perform h)

theorem evolves_play (s : Session) (ops : List Op) : s.Evolves (s.play ops) := by
  induction ops generalizing s with
  | nil => exact .refl
  | cons op ops ih => exact (s.evolves_perform op).trans (ih (s.perform op))

/-! ### All states of a session -/

/-- A session in which nothing has happened yet. -/
def fresh (id : SessionId) (petition : PetitionId) (archons : List Archon) : Session where
  id
  petition
  archons
  phase := .assessment
  transcripts := ∅
  votes := ∅
  outcome := none
  dissenter := none
  completedAt := none

/-- A session is opened just for three different archons. -/
theorem start_eq_ok_iff {id : SessionId} {petition : PetitionId} {archons : List Archon}
    {s : Session} : start id petition archons = .ok s ↔
      archons.length = Consensus.archonsPerSession ∧ archons.Nodup ∧
        s = fresh id petition archons := by
  rw [start, ← firstRepeated?_eq_none_iff]
  split
  · next hlen => simp [hlen]
  · next hlen =>
    rw [Decidable.not_not] at hlen
    split
    · next a hrep => simp [hrep]
    · next hrep => simp [hlen, hrep, fresh, eq_comm]

theorem start_valid {id : SessionId} {petition : PetitionId} {archons : List Archon} {s : Session}
    (h : start id petition archons = .ok s) : s.Valid := by
  obtain ⟨hlength, hnodup, rfl⟩ := start_eq_ok_iff.1 h
  exact ⟨hlength, hnodup, fun ha => by cases ha⟩

theorem Arises.valid {s : Session} (h : s.Arises) : s.Valid := by
  obtain ⟨_, _, _, s₀, hstart, hevolves⟩ := h
  exact hevolves.valid (start_valid hstart)

/-- Of two states of one session, one comes after the other. -/
def Akin (s t : Session) : Prop := s.Evolves t ∨ t.Evolves s

namespace Akin

theorem id_eq {s t : Session} (h : s.Akin t) : t.id = s.id := by
  rcases h with h | h
  · exact h.id_eq
  · exact h.id_eq.symm

theorem petition_eq {s t : Session} (h : s.Akin t) : t.petition = s.petition := by
  rcases h with h | h
  · exact h.petition_eq
  · exact h.petition_eq.symm

theorem votes_eq {s t : Session} (h : s.Akin t) (hs : s.Valid) (ht : t.Valid) (hsall : s.AllVoted)
    (htall : t.AllVoted) : t.votes = s.votes := by
  rcases h with h | h
  · exact h.votes_eq hs hsall
  · exact (h.votes_eq ht htall).symm

end Akin

/-- When all have voted there are three votes. -/
theorem Valid.votes_size {s : Session} (hs : s.Valid) (hall : s.AllVoted) :
    s.votes.size = Consensus.archonsPerSession := by
  rw [← hs.archons_length]
  exact SortedMap.size_eq_length hs.archons_nodup fun a => ⟨hs.voter, hall a⟩

/-- Where there are three votes all have voted. -/
theorem Valid.allVoted {s : Session} (hs : s.Valid)
    (hsize : s.votes.size = Consensus.archonsPerSession) : s.AllVoted := by
  have hsub : s.votes.keys ⊆ s.archons := fun a ha => hs.voter (SortedMap.mem_keys_iff.1 ha)
  have hlength : s.votes.keys.length = s.archons.length := by
    rw [SortedMap.keys, List.length_map, hs.archons_length, ← hsize, SortedMap.size]
  have hperm : s.votes.keys.Perm s.archons :=
    (s.votes.nodup_keys.subperm hsub).perm_of_length_le (Nat.le_of_eq hlength.symm)
  intro a ha
  exact SortedMap.mem_keys_iff.1 (hperm.mem_iff.2 ha)

/-- A session of which all is witnessed and in which three archons have voted. -/
def sample (id petition : Nat) (a b c : Outcome) : Session :=
  play
    { id := ⟨.ofNat id⟩
      petition := ⟨.ofNat petition⟩
      archons := [⟨"a"⟩, ⟨"b"⟩, ⟨"c"⟩]
      phase := .assessment
      transcripts := ∅
      votes := ∅
      outcome := none
      dissenter := none
      completedAt := none }
    (Phase.witnessed.map (Op.transcript · ⟨List.replicate 32 0, rfl⟩) ++
      [.vote ⟨"a"⟩ ⟨a, "for a"⟩, .vote ⟨"b"⟩ ⟨b, "for b"⟩, .vote ⟨"c"⟩ ⟨c, "for c"⟩])

theorem sample_arises (id petition : Nat) (a b c : Outcome) :
    (sample id petition a b c).Arises :=
  ⟨⟨.ofNat id⟩, ⟨.ofNat petition⟩, [⟨"a"⟩, ⟨"b"⟩, ⟨"c"⟩], _, rfl, evolves_play _ _⟩

/-- All is witnessed. -/
def witnessing : List Op :=
  Phase.witnessed.map (Op.transcript · ⟨List.replicate 32 0, rfl⟩)

end Session

end Curia
