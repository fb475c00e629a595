import Curia.Council.Recorder
import Curia.Council.Resolution
import Curia.Proofs.Council.Session
import Curia.Proofs.Ledger.Reasons

/-!
What the reasons in a session have an effect on: votes are counted without them, and a dissent is
recorded in the same way whatever its reason.
-/

namespace Curia

/-! ### Sessions -/

namespace Session

/-- The session in which every vote is without its reason. -/
def bare (s : Session) : Session := { s with votes := s.votes.map Vote.bare }

@[simp] theorem bare_id (s : Session) : s.bare.id = s.id := rfl

@[simp] theorem transcript?_bare (s : Session) (p : Phase) :
    s.bare.transcript? p = s.transcript? p := rfl

@[simp] theorem voteMap_bare (s : Session) : s.bare.voteMap = s.voteMap :=
  SortedMap.map_map ..

@[simp] theorem voteOf?_bare (s : Session) (a : Archon) : s.bare.voteOf? a = s.voteOf? a := by
  rw [voteOf?, voteOf?, bare, SortedMap.get?_map, Option.map_map]
  rfl

theorem rationaleOf?_bare (s : Session) (a : Archon) : (s.bare.rationaleOf? a).getD "" = "" := by
  rw [rationaleOf?, bare, SortedMap.get?_map, Option.map_map]
  cases s.votes.get? a <;> rfl

end Session

theorem Resolver.resolve_bare (r : Resolver) (s : Session) (now : Instant) :
    r.resolve s.bare s.bare.voteMap now = r.resolve s s.voteMap now := by
  rw [s.voteMap_bare]
  rfl

/-! ### Records -/

theorem Dissent.new_bare (id : DissentId) (session : SessionId) (petition : PetitionId)
    (archon : Archon) (outcome majority : Outcome) (rationale : String) (now : Instant) :
    new id session petition archon outcome majority "" now =
      (new id session petition archon outcome majority rationale now).map bare := by
  rw [new, new]
  split <;> rfl

namespace DissentStore

def bare (store : DissentStore) : DissentStore :=
  { store with records := store.records.map Dissent.bare }

theorem ofSession?_bare (store : DissentStore) (s : SessionId) :
    store.bare.ofSession? s = (store.ofSession? s).map Dissent.bare :=
  SortedMap.get?_map ..

theorem put_bare (store : DissentStore) (d : Dissent) :
    store.bare.put d.bare = (store.put d).map bare := by
  have hcontains : store.bare.records.contains d.bare.session =
      store.records.contains d.session := SortedMap.contains_map ..
  rw [put, put, hcontains]
  split
  · rfl
  · show Except.ok _ = Except.ok _
    rw [bare, bare, SortedMap.map_insert]
    rfl

theorem save_bare (store : DissentStore) (d : Dissent) :
    store.bare.save d.bare = (store.save d).map id bare := by
  have htried : ({ store.bare with attempts := store.bare.attempts + 1 } : DissentStore) =
      bare { store with attempts := store.attempts + 1 } := rfl
  simp only [save, htried]
  show (if store.refuses (store.attempts + 1) = true then _ else _) = _
  split
  · rfl
  · generalize ({ store with attempts := store.attempts + 1 } : DissentStore) = tried
    rw [tried.put_bare d]
    cases tried.put d <;> rfl

end DissentStore

/-! ### Recording -/

namespace Recorder

def bare (r : Recorder) : Recorder := ⟨r.store.bare, r.held.map Dissent.bare⟩

@[simp] theorem bare_store (r : Recorder) : r.bare.store = r.store.bare := rfl

theorem get?_held_bare (r : Recorder) (s : SessionId) :
    r.bare.held.get? s = (r.held.get? s).map Dissent.bare :=
  SortedMap.get?_map ..

theorem dissentOf_bare (s : Session) (c : Consensus) (rationale : String) (now : Instant)
    (id : DissentId) :
    dissentOf s.bare c "" now id = (dissentOf s c rationale now id).map Dissent.bare := by
  have houtcome (a : Archon) (majority : Outcome) :
      dissentOutcome s.bare c a majority = dissentOutcome s c a majority := by
    rw [dissentOutcome, dissentOutcome, s.voteOf?_bare]
    rfl
  rw [dissentOf, dissentOf]
  split
  · next majority a hw ha =>
    rw [houtcome]
    cases dissentOutcome s c a majority with
    | error e => rfl
    | ok o => exact Dissent.new_bare id s.id s.petition a o majority rationale now
  · rfl

variable (r : Recorder) (l : Ledger) (s : Session) (c : Consensus) (rationale : String)
  (now : Instant) (id : DissentId) (eventId : EventId)

theorem witness_bare : r.bare.witness l.bare s.bare c "" now id eventId =
    (r.witness l s c rationale now id eventId).map (Except.map Dissent.bare)
      (Prod.map bare Ledger.bare) := by
  rw [witness, witness, Session.bare_id, get?_held_bare]
  cases r.held.get? s.id with
  | some d => rfl
  | none =>
      simp only [Option.map_none]
      rw [dissentOf_bare s c rationale now id]
      cases dissentOf s c rationale now id with
      | error e => rfl
      | ok d =>
          simp only [Except.map]
          rw [← d.event_bare, l.append_bare]
          generalize l.append (d.event eventId) = z
          obtain ⟨answer, l'⟩ := z
          cases answer with
          | error e => rfl
          | ok n =>
              show (_, _, _) = (_, _, _)
              rw [bare, bare, SortedMap.map_insert]
              rfl

theorem recordSplit_bare : r.bare.recordSplit l.bare s.bare c "" now id eventId =
    (r.recordSplit l s c rationale now id eventId).map (Except.map (Option.map Dissent.bare))
      (Prod.map bare Ledger.bare) := by
  rw [recordSplit, recordSplit, Session.bare_id, bare_store, DissentStore.ofSession?_bare]
  cases r.store.ofSession? s.id with
  | some d => rfl
  | none =>
      simp only [Option.map_none]
      rw [r.witness_bare l s c rationale now id eventId]
      generalize r.witness l s c rationale now id eventId = z
      obtain ⟨answer, r', l'⟩ := z
      cases answer with
      | error e => rfl
      | ok d =>
          simp only [Prod.map, Except.map, bare_store, DissentStore.save_bare]
          generalize r'.store.save d = z
          obtain ⟨answer, store⟩ := z
          cases answer with
          | error e => rfl
          | ok _ =>
              show (_, _, _) = (_, _, _)
              rw [bare, bare, SortedMap.map_erase]
              rfl

theorem record_bare : r.bare.record l.bare s.bare c "" now id eventId =
    (r.record l s c rationale now id eventId).map (Except.map (Option.map Dissent.bare))
      (Prod.map bare Ledger.bare) := by
  rw [record, record, r.recordSplit_bare l s c rationale now id eventId]
  show (if c.session ≠ s.id then _ else _) = _
  split
  · rfl
  · cases c.status <;> rfl

end Recorder

end Curia
