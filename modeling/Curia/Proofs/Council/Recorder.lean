import Curia.Council.Recorder
import Curia.Proofs.Council.Resolution
import Curia.Proofs.Ledger.Reports

/-!
Recording a dissent, whatever fails. While nothing is held and the store is in reach, a new record is
on the ledger and in the store, or in neither; a session that has a record keeps it.
-/

namespace Curia

namespace Dissent

theorem new_eq_ok {id : DissentId} {session : SessionId} {petition : PetitionId} {archon : Archon}
    {outcome majority : Outcome} {rationale : String} {now : Instant} {d : Dissent}
    (h : new id session petition archon outcome majority rationale now = .ok d) :
    outcome ≠ majority ∧
      d = { id, session, petition, archon, outcome, majority, rationale
            rationaleHash := Digest.ofText rationale
            recordedAt := now } := by
  rw [new] at h
  split at h
  · cases h
  · next hne => exact ⟨hne, (Except.ok.inj h).symm⟩

/-- The record repeats a session and its consensus: who dissented, for what and why. -/
structure Follows (d : Dissent) (s : Session) (c : Consensus) : Prop where
  session : d.session = s.id
  petition : d.petition = s.petition
  archon : c.dissenter = some d.archon
  vote : s.votes.get? d.archon = some ⟨d.outcome, d.rationale⟩
  majority : c.winner = some d.majority
  hash : d.rationaleHash = Digest.ofText d.rationale

theorem Follows.congr {d : Dissent} {s t : Session} {c c' : Consensus} (h : d.Follows s c)
    (hsame : s.SameCount c t c') : d.Follows t c' :=
  ⟨h.session.trans hsame.id.symm, h.petition.trans hsame.petition.symm,
    hsame.dissenter.trans h.archon, hsame.votes ▸ h.vote, hsame.winner.trans h.majority, h.hash⟩

end Dissent

namespace Recorder

/-- Nothing is held, and no save finds the store out of reach. -/
structure Settled (r : Recorder) : Prop where
  held : r.held = ∅
  refuses : ∀ n, r.store.refuses n = false

theorem empty_settled : empty.Settled := ⟨rfl, fun _ => rfl⟩

theorem Settled.get?_held {r : Recorder} (hr : r.Settled) (t : SessionId) :
    r.held.get? t = none := by
  rw [hr.held, SortedMap.get?_empty]

/-! ### The record of a dissent -/

/-- The record repeats the consensus and adds the vote and the reason of the dissenter. -/
theorem dissentOf_eq_ok {s : Session} {c : Consensus} {rationale : String} {now : Instant}
    {id : DissentId} {d : Dissent} (h : dissentOf s c rationale now id = .ok d) :
    c.winner = some d.majority ∧ c.dissenter = some d.archon ∧
      dissentOutcome s c d.archon d.majority = .ok d.outcome ∧ d.outcome ≠ d.majority ∧
      d.session = s.id ∧ d.petition = s.petition ∧ d.rationale = rationale ∧
      d.rationaleHash = Digest.ofText rationale := by
  rw [dissentOf] at h
  split at h
  · next majority a hw ha =>
    cases ho : dissentOutcome s c a majority with
    | error e =>
        rw [ho] at h
        cases h
    | ok o =>
        rw [ho] at h
        obtain ⟨hne, rfl⟩ := Dissent.new_eq_ok h
        exact ⟨hw, ha, ho, hne, rfl, rfl, rfl, rfl⟩
  · cases h

/-- With the reason that the dissenter gave, the record says what the dissenter voted for. -/
theorem dissentOf_follows {s : Session} {c : Consensus} {winner : Outcome} {resolved : Instant}
    (hc : c.Counts s winner resolved) {a : Archon} (ha : c.dissenter = some a) {now : Instant}
    {id : DissentId} {d : Dissent}
    (h : dissentOf s c ((s.rationaleOf? a).getD "") now id = .ok d) : d.Follows s c := by
  obtain ⟨hw, hd, ho, -, hs, hp, hr, hhash⟩ := dissentOf_eq_ok h
  obtain rfl : a = d.archon := by
    rw [ha] at hd
    exact Option.some.inj hd
  have hmem : d.archon ∈ s.opposed winner := List.mem_of_head? (hc.dissenter.symm.trans ha)
  obtain ⟨v, hv, -⟩ := Session.mem_opposed.1 hmem
  rw [dissentOutcome, Session.voteOf?, hv] at ho
  rw [Session.rationaleOf?, hv] at hr hhash
  refine ⟨hs, hp, ha, ?_, hw, hhash.trans (congrArg _ hr.symm)⟩
  rw [hv, hr, ← Except.ok.inj ho]
  rfl

/-- The record of a dissent is refused for what the session and the consensus say. -/
theorem dissentOf_eq_error {s : Session} {c : Consensus} {rationale : String} {now : Instant}
    {id : DissentId} {e : CouncilError} (h : dissentOf s c rationale now id = .error e) :
    e = .unresolved s.id c.status ∨ (∃ a os, e = .ambiguousDissent s.id a os) ∨
      ∃ a o, e = .dissentWithMajority s.id a o := by
  rw [dissentOf] at h
  split at h
  · next majority a _ _ =>
    cases ho : dissentOutcome s c a majority with
    | error e' =>
        rw [ho] at h
        cases h
        rw [dissentOutcome] at ho
        split at ho
        · cases ho
        · split at ho
          · cases ho
          · cases ho
            exact .inr (.inl ⟨a, _, rfl⟩)
    | ok o =>
        rw [ho] at h
        change Dissent.new _ _ _ _ _ _ _ _ = _ at h
        rw [Dissent.new] at h
        split at h
        · cases h
          exact .inr (.inr ⟨a, o, rfl⟩)
        · cases h
  · cases h
    exact .inl rfl

/-- Making out a record has nothing to do with the ledger. -/
theorem dissentOf_ne_ledger {s : Session} {c : Consensus} {rationale : String} {now : Instant}
    {id : DissentId} {e : CouncilError} (h : dissentOf s c rationale now id = .error e)
    (le : LedgerError) : e ≠ .ledger le := by
  rcases dissentOf_eq_error h with rfl | ⟨a, os, rfl⟩ | ⟨a, o, rfl⟩ <;> nofun

theorem dissentOf_ne_store {s : Session} {c : Consensus} {rationale : String} {now : Instant}
    {id : DissentId} {e : CouncilError} (h : dissentOf s c rationale now id = .error e) :
    e ≠ .storeUnavailable := by
  rcases dissentOf_eq_error h with rfl | ⟨a, os, rfl⟩ | ⟨a, o, rfl⟩ <;> simp

/-! ### Storing -/

theorem ofSession?_of_put {store store' : DissentStore} {d : Dissent} (h : store.put d = .ok store')
    (t : SessionId) :
    store'.ofSession? t = if d.session = t then some d else store.ofSession? t := by
  rw [DissentStore.put] at h
  split at h
  · cases h
  · cases h
    exact SortedMap.get?_insert ..

theorem refuses_of_put {store store' : DissentStore} {d : Dissent} (h : store.put d = .ok store') :
    store'.refuses = store.refuses := by
  rw [DissentStore.put] at h
  split at h
  · cases h
  · cases h
    rfl

/-- A save for a session that has no record finds the store out of reach and changes nothing, or it
stores the record. -/
theorem save_cases {store : DissentStore} {d : Dissent}
    (hnone : store.ofSession? d.session = none) :
    (store.refuses (store.attempts + 1) = true ∧ store.save d =
        (.error .storeUnavailable, { store with attempts := store.attempts + 1 })) ∨
      ∃ store', store.save d = (.ok (), store') ∧ store'.refuses = store.refuses ∧
        ∀ t, store'.ofSession? t = if d.session = t then some d else store.ofSession? t := by
  rw [DissentStore.save]
  split
  · next h => exact .inl ⟨h, rfl⟩
  · let tried : DissentStore := { store with attempts := store.attempts + 1 }
    have hcontains : tried.records.contains d.session = false := by
      rw [SortedMap.contains, show tried.records.get? d.session = none from hnone]
      rfl
    obtain ⟨store', hput⟩ : ∃ store', tried.put d = .ok store' :=
      ⟨_, by rw [DissentStore.put, if_neg (by simpa using hcontains)]⟩
    have hrefuses : store'.refuses = tried.refuses := refuses_of_put hput
    have hstore : ∀ t, store'.ofSession? t =
        if d.session = t then some d else tried.ofSession? t := ofSession?_of_put hput
    refine .inr ⟨store', ?_, hrefuses, hstore⟩
    rw [hput]

/-! ### Witnessing -/

/-- What comes of asking for the record of a session that has none in the store. -/
inductive Witnessing (r : Recorder) (l : Ledger) (s : Session) (c : Consensus)
    (rationale : String) (now : Instant) (id : DissentId) (eventId : EventId) :
    Except CouncilError Dissent × Recorder × Ledger → Prop
  | held (d : Dissent) (hd : r.held.get? s.id = some d) :
      Witnessing r l s c rationale now id eventId (.ok d, r, l)
  | refused (e : CouncilError) (he : dissentOf s c rationale now id = .error e) :
      Witnessing r l s c rationale now id eventId (.error e, r, l)
  | unwritten (e : LedgerError) (l' : Ledger) (hl : l'.events = l.events) :
      Witnessing r l s c rationale now id eventId (.error (.ledger e), r, l')
  | written (d : Dissent) (l' : Ledger) (hnone : r.held.get? s.id = none)
      (hd : dissentOf s c rationale now id = .ok d)
      (hl : l'.events = l.events ++ [d.event eventId]) :
      Witnessing r l s c rationale now id eventId
        (.ok d, { r with held := r.held.insert s.id d }, l')

theorem witness_cases (r : Recorder) (l : Ledger) (s : Session) (c : Consensus)
    (rationale : String) (now : Instant) (id : DissentId) (eventId : EventId) :
    Witnessing r l s c rationale now id eventId (r.witness l s c rationale now id eventId) := by
  rw [witness]
  cases hheld : r.held.get? s.id with
  | some d => exact .held d hheld
  | none =>
      cases hd : dissentOf s c rationale now id with
      | error e => exact .refused e hd
      | ok d =>
          simp only
          obtain ⟨e, l', happend, hl⟩ | ⟨l', happend, hl⟩ := l.append_cases (d.event eventId)
          · rw [happend]
            exact .unwritten e l' hl
          · rw [happend]
            exact .written d l' hheld hd hl

/-- A record that is held is held for its session. -/
def HeldOwn (r : Recorder) : Prop := ∀ t d, r.held.get? t = some d → d.session = t

namespace Witnessing

variable {r r' : Recorder} {l l' : Ledger} {s : Session} {c : Consensus} {rationale : String}
  {now : Instant} {id : DissentId} {eventId : EventId}

theorem store_eq {answer : Except CouncilError Dissent}
    (h : Witnessing r l s c rationale now id eventId (answer, r', l')) : r'.store = r.store := by
  cases h <;> rfl

theorem session_eq (hr : r.HeldOwn) {d : Dissent}
    (h : Witnessing r l s c rationale now id eventId (.ok d, r', l')) : d.session = s.id := by
  cases h with
  | held d hd => exact hr s.id d hd
  | written d l' hnone hd hl => exact (dissentOf_eq_ok hd).2.2.2.2.1

end Witnessing

/-! ### Recording -/

/-- What comes of recording a dissent, whatever fails. The record that is stored or that cannot be
stored is one that has been witnessed. -/
inductive Recording (r : Recorder) (l : Ledger) (s : Session) (c : Consensus) (rationale : String)
    (now : Instant) (id : DissentId) (eventId : EventId) :
    Except CouncilError (Option Dissent) × Recorder × Ledger → Prop
  | refused (e : CouncilError) (hledger : ∀ le, e ≠ .ledger le) (hstore : e ≠ .storeUnavailable) :
      Recording r l s c rationale now id eventId (.error e, r, l)
  | unanimous (hc : c.status = .unanimous) :
      Recording r l s c rationale now id eventId (.ok none, r, l)
  | known (d : Dissent) (hd : r.store.ofSession? s.id = some d) :
      Recording r l s c rationale now id eventId (.ok (some d), r, l)
  | unwritten (e : LedgerError) (l' : Ledger) (hl : l'.events = l.events) :
      Recording r l s c rationale now id eventId (.error (.ledger e), r, l')
  | late (d : Dissent) (r' : Recorder) (l' : Ledger) (n : Nat)
      (hnone : r.store.ofSession? s.id = none) (hn : r.store.refuses n = true)
      (hd : Witnessing r l s c rationale now id eventId (.ok d, r', l')) :
      Recording r l s c rationale now id eventId
        (.error .storeUnavailable, { r' with store := { r.store with attempts := n } }, l')
  | stored (d : Dissent) (r' : Recorder) (l' : Ledger) (store' : DissentStore)
      (hnone : r.store.ofSession? s.id = none)
      (hd : Witnessing r l s c rationale now id eventId (.ok d, r', l'))
      (hrefuses : store'.refuses = r.store.refuses)
      (hstore : ∀ t, store'.ofSession? t = if s.id = t then some d else r.store.ofSession? t) :
      Recording r l s c rationale now id eventId
        (.ok (some d), ⟨store', r'.held.erase s.id⟩, l')

section

variable {r : Recorder} (hr : r.HeldOwn) (l : Ledger) (s : Session) (c : Consensus)
  (rationale : String) (now : Instant) (id : DissentId) (eventId : EventId)

include hr

theorem recordSplit_cases :
    Recording r l s c rationale now id eventId
      (r.recordSplit l s c rationale now id eventId) := by
  rw [recordSplit]
  cases hstored : r.store.ofSession? s.id with
  | some d => exact .known d hstored
  | none =>
      have hwitness := r.witness_cases l s c rationale now id eventId
      generalize r.witness l s c rationale now id eventId = w at hwitness
      obtain ⟨answer, r', l'⟩ := w
      cases answer with
      | error e =>
          cases hwitness with
          | refused e he => exact .refused e (dissentOf_ne_ledger he) (dissentOf_ne_store he)
          | unwritten e l' hl => exact .unwritten e l' hl
      | ok d =>
          have hstore : r'.store = r.store := hwitness.store_eq
          have hsession : d.session = s.id := hwitness.session_eq hr
          have hnone : r'.store.ofSession? d.session = none := by
            rw [hstore, hsession]
            exact hstored
          obtain ⟨hn, hsave⟩ | ⟨store', hsave, hrefuses, hget⟩ := save_cases hnone
          · simp only [hsave]
            rw [hstore] at hn ⊢
            exact .late d r' l' _ hstored hn hwitness
          · simp only [hsave]
            rw [hstore] at hrefuses
            rw [hstore, hsession] at hget
            exact .stored d r' l' store' hstored hwitness hrefuses hget

theorem recording_cases :
    Recording r l s c rationale now id eventId (r.record l s c rationale now id eventId) := by
  rw [record]
  split
  · exact .refused _ (by simp) (by simp)
  · split
    · next hc => exact .unanimous hc
    · exact recordSplit_cases hr l s c rationale now id eventId
    · exact .refused _ (by simp) (by simp)

end

/-! ### Recording while the store is in reach -/

/-- What comes of recording a dissent while nothing is held. -/
inductive Recorded (r : Recorder) (l : Ledger) (s : Session) (c : Consensus) (rationale : String)
    (now : Instant) (id : DissentId) (eventId : EventId) :
    Except CouncilError (Option Dissent) × Recorder × Ledger → Prop
  | refused (e : CouncilError) (he : ∀ le, e ≠ .ledger le) :
      Recorded r l s c rationale now id eventId (.error e, r, l)
  | unanimous (hc : c.status = .unanimous) :
      Recorded r l s c rationale now id eventId (.ok none, r, l)
  | known (d : Dissent) (hd : r.store.ofSession? s.id = some d) :
      Recorded r l s c rationale now id eventId (.ok (some d), r, l)
  | unwritten (e : LedgerError) (l' : Ledger) (hl : l'.events = l.events) :
      Recorded r l s c rationale now id eventId (.error (.ledger e), r, l')
  | written (d : Dissent) (r' : Recorder) (l' : Ledger) (hnone : r.store.ofSession? s.id = none)
      (hd : dissentOf s c rationale now id = .ok d)
      (hl : l'.events = l.events ++ [d.event eventId]) (hr : r'.Settled)
      (hstore : ∀ t, r'.store.ofSession? t =
        if s.id = t then some d else r.store.ofSession? t) :
      Recorded r l s c rationale now id eventId (.ok (some d), r', l')

theorem Settled.heldOwn {r : Recorder} (hr : r.Settled) : r.HeldOwn := by
  intro t d hd
  rw [hr.get?_held] at hd
  cases hd

theorem record_cases {r : Recorder} (hr : r.Settled) (l : Ledger) (s : Session) (c : Consensus)
    (rationale : String) (now : Instant) (id : DissentId) (eventId : EventId) :
    Recorded r l s c rationale now id eventId (r.record l s c rationale now id eventId) := by
  have hcases := recording_cases hr.heldOwn l s c rationale now id eventId
  generalize r.record l s c rationale now id eventId = x at hcases
  cases hcases with
  | refused e hledger hstore => exact .refused e hledger
  | unanimous hc => exact .unanimous hc
  | known d hd => exact .known d hd
  | unwritten e l' hl => exact .unwritten e l' hl
  | late d r' l' n hnone hn hd =>
      rw [hr.refuses] at hn
      cases hn
  | stored d r' l' store' hnone hd hrefuses hstore =>
      cases hd with
      | held d hd =>
          rw [hr.get?_held] at hd
          cases hd
      | written d l' _ hd hl =>
          -- what was held for the sake of the store is given up at once
          refine .written d _ l' hnone hd hl ⟨?_, ?_⟩ hstore
          · refine SortedMap.ext_get? fun t => ?_
            rw [SortedMap.get?_erase, SortedMap.get?_insert, hr.get?_held, SortedMap.get?_empty]
            split <;> rfl
          · rw [hrefuses]
            exact hr.refuses

theorem settled_record {r : Recorder} (hr : r.Settled) (l : Ledger) (s : Session) (c : Consensus)
    (rationale : String) (now : Instant) (id : DissentId) (eventId : EventId) :
    (r.record l s c rationale now id eventId).2.1.Settled := by
  generalize hx : r.record l s c rationale now id eventId = x
  have hcases := record_cases hr l s c rationale now id eventId
  rw [hx] at hcases
  cases hcases with
  | written d r' l' hnone hd hl hr' hstore => exact hr'
  | _ => exact hr

end Recorder

end Curia
