import Mathlib.Logic.Basic
import Curia.Proofs.Council.Recorder

/-!
Dissents that are witnessed once. The event of a dissent goes on the ledger before its record is
stored, and either may fail at any time. What the ledger tells of and the store has not is held, so
each session has one record and one event or neither, and the record that came first stays.
-/

namespace Curia

/-! ### Dissents on the ledger -/

/-- The events that tell of a dissent in a session. -/
def Ledger.dissentsOf (l : Ledger) (s : SessionId) : List Event :=
  l.events.filter fun e => e.kind = Dissent.eventKind ∧ e.session? = some s

namespace Ledger

theorem dissentsOf_of_eq {l l' : Ledger} (h : l'.events = l.events) (s : SessionId) :
    l'.dissentsOf s = l.dissentsOf s := by
  rw [dissentsOf, h, ← dissentsOf]

theorem dissentsOf_append {l l' : Ledger} {d : Dissent} {id : EventId}
    (h : l'.events = l.events ++ [d.event id]) (s : SessionId) :
    l'.dissentsOf s = l.dissentsOf s ++ if d.session = s then [d.event id] else [] := by
  rw [dissentsOf, h, List.filter_append, ← dissentsOf]
  by_cases hs : d.session = s <;> simp [hs]

end Ledger

namespace Recorder

/-- The record of a session, stored or held. -/
def recordOf? (r : Recorder) (s : SessionId) : Option Dissent :=
  (r.store.ofSession? s).or (r.held.get? s)

namespace Witnessing

variable {r r' : Recorder} {l l' : Ledger} {s : Session} {c : Consensus} {rationale : String}
  {now : Instant} {id : DissentId} {eventId : EventId} {d : Dissent}

theorem get?_held (h : Witnessing r l s c rationale now id eventId (.ok d, r', l')) :
    r'.held.get? s.id = some d := by
  cases h with
  | held d hd => exact hd
  | written d l' hnone hd hl => exact SortedMap.get?_insert_self ..

/-- A save that fails leaves the record where it is. -/
theorem recordOf?_late (h : Witnessing r l s c rationale now id eventId (.ok d, r', l')) (n : Nat)
    (t : SessionId) :
    ({ r' with store := { r.store with attempts := n } } : Recorder).recordOf? t =
      r'.recordOf? t := by
  rw [recordOf?, recordOf?, h.store_eq]
  rfl

/-- A save that goes through moves the record from those held to the store. -/
theorem recordOf?_stored (hnone : r.store.ofSession? s.id = none)
    (h : Witnessing r l s c rationale now id eventId (.ok d, r', l')) {store' : DissentStore}
    (hstore : ∀ t, store'.ofSession? t = if s.id = t then some d else r.store.ofSession? t)
    (t : SessionId) :
    (⟨store', r'.held.erase s.id⟩ : Recorder).recordOf? t = r'.recordOf? t := by
  rw [recordOf?, recordOf?, h.store_eq, hstore, SortedMap.get?_erase]
  by_cases ht : s.id = t
  · subst ht
    simp [hnone, h.get?_held]
  · simp [ht]

/-- The record that there was before is still there. -/
theorem recordOf?_mono (hnone : r.store.ofSession? s.id = none)
    (h : Witnessing r l s c rationale now id eventId (.ok d, r', l')) {t : SessionId} {e : Dissent}
    (he : r.recordOf? t = some e) : r'.recordOf? t = some e := by
  cases h with
  | held d hd => exact he
  | written d l' hheld hd hl =>
      have hne : s.id ≠ t := by
        rintro rfl
        simp [recordOf?, hnone, hheld] at he
      simpa [recordOf?, SortedMap.get?_insert, hne] using he

end Witnessing

/-! ### Ledger, store and held records -/

/-- The ledger tells of a dissent just if there is a record of it, once and as the record has it, and
no record is both stored and held. -/
structure Accounts (r : Recorder) (l : Ledger) : Prop where
  untold : ∀ s, r.recordOf? s = none → l.dissentsOf s = []
  told : ∀ s d, r.recordOf? s = some d → d.session = s ∧ ∃ id, l.dissentsOf s = [d.event id]
  apart : ∀ s, r.store.ofSession? s = none ∨ r.held.get? s = none

namespace Accounts

variable {r r' : Recorder} {l l' : Ledger} {s : Session} {c : Consensus} {rationale : String}
  {now : Instant} {id : DissentId} {eventId : EventId}

theorem heldOwn (h : r.Accounts l) : r.HeldOwn := by
  intro t d hd
  refine (h.told t d ?_).1
  rcases h.apart t with hnone | hnone
  · simp [recordOf?, hnone, hd]
  · rw [hd] at hnone
    cases hnone

/-- A record may be moved, as long as it is not in two places. -/
theorem of_recordOf? (h : r.Accounts l) (hrecord : ∀ t, r'.recordOf? t = r.recordOf? t)
    (hl : l'.events = l.events)
    (hapart : ∀ t, r'.store.ofSession? t = none ∨ r'.held.get? t = none) : r'.Accounts l' := by
  constructor
  · intro t ht
    rw [Ledger.dissentsOf_of_eq hl]
    exact h.untold t ((hrecord t).symm.trans ht)
  · intro t d hd
    rw [Ledger.dissentsOf_of_eq hl]
    exact h.told t d ((hrecord t).symm.trans hd)
  · exact hapart

/-- The ledger tells of a record that is witnessed. -/
theorem witness (h : r.Accounts l) (hnone : r.store.ofSession? s.id = none) {d : Dissent}
    (hd : Witnessing r l s c rationale now id eventId (.ok d, r', l')) : r'.Accounts l' := by
  cases hd with
  | held d hd => exact h
  | written d l' hheld hd hl =>
      have hsession : d.session = s.id := (dissentOf_eq_ok hd).2.2.2.2.1
      have hrecord : r.recordOf? s.id = none := by simp [recordOf?, hnone, hheld]
      have hget (t : SessionId) (ht : s.id ≠ t) :
          ({ r with held := r.held.insert s.id d } : Recorder).recordOf? t = r.recordOf? t := by
        simp [recordOf?, SortedMap.get?_insert, ht]
      constructor
      · intro t ht
        have hne : s.id ≠ t := by
          rintro rfl
          simp [recordOf?, hnone] at ht
        rw [hget t hne] at ht
        rw [Ledger.dissentsOf_append hl, hsession, if_neg hne, h.untold t ht, List.append_nil]
      · intro t e he
        rw [Ledger.dissentsOf_append hl, hsession]
        by_cases ht : s.id = t
        · subst ht
          obtain rfl : d = e := by simpa [recordOf?, hnone] using he
          rw [if_pos rfl, h.untold _ hrecord]
          exact ⟨hsession, eventId, rfl⟩
        · rw [hget t ht] at he
          rw [if_neg ht, List.append_nil]
          exact h.told t e he
      · intro t
        by_cases ht : s.id = t
        · exact .inl (ht ▸ hnone)
        · simpa [SortedMap.get?_insert, ht] using h.apart t

/-- Whatever fails, the accounts are right in the end. -/
theorem recording (h : r.Accounts l) {answer : Except CouncilError (Option Dissent)}
    (hrec : Recording r l s c rationale now id eventId (answer, r', l')) : r'.Accounts l' := by
  cases hrec with
  | unwritten e l' hl => exact h.of_recordOf? (fun _ => rfl) hl h.apart
  | late d r₁ l' n hnone hn hd =>
      have h₁ : r₁.Accounts l' := h.witness hnone hd
      refine h₁.of_recordOf? (hd.recordOf?_late n) rfl ?_
      intro t
      have hapart := h₁.apart t
      rw [hd.store_eq] at hapart
      exact hapart
  | stored d r₁ l' store' hnone hd hrefuses hstore =>
      have h₁ : r₁.Accounts l' := h.witness hnone hd
      refine h₁.of_recordOf? (hd.recordOf?_stored hnone hstore) rfl ?_
      intro t
      rw [hstore, SortedMap.get?_erase]
      by_cases ht : s.id = t
      · simp [ht]
      · have hapart := h₁.apart t
        rw [hd.store_eq] at hapart
        simpa [ht] using hapart
  | _ => exact h

theorem length_dissentsOf_le (h : r.Accounts l) (t : SessionId) :
    (l.dissentsOf t).length ≤ 1 := by
  cases hrecord : r.recordOf? t with
  | none => simp [h.untold t hrecord]
  | some d =>
      obtain ⟨-, id, hd⟩ := h.told t d hrecord
      simp [hd]

theorem dissentsOf_ne_nil_iff (h : r.Accounts l) (t : SessionId) :
    l.dissentsOf t ≠ [] ↔
      Xor ((r.store.ofSession? t).isSome = true) ((r.held.get? t).isSome = true) := by
  have hrecord : l.dissentsOf t ≠ [] ↔ (r.recordOf? t).isSome = true := by
    cases hrecord : r.recordOf? t with
    | none => simp [h.untold t hrecord]
    | some d =>
        obtain ⟨-, id, hd⟩ := h.told t d hrecord
        simp [hd]
  rw [hrecord, recordOf?]
  rcases h.apart t with hnone | hnone <;> simp [hnone, Xor]

theorem eq_event_of_mem (h : r.Accounts l) {t : SessionId} {e : Event}
    (he : e ∈ l.dissentsOf t) :
    ∃ d, r.recordOf? t = some d ∧ d.session = t ∧ e = d.event e.id := by
  cases hrecord : r.recordOf? t with
  | none =>
      rw [h.untold t hrecord] at he
      cases he
  | some d =>
      obtain ⟨hsession, id, hd⟩ := h.told t d hrecord
      obtain rfl : e = d.event id := by simpa [hd] using he
      exact ⟨d, rfl, hsession, rfl⟩

theorem record (h : r.Accounts l) (s : Session) (c : Consensus) (rationale : String)
    (now : Instant) (id : DissentId) (eventId : EventId) :
    (r.record l s c rationale now id eventId).2.1.Accounts
      (r.record l s c rationale now id eventId).2.2 :=
  h.recording (recording_cases h.heldOwn l s c rationale now id eventId)

end Accounts

namespace Recording

variable {r r' : Recorder} {l l' : Ledger} {s : Session} {c : Consensus} {rationale : String}
  {now : Instant} {id : DissentId} {eventId : EventId}

/-- A record that a call answers with is in the store. -/
theorem ofSession?_eq {d : Dissent}
    (h : Recording r l s c rationale now id eventId (.ok (some d), r', l')) :
    r'.store.ofSession? s.id = some d := by
  cases h with
  | known d hd => exact hd
  | stored d r₁ l' store' hnone hd hrefuses hstore => rw [hstore, if_pos rfl]

/-- The record of a session stays its record. -/
theorem recordOf?_mono {answer : Except CouncilError (Option Dissent)}
    (h : Recording r l s c rationale now id eventId (answer, r', l')) {t : SessionId} {d : Dissent}
    (hd : r.recordOf? t = some d) : r'.recordOf? t = some d := by
  cases h with
  | late e r₁ l' n hnone hn he => exact (he.recordOf?_late n t).trans (he.recordOf?_mono hnone hd)
  | stored e r₁ l' store' hnone he hrefuses hstore =>
      exact (he.recordOf?_stored hnone hstore t).trans (he.recordOf?_mono hnone hd)
  | _ => exact hd

/-- Nothing but a save that fails leaves a trace of an error. -/
theorem of_error {e : CouncilError}
    (h : Recording r l s c rationale now id eventId (.error e, r', l'))
    (he : e ≠ .storeUnavailable) : l'.events = l.events ∧ r' = r := by
  cases h with
  | refused e hledger hstore => exact ⟨rfl, rfl⟩
  | unwritten e l' hl => exact ⟨hl, rfl⟩
  | late d r₁ l' n hnone hn hd => exact absurd rfl he

end Recording

end Recorder

/-! ### A recorder at work -/

/-- A recorder and the ledger that it writes to. -/
structure Registry where
  recorder : Recorder
  ledger : Ledger

namespace Registry

/-- A session whose dissent is to be recorded, with its consensus and a reason, the time, and the
identifiers that are drawn. -/
structure Call where
  session : Session
  consensus : Consensus
  rationale : String
  now : Instant
  id : DissentId
  eventId : EventId

/-- A registry in which nothing has been recorded yet. Any append and any save may fail. -/
def blank (ledgerRefuses storeRefuses : Nat → Bool) : Registry where
  recorder := { Recorder.empty with store.refuses := storeRefuses }
  ledger := { Ledger.empty with refuses := ledgerRefuses }

/-- The answer to a call, and the registry afterwards. -/
def serve (x : Registry) (call : Call) : Except CouncilError (Option Dissent) × Registry :=
  let r := x.recorder.record x.ledger call.session call.consensus call.rationale call.now call.id
    call.eventId
  (r.1, ⟨r.2.1, r.2.2⟩)

def step (x : Registry) (call : Call) : Registry := (x.serve call).2

def run (x : Registry) (calls : List Call) : Registry := calls.foldl step x

def Accounts (x : Registry) : Prop := x.recorder.Accounts x.ledger

variable {x : Registry}

theorem accounts_blank (ledgerRefuses storeRefuses : Nat → Bool) :
    (blank ledgerRefuses storeRefuses).Accounts := by
  constructor
  · intro s _
    rfl
  · intro s d hd
    cases hd
  · intro s
    exact .inl rfl

theorem Accounts.recording (h : x.Accounts) (call : Call) :
    x.recorder.Recording x.ledger call.session call.consensus call.rationale call.now call.id
      call.eventId ((x.serve call).1, (x.serve call).2.recorder, (x.serve call).2.ledger) :=
  Recorder.recording_cases h.heldOwn ..

theorem Accounts.step (h : x.Accounts) (call : Call) : (x.step call).Accounts :=
  Recorder.Accounts.record h ..

theorem Accounts.run (h : x.Accounts) (calls : List Call) : (x.run calls).Accounts := by
  induction calls generalizing x with
  | nil => exact h
  | cons call calls ih => exact ih (h.step call)

/-- What a call answers with is the record of its session from then on. -/
theorem Accounts.recordOf?_step (h : x.Accounts) {call : Call} {d : Dissent}
    (hd : (x.serve call).1 = .ok (some d)) :
    (x.step call).recorder.recordOf? call.session.id = some d := by
  have hrecording := h.recording call
  rw [hd] at hrecording
  have hstored : (x.step call).recorder.store.ofSession? call.session.id = some d :=
    hrecording.ofSession?_eq
  rw [Recorder.recordOf?, hstored]
  rfl

theorem recordOf?_run (h : x.Accounts) (calls : List Call) {t : SessionId} {d : Dissent}
    (hd : x.recorder.recordOf? t = some d) : (x.run calls).recorder.recordOf? t = some d := by
  induction calls generalizing x with
  | nil => exact hd
  | cons call calls ih => exact ih (h.step call) ((h.recording call).recordOf?_mono hd)

/-- A session has at most one dissent on the ledger after any run, and has one just if its record is
either stored or held; the event tells of that record. What a call answers with is the record that
there was, if there was one, and that every later answer has. A call that fails before the save
changes nothing. -/
theorem witnessed_once (ledgerRefuses storeRefuses : Nat → Bool) (calls : List Call) :
    let x := (blank ledgerRefuses storeRefuses).run calls
    (∀ s, (x.ledger.dissentsOf s).length ≤ 1 ∧
      (x.ledger.dissentsOf s ≠ [] ↔
        Xor ((x.recorder.store.ofSession? s).isSome = true)
          ((x.recorder.held.get? s).isSome = true)) ∧
      ∀ e ∈ x.ledger.dissentsOf s,
        ∃ d, x.recorder.recordOf? s = some d ∧ d.session = s ∧ e = d.event e.id) ∧
    (∀ call d, (x.serve call).1 = .ok (some d) →
      (∀ d₀, x.recorder.recordOf? call.session.id = some d₀ → d = d₀) ∧
      ∀ later, let y := (x.step call).run later
        y.recorder.recordOf? call.session.id = some d ∧
        (∃ id, y.ledger.dissentsOf call.session.id = [d.event id]) ∧
        ∀ call' d', call'.session.id = call.session.id →
          (y.serve call').1 = .ok (some d') → d' = d) ∧
    ∀ call e, (x.serve call).1 = .error e → e ≠ .storeUnavailable →
      (x.step call).ledger.events = x.ledger.events ∧ (x.step call).recorder = x.recorder := by
  intro x
  have hx : x.Accounts := (accounts_blank ledgerRefuses storeRefuses).run calls
  refine ⟨fun s => ⟨hx.length_dissentsOf_le s, hx.dissentsOf_ne_nil_iff s, ?_⟩, ?_, ?_⟩
  · intro e he
    exact hx.eq_event_of_mem he
  · intro call d hd
    have hanswer := hx.recordOf?_step hd
    refine ⟨fun d₀ hd₀ => ?_, ?_⟩
    · have hkept := (hx.recording call).recordOf?_mono hd₀
      exact Option.some.inj (hanswer.symm.trans hkept)
    · intro later y
      have hy : y.Accounts := (hx.step call).run later
      have hlater : y.recorder.recordOf? call.session.id = some d :=
        recordOf?_run (hx.step call) later hanswer
      refine ⟨hlater, (hy.told _ _ hlater).2, ?_⟩
      intro call' d' hid hd'
      have hkept : (y.step call').recorder.recordOf? call.session.id = some d :=
        (hy.recording call').recordOf?_mono hlater
      have hanswer' := hy.recordOf?_step hd'
      rw [hid, hkept] at hanswer'
      exact (Option.some.inj hanswer').symm
  · intro call e he hne
    have hrecording := hx.recording call
    rw [he] at hrecording
    exact hrecording.of_error hne

/-- The first append is refused and so is the first save. What the second call holds is stored at the
third, whatever reason that gives. -/
theorem witnessed_once_after_failures :
    let s : Session := .sample 1 2 .refer .escalate .refer
    let c : Consensus :=
      { session := s.id, petition := s.petition, status := .achieved, winner := some .refer
        distribution := .ofList [(.refer, 2), (.escalate, 1)]
        majority := .ofList [⟨"a"⟩, ⟨"c"⟩]
        dissenter := some ⟨"b"⟩, resolvedAt := .epoch, flawless := by decide +kernel }
    let call (rationale : String) (n : Nat) : Call :=
      ⟨s, c, rationale, .epoch, ⟨.ofNat n⟩, ⟨.ofNat n⟩⟩
    let x := (blank (· = 1) (· = 1)).run [call "first" 1, call "second" 2]
    x.recorder.store.ofSession? s.id = none ∧
      ∃ d, x.recorder.held.get? s.id = some d ∧ d.rationale = "second" ∧
        (x.serve (call "third" 3)).1 = .ok (some d) ∧
        ∃ id, (x.step (call "third" 3)).ledger.dissentsOf s.id = [d.event id] := by
  intro s c call x
  have hstore : x.recorder.store.ofSession? s.id = none := by decide +kernel
  have hheld : (x.recorder.held.get? s.id).map Dissent.rationale = some "second" := by
    decide +kernel
  obtain ⟨d, hd, hrationale⟩ := Option.map_eq_some_iff.1 hheld
  obtain ⟨d', hd'⟩ : ∃ d', (x.serve (call "third" 3)).1 = .ok (some d') := by
    have hserved : (x.serve (call "third" 3)).1.toOption.join.isSome = true := by decide +kernel
    cases hanswer : (x.serve (call "third" 3)).1 with
    | error e => simp [hanswer, Except.toOption] at hserved
    | ok answer =>
        obtain ⟨d', rfl⟩ : ∃ d', answer = some d' := by
          simpa [hanswer, Except.toOption, Option.isSome_iff_exists] using hserved
        exact ⟨d', rfl⟩
  obtain ⟨-, hanswers, -⟩ :=
    witnessed_once (· = 1) (· = 1) [call "first" 1, call "second" 2]
  obtain ⟨hsame, hlater⟩ := hanswers (call "third" 3) d' hd'
  have hrecord : x.recorder.recordOf? s.id = some d := by
    rw [Recorder.recordOf?, hstore, hd]
    rfl
  obtain rfl : d' = d := hsame d hrecord
  exact ⟨hstore, d', hd, hrationale, hd', (hlater []).2.1⟩

end Registry

end Curia
