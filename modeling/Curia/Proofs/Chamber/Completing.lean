import Curia.Proofs.Chamber.Sitting
import Curia.Proofs.Council.Recorder
import Curia.Proofs.Router.Emission

/-!
What one call to complete a deliberation can do. All that can be refused is refused before anything
is written: once the dissent is recorded the emission succeeds, and from there on only the ledger
can fail. So a refusal leaves no trace.
-/

namespace Curia

namespace Sitting

/-- Recorder and router are in the state in which the chamber leaves them. -/
structure Ready (x : Sitting) : Prop where
  settled : x.chamber.recorder.Settled
  sound : x.chamber.router.Sound

/-! ### The dissent -/

/-- The dissent of a consensus is there: there is none, or it is known, or it has been written. -/
inductive Witnessed (r : Recorder) (l : Ledger) (s : Session) (c : Consensus) :
    Option Dissent → Recorder → Ledger → Prop
  | unanimous (hc : c.dissenter = none) : Witnessed r l s c none r l
  | known (d : Dissent) (hc : c.dissenter.isSome = true) (hd : r.store.ofSession? s.id = some d) :
      Witnessed r l s c (some d) r l
  | written (d : Dissent) (r' : Recorder) (l' : Ledger) (eventId : EventId)
      (hnone : r.store.ofSession? s.id = none) (hd : d.Follows s c)
      (hl : l'.events = l.events ++ [d.event eventId]) (hr : r'.Settled)
      (hstore : ∀ t, r'.store.ofSession? t =
        if s.id = t then some d else r.store.ofSession? t) : Witnessed r l s c (some d) r' l'

/-- What comes of recording the dissent of a consensus. -/
inductive Witnessing (ch : Chamber) (l : Ledger) (s : Session) (c : Consensus) :
    Except ChamberError (Option Dissent) × Chamber × Ledger → Prop
  | refused (e : CouncilError) (he : ∀ le, e ≠ .ledger le) :
      Witnessing ch l s c (.error (.council e), ch, l)
  | unwritten (e : LedgerError) (l' : Ledger) (hl : l'.events = l.events) :
      Witnessing ch l s c (.error (.council (.ledger e)), ch, l')
  | witnessed (d : Option Dissent) (r' : Recorder) (l' : Ledger)
      (h : Witnessed ch.recorder l s c d r' l') :
      Witnessing ch l s c (.ok d, { ch with recorder := r' }, l')

theorem recordDissent_cases {ch : Chamber} (hr : ch.recorder.Settled) (l : Ledger) {s : Session}
    {c : Consensus} {winner : Outcome} {resolved : Instant} (hc : c.Counts s winner resolved)
    (now : Instant) (ids : CompletionIds) :
    Witnessing ch l s c (ch.recordDissent l s c now ids) := by
  rw [Chamber.recordDissent]
  cases ha : c.dissenter with
  | none => exact .witnessed none ch.recorder l (.unanimous ha)
  | some a =>
      simp only
      generalize hx : ch.recorder.record l s c ((s.rationaleOf? a).getD "") now ids.dissent
        ids.dissentEvent = x
      have hcases := Recorder.record_cases hr l s c ((s.rationaleOf? a).getD "") now ids.dissent
        ids.dissentEvent
      rw [hx] at hcases
      cases hcases with
      | refused e he => exact .refused e he
      | unanimous hstatus =>
          -- someone is against the winner
          have hne : s.opposed winner ≠ [] := by
            intro hnil
            rw [hc.dissenter, hnil] at ha
            cases ha
          rw [hc.status, if_neg hne] at hstatus
          cases hstatus
      | known d hd => exact .witnessed (some d) ch.recorder l (.known d (by rw [ha]; rfl) hd)
      | unwritten e l' hl => exact .unwritten e l' hl
      | written d r' l' hnone hd hl hr' hstore =>
          exact .witnessed (some d) r' l'
            (.written d r' l' _ hnone (Recorder.dissentOf_follows hc ha hd) hl hr' hstore)

/-! ### The reports -/

/-- The dissent has been recorded and the petition routed. -/
structure Prepared (x : Sitting) (s : Session) (c : Consensus) (dissent : Option Dissent)
    (d : Disposition) (y : Sitting) : Prop where
  witnessed : Witnessed x.chamber.recorder x.ledger s c dissent y.chamber.recorder y.ledger
  emitted : x.chamber.router.Emitted s c (.ok d, y.chamber.router)
  completed : y.chamber.completed = x.chamber.completed
  appended : y.chamber.appended = x.chamber.appended

/-- The report of the completion is on the ledger, under a number. -/
inductive Appended (y : Sitting) (s : SessionId) (d : Disposition) : Nat → Sitting → Prop
  | known (n : Nat) (h : y.chamber.appended.get? s = some n) : Appended y s d n y
  | fresh (l' : Ledger) (hnone : y.chamber.appended.get? s = none)
      (hl : l'.events = y.ledger.events ++ [d.completion.event]) :
      Appended y s d (y.ledger.length + 1)
        ⟨{ y.chamber with appended := y.chamber.appended.insert s (y.ledger.length + 1) }, l'⟩

/-- The chamber once the outcome is kept. -/
def closed (ch : Chamber) (s : SessionId) (out : Completed) : Chamber :=
  { ch with appended := ch.appended.erase s, completed := ch.completed.insert s out }

/-- What comes of putting the reports on the ledger. -/
inductive Concluding (y : Sitting) (s : SessionId) (c : Consensus) (dissent : Option Dissent)
    (d : Disposition) : Except ChamberError Completed × Sitting → Prop
  | unreported (e : LedgerError) (l' : Ledger) (hl : l'.events = y.ledger.events) :
      Concluding y s c dissent d (.error (.ledger e), { y with ledger := l' })
  | unrouted (e : LedgerError) (n : Nat) (z : Sitting) (hz : Appended y s d n z) (l' : Ledger)
      (hl : l'.events = z.ledger.events) :
      Concluding y s c dissent d (.error (.ledger e), { z with ledger := l' })
  | done (n : Nat) (z : Sitting) (hz : Appended y s d n z) (l' : Ledger)
      (hl : l'.events = z.ledger.events ++ [d.routing.event]) :
      Concluding y s c dissent d
        (.ok ⟨c, dissent, d, n, z.ledger.length + 1⟩,
          ⟨closed z.chamber s ⟨c, dissent, d, n, z.ledger.length + 1⟩, l'⟩)

theorem appendCompletion_cases (y : Sitting) (s : SessionId) (d : Disposition) :
    (∃ e l', y.chamber.appendCompletion y.ledger s d = (.error (.ledger e), y.chamber, l') ∧
        l'.events = y.ledger.events) ∨
      ∃ n z, y.chamber.appendCompletion y.ledger s d = (.ok n, z.chamber, z.ledger) ∧
        Appended y s d n z := by
  rw [Chamber.appendCompletion]
  cases hn : y.chamber.appended.get? s with
  | some n => exact .inr ⟨n, y, rfl, .known n hn⟩
  | none =>
      simp only
      obtain ⟨e, l', happend, hl⟩ | ⟨l', happend, hl⟩ := y.ledger.append_cases d.completion.event
      · rw [happend]
        exact .inl ⟨e, l', rfl, hl⟩
      · rw [happend]
        exact .inr ⟨_, _, rfl, .fresh l' hn hl⟩

theorem conclude_cases (y : Sitting) (s : SessionId) (c : Consensus) (dissent : Option Dissent)
    (d : Disposition) {z : Except ChamberError Completed × Chamber × Ledger}
    (h : y.chamber.conclude y.ledger s c dissent d = z) :
    Concluding y s c dissent d (z.1, ⟨z.2.1, z.2.2⟩) := by
  subst h
  rw [Chamber.conclude]
  obtain ⟨e, l', happend, hl⟩ | ⟨n, z, happend, hz⟩ := appendCompletion_cases y s d
  · rw [happend]
    exact .unreported e l' hl
  · rw [happend]
    simp only
    obtain ⟨e, l', hroute, hl⟩ | ⟨l', hroute, hl⟩ := z.ledger.append_cases d.routing.event
    · rw [hroute]
      exact .unrouted e n z hz l' hl
    · rw [hroute]
      exact .done n z hz l' hl

/-! ### The whole call -/

/-- What comes of completing a deliberation. -/
inductive Completing (x : Sitting) (s : Session) :
    Except ChamberError Completed × Sitting → Prop
  | known (out : Completed) (h : x.chamber.completed.get? s.id = some out) :
      Completing x s (.ok out, x)
  | refused (e : ChamberError) (he : ∀ le, e ≠ .ledger le) (he' : ∀ le, e ≠ .council (.ledger le)) :
      Completing x s (.error e, x)
  | unwritten (e : LedgerError) (l' : Ledger) (hl : l'.events = x.ledger.events) :
      Completing x s (.error (.council (.ledger e)), { x with ledger := l' })
  | disposed (c : Consensus) (winner : Outcome) (now : Instant) (dissent : Option Dissent)
      (d : Disposition) (y : Sitting) (hnone : x.chamber.completed.get? s.id = none)
      (hall : s.AllVoted) (hc : c.Counts s winner now) (hy : Prepared x s c dissent d y)
      (z : Except ChamberError Completed × Sitting) (hz : Concluding y s.id c dissent d z) :
      Completing x s z

theorem resolve_ne_ledger {r : Resolver} {s : Session} {votes : Ballot} {now : Instant}
    {e : CouncilError} (h : r.resolve s votes now = .error e) (le : LedgerError) :
    e ≠ .ledger le := by
  rintro rfl
  rw [Resolver.resolve] at h
  split at h
  · cases h
  · split at h
    · cases h
    · obtain ⟨flaw, -, he⟩ := Consensus.ofDraft_eq_error_iff.1 h
      cases he

theorem complete_cases {x : Sitting} (hx : x.Ready) {s : Session} (hs : s.Valid) (p : Petition)
    (times : CompletionTimes) (ids : CompletionIds) :
    Completing x s (x.complete s p times ids) := by
  rw [complete, Chamber.complete]
  cases hout : x.chamber.completed.get? s.id with
  | some out => exact .known out hout
  | none =>
      simp only
      cases hresolve : x.chamber.resolver.resolve s s.voteMap times.resolved with
      | error e =>
          refine .refused _ (fun le h => by cases h) fun le h => ?_
          exact resolve_ne_ledger hresolve le (ChamberError.council.inj h)
      | ok c =>
          simp only
          obtain ⟨hall, winner, hc⟩ := Resolver.counts_of_resolve hs hresolve
          cases hcheck : x.chamber.router.precheck s c p with
          | error e => exact .refused _ (fun le h => by cases h) fun le h => by cases h
          | ok pipeline =>
              simp only [Chamber.dispose]
              generalize hy : x.chamber.recordDissent x.ledger s c times.dissent ids = y
              have hcases := recordDissent_cases hx.settled x.ledger hc times.dissent ids
              rw [hy] at hcases
              cases hcases with
              | refused e he =>
                  refine .refused _ (fun le h => by cases h) fun le h => ?_
                  exact he le (ChamberError.council.inj h)
              | unwritten e l' hl => exact .unwritten e l' hl
              | witnessed dissent r' l' hwitnessed =>
                  simp only
                  -- the dissent is written, and nothing that follows refuses the disposition
                  obtain ⟨d, router, hemit⟩ :=
                    Router.emit_of_precheck hx.sound hs hall hc hcheck times.routed ids.completion
                      ids.routing
                  have hemitted := Router.emit_cases x.chamber.router s c p times.routed
                    ids.completion ids.routing
                  rw [hemit] at hemitted ⊢
                  let y : Sitting := ⟨{ x.chamber with recorder := r', router }, l'⟩
                  exact .disposed c winner times.resolved dissent d y hout hall hc
                    ⟨hwitnessed, hemitted, rfl, rfl⟩ _ (conclude_cases y s.id c dissent d rfl)

/-! ### Every state that a chamber comes to -/

theorem Appended.kept {y z : Sitting} {s : SessionId} {d : Disposition} {n : Nat}
    (h : Appended y s d n z) : z.chamber.recorder = y.chamber.recorder ∧
      z.chamber.router = y.chamber.router ∧ z.chamber.completed = y.chamber.completed := by
  cases h with
  | known n h => exact ⟨rfl, rfl, rfl⟩
  | fresh l' hnone hl => exact ⟨rfl, rfl, rfl⟩

theorem Concluding.kept {y : Sitting} {s : SessionId} {c : Consensus} {dissent : Option Dissent}
    {d : Disposition} {z : Except ChamberError Completed × Sitting}
    (h : Concluding y s c dissent d z) : z.2.chamber.recorder = y.chamber.recorder ∧
      z.2.chamber.router = y.chamber.router := by
  cases h with
  | unreported e l' hl => exact ⟨rfl, rfl⟩
  | unrouted e n z hz l' hl => exact ⟨hz.kept.1, hz.kept.2.1⟩
  | done n z hz l' hl => exact ⟨hz.kept.1, hz.kept.2.1⟩

theorem Witnessed.settled {r r' : Recorder} {l l' : Ledger} {s : Session} {c : Consensus}
    {d : Option Dissent} (h : Witnessed r l s c d r' l') (hr : r.Settled) : r'.Settled := by
  cases h with
  | unanimous hc => exact hr
  | known d hc hd => exact hr
  | written d r' l' eventId hnone hd hl hr' hstore => exact hr'

namespace Ready

theorem opened {config : Config} {ch : Chamber} (h : Chamber.new config = .ok ch) (l : Ledger) :
    Ready ⟨ch, l⟩ := by
  rw [Chamber.new] at h
  split at h
  · cases h
  · cases h
    exact ⟨Recorder.empty_settled, .new _⟩

theorem prepared {x y : Sitting} (hx : x.Ready) {s : Session} {c : Consensus}
    {dissent : Option Dissent} {d : Disposition} (hy : Prepared x s c dissent d y) : y.Ready :=
  ⟨hy.witnessed.settled hx.settled, hx.sound.emitted hy.emitted⟩

theorem aside {x y : Sitting} (hx : x.Ready) (h : x.Aside y) : y.Ready := by
  refine ⟨h.recorder ▸ hx.settled, ?_⟩
  constructor
  · rw [h.emitted, h.table]
    exact hx.sound.coherent
  · rw [h.emitted]
    exact hx.sound.session
  · rw [h.emitted, h.reserved]
    exact hx.sound.reserved_iff

theorem complete {x : Sitting} (hx : x.Ready) {s : Session} (hs : s.Valid) (p : Petition)
    (times : CompletionTimes) (ids : CompletionIds) : (x.complete s p times ids).2.Ready := by
  generalize hz : x.complete s p times ids = z
  have hcases := complete_cases hx hs p times ids
  rw [hz] at hcases
  cases hcases with
  | known out h => exact hx
  | refused e he he' => exact hx
  | unwritten e l' hl => exact ⟨hx.settled, hx.sound⟩
  | disposed c winner now dissent d y hnone hall hc hy z hz =>
      have hready := hx.prepared hy
      exact ⟨hz.kept.1 ▸ hready.settled, hz.kept.2 ▸ hready.sound⟩

theorem step {x : Sitting} (hx : x.Ready) {call : Call}
    (hs : ∀ s, call.session? = some s → s.Arises) : (x.step call).Ready := by
  cases call with
  | complete s p times ids => exact hx.complete (hs s rfl).valid p times ids
  | acknowledge petition p => exact hx.aside (x.step_aside _ trivial rfl)
  | filter library c text kind submitter id => exact hx.aside (x.step_aside _ trivial rfl)
  | send library c deliver text kind submitter id => exact hx.aside (x.step_aside _ trivial rfl)
  | append e => exact ⟨hx.settled, hx.sound⟩
  | record s c rationale now id eventId =>
      exact ⟨Recorder.settled_record hx.settled .., hx.sound⟩
  | emit s c p now completionId routingId =>
      exact ⟨hx.settled, hx.sound.emitted (Router.emit_cases ..)⟩

theorem run {x : Sitting} (hx : x.Ready) {calls : List Call} (hs : ∀ s ∈ passed calls, s.Arises) :
    (x.run calls).Ready :=
  run_induction (fun _ _ hx hcall => hx.step hcall) hx hs

end Ready

/-- Unless it is a report of the completion or of the routing that the ledger does not take, a call
that fails leaves everything as it was. -/
theorem refused_changes_nothing {config : Config} {ch : Chamber} (hch : Chamber.new config = .ok ch)
    (l : Ledger) {calls : List Call} (hcalls : ∀ s ∈ passed calls, s.Arises) {s : Session}
    (hs : s.Arises) (p : Petition) (times : CompletionTimes) (ids : CompletionIds)
    {e : ChamberError}
    {y : Sitting} (h : (run ⟨ch, l⟩ calls).complete s p times ids = (.error e, y))
    (he : ∀ le, e ≠ .ledger le) :
    y.chamber = (run ⟨ch, l⟩ calls).chamber ∧
      y.ledger.events = (run ⟨ch, l⟩ calls).ledger.events ∧
      ((∀ le, e ≠ .council (.ledger le)) → y = run ⟨ch, l⟩ calls) := by
  have hready : (run ⟨ch, l⟩ calls).Ready := (Ready.opened hch l).run hcalls
  have hcases := complete_cases hready hs.valid p times ids
  rw [h] at hcases
  cases hcases with
  | refused e he he' => exact ⟨rfl, rfl, fun _ => rfl⟩
  | unwritten e l' hl => exact ⟨rfl, hl, fun hne => absurd rfl (hne e)⟩
  | disposed c winner now dissent d y hnone hall hc hy z hz =>
      cases hz with
      | unreported e l' hl => exact absurd rfl (he e)
      | unrouted e n z hz l' hl => exact absurd rfl (he e)

/-- A petition that one session has routed is refused when another session comes with it, and the
dissent in that session is not recorded. -/
theorem refused_changes_nothing_of_routed :
    let x := run ⟨.standard, .empty⟩ [.complete (.sample 1 2 .refer .refer .refer) (.sample 2)
      (.sample 0) (.sample 10)]
    x.complete (.sample 3 2 .refer .refer .escalate) (.sample 2) (.sample 1) (.sample 20) =
      (.error (.routing (.alreadyRouted ⟨.ofNat 2⟩ ⟨.ofNat 1⟩)), x) := by
  intro x
  have herror : (x.complete (.sample 3 2 .refer .refer .escalate) (.sample 2) (.sample 1)
      (.sample 20)).1 = .error (.routing (.alreadyRouted ⟨.ofNat 2⟩ ⟨.ofNat 1⟩)) := by
    rfl
  have hcalls (s : Session) (hs : s ∈ passed [.complete (.sample 1 2 .refer .refer .refer)
      (.sample 2) (.sample 0) (.sample 10)]) : s.Arises := by
    obtain rfl := List.mem_singleton.1 hs
    exact Session.sample_arises ..
  have hkept := refused_changes_nothing Chamber.new_standard .empty hcalls
    (Session.sample_arises 3 2 .refer .refer .escalate) (.sample 2) (.sample 1) (.sample 20)
    (Prod.ext herror rfl) fun le h => by cases h
  exact Prod.ext herror (hkept.2.2 fun le h => by cases h)

end Sitting

end Curia
