import Curia.Proofs.Chamber.Sitting
import Curia.Proofs.Router.Emission
import Curia.Proofs.Router.Reasons

/-!
The reasons for the votes, and what they have an effect on. Nothing that a chamber decides depends
on them: with other reasons it does the same, and what it writes differs only where it repeats a
reason or the digest of one.
-/

namespace Curia

/-! ### The chamber -/

def Completed.bare (out : Completed) : Completed :=
  { out with dissent := out.dissent.map Dissent.bare, disposition := out.disposition.bare }

namespace Chamber

def bare (ch : Chamber) : Chamber :=
  { ch with
    recorder := ch.recorder.bare
    router := ch.router.bare
    completed := ch.completed.map Completed.bare }

@[simp] theorem bare_recorder (ch : Chamber) : ch.bare.recorder = ch.recorder.bare := rfl
@[simp] theorem bare_router (ch : Chamber) : ch.bare.router = ch.router.bare := rfl
@[simp] theorem bare_filter (ch : Chamber) : ch.bare.filter = ch.filter := rfl
@[simp] theorem bare_appended (ch : Chamber) : ch.bare.appended = ch.appended := rfl
@[simp] theorem bare_resolver (ch : Chamber) : ch.bare.resolver = ch.resolver := rfl

theorem get?_completed_bare (ch : Chamber) (s : SessionId) :
    ch.bare.completed.get? s = (ch.completed.get? s).map Completed.bare :=
  SortedMap.get?_map ..

variable (ch : Chamber) (l : Ledger) (s : Session) (c : Consensus) (p : Petition)
  (times : CompletionTimes) (ids : CompletionIds)

theorem recordDissent_bare (now : Instant) : ch.bare.recordDissent l.bare s.bare c now ids =
    (ch.recordDissent l s c now ids).map (Except.map (Option.map Dissent.bare))
      (Prod.map bare Ledger.bare) := by
  rw [recordDissent, recordDissent]
  cases c.dissenter with
  | none => rfl
  | some a =>
      simp only [s.rationaleOf?_bare, bare_recorder]
      rw [ch.recorder.record_bare l s c ((s.rationaleOf? a).getD "") now ids.dissent
        ids.dissentEvent]
      generalize ch.recorder.record l s c _ now ids.dissent ids.dissentEvent = z
      obtain ⟨answer, recorder, l'⟩ := z
      cases answer <;> rfl

theorem appendCompletion_bare (session : SessionId) (d : Disposition) :
    ch.bare.appendCompletion l.bare session d.bare =
      (ch.appendCompletion l session d).map id (Prod.map bare Ledger.bare) := by
  have hevent : d.bare.completion.event = d.completion.event.bare := d.completion.event_bare.symm
  rw [appendCompletion, appendCompletion, bare_appended]
  cases ch.appended.get? session with
  | some n => rfl
  | none =>
      simp only [hevent]
      rw [l.append_bare]
      generalize l.append d.completion.event = z
      obtain ⟨answer, l'⟩ := z
      cases answer <;> rfl

theorem conclude_bare (session : SessionId) (dissent : Option Dissent) (d : Disposition) :
    ch.bare.conclude l.bare session c (dissent.map Dissent.bare) d.bare =
      (ch.conclude l session c dissent d).map (Except.map Completed.bare)
        (Prod.map bare Ledger.bare) := by
  rw [conclude, conclude, appendCompletion_bare]
  generalize ch.appendCompletion l session d = z
  obtain ⟨answer, ch', l'⟩ := z
  cases answer with
  | error e => rfl
  | ok n =>
      have happend : l'.bare.append d.routing.event = (l'.append d.routing.event).map id
          Ledger.bare := by
        rw [← l'.append_bare, d.routing.event_bare]
      simp only [Prod.map, id, Disposition.bare_routing, happend]
      generalize l'.append d.routing.event = z
      obtain ⟨answer, l''⟩ := z
      cases answer with
      | error e => rfl
      | ok m =>
          show (_, _, _) = (_, _, _)
          rw [bare, bare, SortedMap.map_insert]
          rfl

theorem complete_bare : ch.bare.complete l.bare s.bare p times ids =
    (ch.complete l s p times ids).map (Except.map Completed.bare) (Prod.map bare Ledger.bare) := by
  rw [complete, complete, Session.bare_id, get?_completed_bare]
  cases ch.completed.get? s.id with
  | some done => rfl
  | none =>
      simp only [Option.map_none]
      rw [bare_resolver, Resolver.resolve_bare]
      cases ch.resolver.resolve s s.voteMap times.resolved with
      | error e => rfl
      | ok c =>
          simp only [bare_router]
          rw [Router.precheck_bare]
          cases ch.router.precheck s c p with
          | error e => rfl
          | ok pipeline =>
              simp only [dispose]
              rw [recordDissent_bare]
              generalize ch.recordDissent l s c times.dissent ids = z
              obtain ⟨answer, ch', l'⟩ := z
              cases answer with
              | error e => rfl
              | ok dissent =>
                  simp only [Prod.map, Except.map, bare_router]
                  rw [Router.emit_bare]
                  generalize ch'.router.emit s c p times.routed ids.completion ids.routing = z
                  obtain ⟨answer, router⟩ := z
                  cases answer with
                  | error e => rfl
                  | ok d => exact conclude_bare { ch' with router } l' c s.id dissent d

end Chamber

/-! ### Messages -/

theorem Filter.audit_bare (f : Filter) (l : Ledger) (d : Decision) :
    f.audit l.bare d = (f.audit l d).map id (Prod.map id Ledger.bare) := by
  rw [audit, audit]
  generalize logHeld f.held f.log = z
  obtain ⟨answer, held, log⟩ := z
  cases answer with
  | error e => rfl
  | ok _ =>
      simp only
      rw [← d.event_bare, l.append_bare, d.event_bare]
      generalize l.append d.event = z
      obtain ⟨answer, l'⟩ := z
      cases answer with
      | error e => rfl
      | ok n =>
          simp only [Prod.map, id]
          generalize log.append d = z
          obtain ⟨answer, log'⟩ := z
          cases answer <;> rfl

theorem Filter.run_bare (f : Filter) (library : Option Library) (c : Clock) (l : Ledger)
    (text : String) (kind : MessageKind) (submitter : String) (decision : DecisionId) :
    f.run library c l.bare text kind submitter decision =
      (f.run library c l text kind submitter decision).map id
        (Prod.map id (Prod.map id Ledger.bare)) := by
  rw [run, run]
  simp only
  rw [audit_bare]
  generalize f.audit l _ = z
  obtain ⟨answer, f', l'⟩ := z
  cases answer <;> rfl

theorem Chamber.filterMessage_bare (ch : Chamber) (library : Option Library) (c : Clock)
    (l : Ledger) (text : String) (kind : MessageKind) (submitter : String)
    (decision : DecisionId) :
    ch.bare.filterMessage library c l.bare text kind submitter decision =
      (ch.filterMessage library c l text kind submitter decision).map id
        (Prod.map bare (Prod.map id Ledger.bare)) := by
  rw [filterMessage, filterMessage, bare_filter, Filter.run_bare]
  generalize ch.filter.run library c l text kind submitter decision = z
  obtain ⟨answer, filter, c', l'⟩ := z
  cases answer <;> rfl

/-! ### Sittings -/

/-- The call in which every reason is left out. -/
def Call.bare : Call → Call
  | complete s p times ids => complete s.bare p times ids
  | append e => append e.bare
  | record s c _ now id eventId => record s.bare c "" now id eventId
  | emit s c p now completionId routingId => emit s.bare c p now completionId routingId
  | call => call

namespace Sitting

def bare (x : Sitting) : Sitting := ⟨x.chamber.bare, x.ledger.bare⟩

@[simp] theorem bare_chamber (x : Sitting) : x.bare.chamber = x.chamber.bare := rfl
@[simp] theorem bare_ledger (x : Sitting) : x.bare.ledger = x.ledger.bare := rfl

theorem complete_bare (x : Sitting) (s : Session) (p : Petition) (times : CompletionTimes)
    (ids : CompletionIds) : x.bare.complete s.bare p times ids =
      (x.complete s p times ids).map (Except.map Completed.bare) bare := by
  simp only [complete, bare_chamber, bare_ledger, Chamber.complete_bare]
  rfl

/-- What a call does has nothing to do with reasons. -/
theorem step_bare (x : Sitting) (call : Call) : x.bare.step call.bare = (x.step call).bare := by
  cases call with
  | complete s p times ids => exact congrArg Prod.snd (x.complete_bare s p times ids)
  | acknowledge petition p => rfl
  | filter library c text kind submitter id =>
      simp only [Call.bare, step, bare_chamber, bare_ledger, Chamber.filterMessage_bare]
      rfl
  | send library c deliver text kind submitter id =>
      simp only [Call.bare, step, send_eq_filterMessage, bare_chamber, bare_ledger,
        Chamber.filterMessage_bare]
      rfl
  | append e =>
      simp only [Call.bare, step, bare_ledger, Ledger.append_bare]
      rfl
  | record s c rationale now id eventId =>
      simp only [Call.bare, step, bare_chamber, bare_ledger, Chamber.bare_recorder]
      rw [x.chamber.recorder.record_bare x.ledger s c rationale]
      rfl
  | emit s c p now completionId routingId =>
      simp only [Call.bare, step, bare_chamber, Chamber.bare_router, Router.emit_bare]
      rfl

theorem run_bare (x : Sitting) (calls : List Call) :
    x.bare.run (calls.map Call.bare) = (x.run calls).bare := by
  induction calls generalizing x with
  | nil => rfl
  | cons call calls ih =>
      show (x.bare.step call.bare).run (calls.map Call.bare) = ((x.step call).run calls).bare
      rw [step_bare, ih]

/-- Sittings that differ in nothing but reasons, and are asked the same but for reasons, leave the
same events, save for the reasons in the reports of completions and the digests in the reports of
dissents. -/
theorem events_alike {x y : Sitting} (hxy : x.bare = y.bare) {calls more : List Call}
    (hcalls : calls.map Call.bare = more.map Call.bare) :
    (x.run calls).ledger.events.map Event.bare = (y.run more).ledger.events.map Event.bare := by
  have hrun : (x.run calls).bare = (y.run more).bare := by
    rw [← run_bare, ← run_bare, hxy, hcalls]
  exact congrArg (fun z => z.ledger.events) hrun

end Sitting

/-- A session of which all is witnessed and in which two archons have voted against one, all with
the same reason. -/
def Session.argued (reason : String) : Session :=
  play
    { id := ⟨.ofNat 1⟩
      petition := ⟨.ofNat 2⟩
      archons := [⟨"a"⟩, ⟨"b"⟩, ⟨"c"⟩]
      phase := .assessment
      transcripts := ∅
      votes := ∅
      outcome := none
      dissenter := none
      completedAt := none }
    (witnessing ++
      [.vote ⟨"a"⟩ ⟨.refer, reason⟩, .vote ⟨"b"⟩ ⟨.refer, reason⟩,
        .vote ⟨"c"⟩ ⟨.escalate, reason⟩])

theorem Session.argued_arises (reason : String) : (argued reason).Arises :=
  ⟨⟨.ofNat 1⟩, ⟨.ofNat 2⟩, [⟨"a"⟩, ⟨"b"⟩, ⟨"c"⟩], _, rfl, evolves_play _ _⟩

namespace Sitting

theorem events_alike_argued :
    let s : Session := .argued "just"
    let t : Session := .argued "unjust"
    let x : Sitting := ⟨.standard, .empty⟩
    let y := x.run [.complete s (.sample 2) (.sample 0) (.sample 10)]
    let z := x.run [.complete t (.sample 2) (.sample 0) (.sample 10)]
    s ≠ t ∧ s.bare = t.bare ∧ y.ledger.length = 3 ∧
      y.ledger.events.map Event.bare = z.ledger.events.map Event.bare := by
  intro s t x y z
  have hbare : s.bare = t.bare := by decide +kernel
  refine ⟨by decide +kernel, hbare, by decide +kernel, events_alike rfl ?_⟩
  simp only [List.map_cons, List.map_nil, Call.bare, hbare]

/-- The text of a reason is on the ledger: the same votes with other reasons are reported with the
other reasons. -/
theorem reasons_reported :
    let s : Session := .argued "just"
    let t : Session := .argued "unjust"
    let x : Sitting := ⟨.standard, .empty⟩
    let y := x.run [.complete s (.sample 2) (.sample 0) (.sample 10)]
    let z := x.run [.complete t (.sample 2) (.sample 0) (.sample 10)]
    let reason? (e : Event) : Option Json :=
      ((e.payload.member? "vote_breakdown").bind (Json.member? "a")).bind
        (Json.member? "rationale")
    s.Arises ∧ t.Arises ∧ s.AllVoted ∧ t.AllVoted ∧ s.bare = t.bare ∧
      ∃ e f, y.ledger.event? 2 = some e ∧ z.ledger.event? 2 = some f ∧
        e.kind = Completion.eventKind ∧ f.kind = Completion.eventKind ∧
        reason? e = some (.string "just") ∧ reason? f = some (.string "unjust") := by
  intro s t x y z reason?
  have hs : (y.ledger.event? 2).map (fun e => (e.kind, reason? e)) =
      some (Completion.eventKind, some (.string "just")) := by
    decide +kernel
  have ht : (z.ledger.event? 2).map (fun e => (e.kind, reason? e)) =
      some (Completion.eventKind, some (.string "unjust")) := by
    decide +kernel
  obtain ⟨e, he, hvalues⟩ := Option.map_eq_some_iff.1 hs
  obtain ⟨f, hf, hvalues'⟩ := Option.map_eq_some_iff.1 ht
  obtain ⟨hkind, hreason⟩ := Prod.mk.inj hvalues
  obtain ⟨hkind', hreason'⟩ := Prod.mk.inj hvalues'
  exact ⟨Session.argued_arises _, Session.argued_arises _, by decide +kernel, by decide +kernel,
    by decide +kernel, e, f, he, hf, hkind, hkind', hreason, hreason'⟩

end Sitting

end Curia
