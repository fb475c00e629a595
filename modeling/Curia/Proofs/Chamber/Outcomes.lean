import Curia.Proofs.Chamber.Account

/-!
What an orderly sitting leaves behind. Each session is reported at most once in each way and each
petition by one session only; an outcome that has been answered is on the ledger, is answered again
for ever, and agrees with itself in all its parts.
-/

namespace Curia

namespace Ledger

/-- Every report names its session and its petition; the reports of a session are of different kinds
and in the order of the kinds; all reports of a petition are of one session. -/
structure WellReported (l : Ledger) : Prop where
  named : ∀ e ∈ l.events, e.IsReport → ∃ s p, e.session? = some s ∧ e.petition? = some p
  ordered : ∀ s, ((l.reportsOf s).map Event.kind).Sublist Event.reportKinds
  session_eq : ∀ e ∈ l.events, ∀ e' ∈ l.events, e.IsReport → e'.IsReport →
    e.petition? = e'.petition? → e.session? = e'.session?

/-- The reports of a session are those of the outcome, the last two under the numbers that the
outcome gives. -/
structure Tells (l : Ledger) (s : SessionId) (out : Completed) : Prop where
  reports : ∃ es, Sitting.Told out.dissent es ∧
    l.reportsOf s = es ++ [out.disposition.completion.event, out.disposition.routing.event]
  completion : l.event? out.completionSequence = some out.disposition.completion.event
  routing : l.event? out.routingSequence = some out.disposition.routing.event

end Ledger

/-- The outcome agrees with itself, with the votes of the session and with the table of pipelines. -/
structure Completed.Coherent (out : Completed) (table : RoutingTable) (s : Session) : Prop where
  winner : out.consensus.winner = some out.disposition.completion.outcome
  routing_outcome : out.disposition.routing.outcome = out.disposition.completion.outcome
  pending_outcome : out.disposition.pending.outcome = out.disposition.completion.outcome
  votes_size : s.votes.size = 3
  support : 2 ≤ s.support out.disposition.completion.outcome
  pipeline : table.get? out.disposition.completion.outcome = some out.disposition.pipeline
  routing_pipeline : out.disposition.routing.pipeline = out.disposition.pipeline
  pending_pipeline : out.disposition.pending.pipeline = out.disposition.pipeline
  dissent_consensus : out.dissent.isSome = out.consensus.hasDissent
  dissent_completion : out.dissent.isSome = out.disposition.completion.hasDissent
  consensus_archon : ∀ d ∈ out.dissent, out.consensus.dissenter = some d.archon
  completion_archon : ∀ d ∈ out.dissent, out.disposition.completion.dissenter = some d.archon
  vote : ∀ d ∈ out.dissent, s.votes.get? d.archon = some ⟨d.outcome, d.rationale⟩
  dissent_outcome : ∀ d ∈ out.dissent, out.disposition.completion.dissent = some d.outcome
  majority : ∀ d ∈ out.dissent, d.majority = out.disposition.completion.outcome
  hash : ∀ d ∈ out.dissent, d.rationaleHash = Digest.ofText d.rationale
  session : out.consensus.session = s.id ∧ out.disposition.completion.session = s.id ∧
    out.disposition.routing.session = s.id ∧ out.disposition.pending.session = s.id ∧
    ∀ d ∈ out.dissent, d.session = s.id
  petition : out.consensus.petition = s.petition ∧
    out.disposition.completion.petition = s.petition ∧
    out.disposition.routing.petition = s.petition ∧
    out.disposition.pending.petition = s.petition ∧ ∀ d ∈ out.dissent, d.petition = s.petition

namespace Sitting

/-! ### The grounds of an outcome -/

namespace Grounds

/-- Any state in which all have voted is as good a ground as another. -/
theorem akin {u v : Session} {c : Consensus} {dissent : Option Dissent} {d : Disposition}
    (h : Grounds u c dissent d) (huv : u.Akin v) (hu : u.Valid) (hv : v.Valid)
    (hall : v.AllVoted) : Grounds v c dissent d := by
  have hvotes : v.votes = u.votes := huv.votes_eq hu hv h.allVoted hall
  have hsame : u.SameCount c v c := ⟨huv.id_eq, huv.petition_eq, hvotes, rfl, rfl⟩
  obtain ⟨winner, now, hc⟩ := h.counts
  refine ⟨hall, ⟨winner, now, hc.congr huv.id_eq huv.petition_eq hvotes⟩,
    h.disposition.congr hsame, h.dissent_isSome, fun r hr => (h.dissent r hr).congr hsame⟩

theorem dissent_iff {u : Session} {c : Consensus} {dissent : Option Dissent} {d : Disposition}
    (h : Grounds u c dissent d) (hu : u.Valid) : dissent.isSome = true ↔ u.IsSplit := by
  obtain ⟨winner, now, hc⟩ := h.counts
  rw [h.dissent_isSome, hc.dissenter, Session.isSplit_iff (hu.votes_size h.allVoted) hc.support]
  cases u.opposed winner <;> simp

theorem coherent {u : Session} {out : Completed} {table : RoutingTable}
    (h : Grounds u out.consensus out.dissent out.disposition) (hu : u.Valid)
    (hd : out.disposition.Coherent table) : out.Coherent table u := by
  obtain ⟨winner, now, hc⟩ := h.counts
  have hwinner : winner = out.disposition.completion.outcome :=
    Option.some.inj (hc.winner_eq.symm.trans h.disposition.winner)
  have hdissenter : out.disposition.completion.dissenter = out.consensus.dissenter :=
    h.disposition.dissenter
  constructor
  · exact h.disposition.winner
  · exact hd.routing_outcome
  · exact hd.pending_outcome
  · exact hu.votes_size h.allVoted
  · exact hwinner ▸ hc.support
  · exact hd.table
  · exact hd.routing_pipeline
  · exact hd.pending_pipeline
  · exact h.dissent_isSome
  · rw [h.dissent_isSome, Completion.hasDissent, hdissenter]
  · exact fun r hr => (h.dissent r hr).archon
  · exact fun r hr => hdissenter.trans (h.dissent r hr).archon
  · exact fun r hr => (h.dissent r hr).vote
  · intro r hr
    have hr := h.dissent r hr
    rw [hd.dissent, hdissenter, hr.archon, h.disposition.votes]
    exact congrArg (Option.map Vote.outcome) hr.vote
  · intro r hr
    exact Option.some.inj ((h.dissent r hr).majority.symm.trans h.disposition.winner)
  · exact fun r hr => (h.dissent r hr).hash
  · exact ⟨hc.session, h.disposition.session, hd.routing_session.trans h.disposition.session,
      hd.pending_session.trans h.disposition.session, fun r hr => (h.dissent r hr).session⟩
  · exact ⟨hc.petition, h.disposition.petition, hd.routing_petition.trans h.disposition.petition,
      hd.pending_petition.trans h.disposition.petition, fun r hr => (h.dissent r hr).petition⟩

end Grounds

/-- What is answered has been kept, and all states passed for the session bear it out. -/
theorem closed_of_complete {config : Config} {ch : Chamber} (hch : Chamber.new config = .ok ch)
    {l : Ledger} {calls : List Call} {s : Session} {p : Petition} {times : CompletionTimes}
    {ids : CompletionIds} (hcalls : Orderly (calls ++ [.complete s p times ids])) {out : Completed}
    {y : Sitting} (h : (run ⟨ch, l⟩ calls).complete s p times ids = (.ok out, y)) :
    Closed (l.reportsOf s.id) (passed (calls ++ [.complete s p times ids])) y s.id out ∧
      out.disposition.Coherent config.routing := by
  have hy : y = run ⟨ch, l⟩ (calls ++ [.complete s p times ids]) := by
    rw [run_concat, step, h]
  have hbefore := accounted_run hch l hcalls.left
  have hout : y.chamber.completed.get? s.id = some out :=
    (hbefore.complete hcalls.last.1 hcalls.last.2 p times ids h).2 out rfl
  have haccounted := accounted_run hch l hcalls
  rw [← hy] at haccounted
  -- an outcome is kept at the last stage only
  cases haccounted.stage s.id with
  | idle entry reports =>
      rw [(entry_eq_iff.1 entry).2.2.2] at hout
      cases hout
  | underway c dissent d number hunderway =>
      rw [(entry_eq_iff.1 hunderway.entry).2.2.2] at hout
      cases hout
  | closed out' hclosed =>
      obtain ⟨-, hemitted, -, hcompleted⟩ := entry_eq_iff.1 hclosed.entry
      obtain rfl : out' = out := Option.some.inj (hcompleted.symm.trans hout)
      exact ⟨hclosed, haccounted.table ▸ haccounted.ready.sound.coherent hemitted⟩

/-! ### The ledger -/

theorem told_kinds {dissent : Option Dissent} {es : List Event} (h : Told dissent es) :
    es.map Event.kind = [] ∨ es.map Event.kind = [Dissent.eventKind] := by
  cases dissent with
  | none => exact .inl (congrArg _ h)
  | some r =>
      obtain ⟨id, rfl⟩ := h
      exact .inr rfl

/-- Wherever the deliberation has got, the reports are of different kinds and in order. -/
theorem Stage.ordered {history : List Session} {x : Sitting} {s : SessionId}
    (h : Stage [] history x s) :
    ((x.ledger.reportsOf s).map Event.kind).Sublist Event.reportKinds := by
  cases h with
  | idle entry reports =>
      rw [reports]
      exact List.nil_sublist _
  | underway c dissent d number h =>
      obtain ⟨es, htold, hreports⟩ := h.reports
      rw [hreports, List.nil_append, List.map_append]
      cases number <;> rcases told_kinds htold with hes | hes <;> rw [hes] <;>
        simp [Event.reportKinds]
  | closed out h =>
      obtain ⟨es, htold, hreports⟩ := h.reports
      rw [hreports, List.nil_append, List.map_append]
      rcases told_kinds htold with hes | hes <;> rw [hes] <;> simp [Event.reportKinds]

theorem Grounded.petition_of_told {history : List Session} {s : SessionId} {c : Consensus}
    {dissent : Option Dissent} {d : Disposition} (h : Grounded history s c dissent d)
    {es : List Event} (htold : Told dissent es) {e : Event} (he : e ∈ es) :
    e.petition? = some d.completion.petition := by
  obtain ⟨u, -, -, hgrounds⟩ := h
  cases dissent with
  | none =>
      rw [htold] at he
      cases he
  | some r =>
      obtain ⟨id, rfl⟩ := htold
      obtain rfl := List.mem_singleton.1 he
      rw [r.event_petition?, (hgrounds.dissent r rfl).petition, hgrounds.disposition.petition]

/-- What is reported of a session is about the petition that it has routed. -/
theorem Stage.petition {history : List Session} {x : Sitting} {s : SessionId} (hx : x.Ready)
    (h : Stage [] history x s) {e : Event} (he : e ∈ x.ledger.reportsOf s) :
    ∃ d, x.chamber.router.emitted.get? s = some d ∧ e.petition? = some d.completion.petition := by
  cases h with
  | idle entry reports =>
      rw [reports] at he
      cases he
  | underway c dissent d number h =>
      obtain ⟨es, htold, hreports⟩ := h.reports
      refine ⟨d, (entry_eq_iff.1 h.entry).2.1, ?_⟩
      rw [hreports, List.nil_append, List.mem_append] at he
      rcases he with he | he
      · exact h.grounded.petition_of_told htold he
      · obtain ⟨-, -, rfl⟩ := List.mem_map.1 he
        exact d.completion.event_petition?
  | closed out h =>
      obtain ⟨es, htold, hreports⟩ := h.reports
      have hemitted := (entry_eq_iff.1 h.entry).2.1
      refine ⟨out.disposition, hemitted, ?_⟩
      rw [hreports, List.nil_append, List.mem_append] at he
      rcases he with he | he
      · exact h.grounded.petition_of_told htold he
      · rcases List.mem_cons.1 he with rfl | he
        · exact out.disposition.completion.event_petition?
        · obtain rfl := List.mem_singleton.1 he
          rw [out.disposition.routing.event_petition?,
            (hx.sound.coherent hemitted).routing_petition]

theorem Accounted.wellReported {table : RoutingTable} {l : Ledger} {history : List Session}
    {x : Sitting} (hx : Accounted table l history x) (hl : ∀ e ∈ l.events, ¬e.IsReport) :
    x.ledger.WellReported := by
  have hstage (s : SessionId) : Stage [] history x s := Ledger.reportsOf_eq_nil hl s ▸ hx.stage s
  obtain ⟨es, hes, hnamed⟩ := hx.grows
  have hreport {e : Event} (he : e ∈ x.ledger.events) (hreport : e.IsReport) :
      ∃ s d, e.session? = some s ∧ x.chamber.router.emitted.get? s = some d ∧
        e.petition? = some d.completion.petition := by
    have hmem : e ∈ es := by
      rw [hes] at he
      exact (List.mem_append.1 he).resolve_left fun h => hl e h hreport
    obtain ⟨s, hs⟩ := hnamed e hmem hreport
    have hof : e ∈ x.ledger.reportsOf s := List.mem_filter.2 ⟨he, by simp [hreport, hs]⟩
    obtain ⟨d, hd, hp⟩ := (hstage s).petition hx.ready hof
    exact ⟨s, d, hs, hd, hp⟩
  refine ⟨fun e he h => ?_, fun s => (hstage s).ordered, fun e he e' he' h h' hpp => ?_⟩
  · obtain ⟨s, d, hs, -, hp⟩ := hreport he h
    exact ⟨s, _, hs, hp⟩
  · obtain ⟨s, d, hs, hd, hp⟩ := hreport he h
    obtain ⟨s', d', hs', hd', hp'⟩ := hreport he' h'
    have hpetition : d.completion.petition = d'.completion.petition := by
      rw [hp, hp'] at hpp
      exact Option.some.inj hpp
    -- the petition is reserved for one session only
    have hreserved := hx.ready.sound.reserved_iff.2 ⟨d, hd, rfl⟩
    rw [hpetition, hx.ready.sound.reserved_iff.2 ⟨d', hd', rfl⟩] at hreserved
    rw [hs, hs', Option.some.inj hreserved]

/-! ### Answers that stay -/

theorem complete_of_completed {x : Sitting} {s : Session} {out : Completed}
    (h : x.chamber.completed.get? s.id = some out) (p : Petition) (times : CompletionTimes)
    (ids : CompletionIds) : x.complete s p times ids = (.ok out, x) := by
  rw [complete, Chamber.complete, h]

theorem exists_of_answer {r : Except ChamberError Completed × Sitting} {α : Type}
    {f : Completed → α} {a : α} (h : r.1.toOption.map f = some a) :
    ∃ out y, r = (.ok out, y) ∧ f out = a := by
  obtain ⟨answer, y⟩ := r
  cases answer with
  | error e => cases h
  | ok out => exact ⟨out, y, rfl, Option.some.inj h⟩

theorem get?_completed_complete {x : Sitting} (hx : x.Ready) {s : Session} (hs : s.Valid)
    (p : Petition) (times : CompletionTimes) (ids : CompletionIds) {t : SessionId} {out : Completed}
    (h : x.chamber.completed.get? t = some out) :
    (x.complete s p times ids).2.chamber.completed.get? t = some out := by
  generalize hr : x.complete s p times ids = r
  have hcases := complete_cases hx hs p times ids
  rw [hr] at hcases
  cases hcases with
  | known out h' => exact h
  | refused e he he' => exact h
  | unwritten e l' hl => exact h
  | disposed c winner resolved dissent d y hnone hall hc hy r hconclude =>
      have hy' : y.chamber.completed.get? t = some out := hy.completed ▸ h
      cases hconclude with
      | unreported e l' hl => exact hy'
      | unrouted e n z hz l' hl => exact hz.kept.2.2 ▸ hy'
      | done n z hz l' hl =>
          -- nothing was kept for the session that is completed
          have ht : s.id ≠ t := by
            rintro rfl
            rw [hnone] at h
            cases h
          refine (SortedMap.get?_insert ..).trans ((if_neg ht).trans ?_)
          exact hz.kept.2.2 ▸ hy'

theorem get?_completed_step {x : Sitting} (hx : x.Ready) {call : Call}
    (hcall : ∀ s, call.session? = some s → s.Arises) {t : SessionId} {out : Completed}
    (h : x.chamber.completed.get? t = some out) :
    (x.step call).chamber.completed.get? t = some out := by
  cases call with
  | complete s p times ids => exact get?_completed_complete hx (hcall s rfl).valid p times ids h
  | acknowledge petition p => exact h
  | filter library c text kind submitter id =>
      have haside := x.step_aside (.filter library c text kind submitter id) trivial rfl
      exact haside.completed ▸ h
  | send library c deliver text kind submitter id =>
      have haside := x.step_aside (.send library c deliver text kind submitter id) trivial rfl
      exact haside.completed ▸ h
  | append e => exact h
  | record s c rationale now id eventId => exact h
  | emit s c p now completionId routingId => exact h

theorem get?_completed_run {x : Sitting} (hx : x.Ready) {calls : List Call}
    (hcalls : ∀ s ∈ passed calls, s.Arises) {t : SessionId} {out : Completed}
    (h : x.chamber.completed.get? t = some out) :
    (x.run calls).chamber.completed.get? t = some out := by
  have hstep (x : Sitting) (call : Call) (hx : x.Ready ∧ x.chamber.completed.get? t = some out)
      (hcall : ∀ s, call.session? = some s → s.Arises) :
      (x.step call).Ready ∧ (x.step call).chamber.completed.get? t = some out :=
    ⟨hx.1.step hcall, get?_completed_step hx.1 hcall hx.2⟩
  exact (run_induction hstep ⟨hx, h⟩ hcalls).2

/-! ### Results -/

/-- Over a ledger without reports an orderly sitting reports each deliberation once. An outcome that
is answered is told by the ledger, with a dissent just if the votes were split, and is answered again
whenever its session is asked for, without any change. -/
theorem reported_once {config : Config} {ch : Chamber} (hch : Chamber.new config = .ok ch)
    {l : Ledger} (hl : ∀ e ∈ l.events, ¬e.IsReport) {calls : List Call} (hcalls : Orderly calls) :
    (run ⟨ch, l⟩ calls).ledger.WellReported ∧
      ∀ s p times ids out y, Orderly (calls ++ [.complete s p times ids]) →
        (run ⟨ch, l⟩ calls).complete s p times ids = (.ok out, y) →
        y.ledger.Tells s.id out ∧
        (∃ u ∈ passed (calls ++ [.complete s p times ids]), u.id = s.id ∧ u.AllVoted) ∧
        (∀ u ∈ passed (calls ++ [.complete s p times ids]), u.id = s.id → u.AllVoted →
          (out.dissent.isSome = true ↔ u.IsSplit)) ∧
        ∀ more t p' now' ids', (∀ u ∈ passed more, u.Arises) → t.id = s.id →
          (y.run more).complete t p' now' ids' = (.ok out, y.run more) := by
  refine ⟨(accounted_run hch l hcalls).wellReported hl, fun s p times ids out y hcalls h => ?_⟩
  obtain ⟨hclosed, -⟩ := closed_of_complete hch hcalls h
  obtain ⟨u, hu, hid, hgrounds⟩ := hclosed.grounded
  refine ⟨?_, ⟨u, hu, hid, hgrounds.allVoted⟩, fun v hv hvid hall => ?_, ?_⟩
  · obtain ⟨es, htold, hreports⟩ := hclosed.reports
    rw [Ledger.reportsOf_eq_nil hl, List.nil_append] at hreports
    exact ⟨⟨es, htold, hreports⟩, hclosed.completion, hclosed.routing⟩
  · have hvalid := (hcalls.arises v hv).valid
    have hakin := hcalls.akin u hu v hv (hid.trans hvid.symm)
    exact (hgrounds.akin hakin (hcalls.arises u hu).valid hvalid hall).dissent_iff hvalid
  · intro more t p' now' ids' hmore ht
    have hy : y = run ⟨ch, l⟩ (calls ++ [.complete s p times ids]) := by
      rw [run_concat, step, h]
    have hready : y.Ready := hy ▸ (accounted_run hch l hcalls).ready
    have hout := get?_completed_run hready hmore (entry_eq_iff.1 hclosed.entry).2.2.2
    exact complete_of_completed (ht ▸ hout) p' now' ids'

/-- The ledger fails when a split deliberation is to be reported as completed; the next call takes up
from there and the one after it gives the same answer. -/
theorem reported_once_after_failure :
    let s : Session := .sample 1 2 .refer .refer .escalate
    let x := run ⟨.standard, { Ledger.empty with refuses := fun n => n = 2 }⟩
      [.complete s (.sample 2) (.sample 0) (.sample 10)]
    x.ledger.WellReported ∧ x.ledger.length = 1 ∧
      ∃ out y, x.complete s (.sample 2) (.sample 1) (.sample 20) = (.ok out, y) ∧
        y.ledger.Tells s.id out ∧ out.completionSequence = 2 ∧ out.routingSequence = 3 ∧
        out.dissent.isSome = true ∧
        y.complete s (.sample 2) (.sample 2) (.sample 30) = (.ok out, y) := by
  intro s x
  have hs : s.Arises := Session.sample_arises ..
  have horderly : Orderly ([.complete s (.sample 2) (.sample 0) (.sample 10)] ++
      [.complete s (.sample 2) (.sample 1) (.sample 20)]) :=
    orderly_of_same hs (by simp [Call.Mediated])
      (by simp [passed, Call.session?])
  have hnumbers : (x.complete s (.sample 2) (.sample 1) (.sample 20)).1.toOption.map
      (fun out => (out.completionSequence, out.routingSequence)) = some (2, 3) := by
    decide +kernel
  obtain ⟨out, y, h, hvalues⟩ := exists_of_answer hnumbers
  obtain ⟨hcompletion, hrouting⟩ := Prod.mk.inj hvalues
  obtain ⟨hwell, hok⟩ := reported_once Chamber.new_standard
    (l := { Ledger.empty with refuses := fun n => n = 2 }) (fun e he => by cases he)
    horderly.left
  obtain ⟨htells, -, hsplit, hagain⟩ := hok _ _ _ _ out y horderly h
  have hall : s.AllVoted := by decide +kernel
  have hdissent : out.dissent.isSome = true :=
    (hsplit s (by simp [passed, Call.session?]) rfl hall).2 ⟨.refer, .escalate, by decide⟩
  exact ⟨hwell, rfl, out, y, h, htells, hcompletion, hrouting, hdissent,
    hagain [] s (.sample 2) _ _ (fun u hu => by cases hu) rfl⟩

/-- Whatever fails on the way, an outcome that an orderly sitting answers with is coherent, by every
state passed for its session in which all have voted. -/
theorem outcome_coherent {config : Config} {ch : Chamber} (hch : Chamber.new config = .ok ch)
    {l : Ledger} {calls : List Call} {s : Session} {p : Petition} {times : CompletionTimes}
    {ids : CompletionIds} (hcalls : Orderly (calls ++ [.complete s p times ids])) {out : Completed}
    {y : Sitting} (h : (run ⟨ch, l⟩ calls).complete s p times ids = (.ok out, y)) :
    (∃ u ∈ passed (calls ++ [.complete s p times ids]), u.id = s.id ∧ u.AllVoted) ∧
      ∀ u ∈ passed (calls ++ [.complete s p times ids]), u.id = s.id → u.AllVoted →
        out.Coherent config.routing u := by
  obtain ⟨hclosed, hcoherent⟩ := closed_of_complete hch hcalls h
  obtain ⟨u, hu, hid, hgrounds⟩ := hclosed.grounded
  refine ⟨⟨u, hu, hid, hgrounds.allVoted⟩, fun v hv hvid hall => ?_⟩
  have hvalid := (hcalls.arises v hv).valid
  have hakin := hcalls.akin u hu v hv (hid.trans hvid.symm)
  exact (hgrounds.akin hakin (hcalls.arises u hu).valid hvalid hall).coherent hvalid hcoherent

/-- The routing is not reported at first, and the outcome is stitched together from two calls. -/
theorem outcome_coherent_after_failure :
    let s : Session := .sample 1 2 .escalate .refer .escalate
    let x := run ⟨.standard, { Ledger.empty with refuses := fun n => n = 3 }⟩
      [.complete s (.sample 2) (.sample 0) (.sample 10)]
    ∃ out y, x.complete s (.sample 2) (.sample 1) (.sample 20) = (.ok out, y) ∧
      out.Coherent Config.standard.routing s ∧ out.dissent.isSome = true := by
  intro s x
  have hs : s.Arises := Session.sample_arises ..
  have horderly : Orderly ([.complete s (.sample 2) (.sample 0) (.sample 10)] ++
      [.complete s (.sample 2) (.sample 1) (.sample 20)]) :=
    orderly_of_same hs (by simp [Call.Mediated])
      (by simp [passed, Call.session?])
  have hsome : (x.complete s (.sample 2) (.sample 1) (.sample 20)).1.toOption.map
      (fun out => out.dissent.isSome) = some true := by decide +kernel
  obtain ⟨out, y, h, hdissent⟩ := exists_of_answer hsome
  have hall : s.AllVoted := by decide +kernel
  refine ⟨out, y, h, ?_, hdissent⟩
  exact (outcome_coherent Chamber.new_standard horderly h).2 s
    (by simp [passed, Call.session?]) rfl hall

end Sitting

end Curia
