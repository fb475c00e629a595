import Curia.Proofs.Chamber.Outcomes

/-!
The two times of a deliberation. A disposition is dated by the call that makes it, a consensus by
the call that answers with it, and either has the time at which that call counted the votes. These
are one call unless the ledger fails in between: a call that comes back to a session counts its
votes anew, while the disposition stays what it was.
-/

namespace Curia

namespace Sitting

/-! ### One call -/

theorem recordDissent_kept (ch : Chamber) (l : Ledger) (s : Session) (c : Consensus) (now : Instant)
    (ids : CompletionIds) : (ch.recordDissent l s c now ids).2.1.router = ch.router ∧
      (ch.recordDissent l s c now ids).2.1.completed = ch.completed := by
  rw [Chamber.recordDissent]
  split
  · exact ⟨rfl, rfl⟩
  · simp only
    split <;> exact ⟨rfl, rfl⟩

/-- What comes of a call for a session that has no outcome yet, as far as times are concerned. -/
inductive Disposing (x : Sitting) (s : Session) (p : Petition) (times : CompletionTimes)
    (ids : CompletionIds) : Except ChamberError Completed × Sitting → Prop
  | undisposed (e : ChamberError) (y : Sitting) (hrouter : y.chamber.router = x.chamber.router)
      (hcompleted : y.chamber.completed = x.chamber.completed) :
      Disposing x s p times ids (.error e, y)
  | disposed (c : Consensus) (dissent : Option Dissent) (d : Disposition) (y : Sitting)
      (hc : c.resolvedAt = times.resolved)
      (hemit : x.chamber.router.emit s c p times.routed ids.completion ids.routing =
        (.ok d, y.chamber.router))
      (hcompleted : y.chamber.completed = x.chamber.completed)
      (z : Except ChamberError Completed × Sitting) (hz : Concluding y s.id c dissent d z) :
      Disposing x s p times ids z

theorem complete_of_none {x : Sitting} {s : Session} (hs : s.Valid)
    (hnone : x.chamber.completed.get? s.id = none) (p : Petition) (times : CompletionTimes)
    (ids : CompletionIds) : Disposing x s p times ids (x.complete s p times ids) := by
  rw [complete, Chamber.complete, hnone]
  simp only
  cases hresolve : x.chamber.resolver.resolve s s.voteMap times.resolved with
  | error e => exact .undisposed _ x rfl rfl
  | ok c =>
      obtain ⟨-, winner, hc⟩ := Resolver.counts_of_resolve hs hresolve
      simp only
      cases x.chamber.router.precheck s c p with
      | error e => exact .undisposed _ x rfl rfl
      | ok pipeline =>
          simp only [Chamber.dispose]
          have hkept := recordDissent_kept x.chamber x.ledger s c times.dissent ids
          generalize x.chamber.recordDissent x.ledger s c times.dissent ids = z at hkept ⊢
          obtain ⟨answer, ch, l⟩ := z
          obtain ⟨hrouter, hcompleted⟩ := hkept
          simp only at hrouter hcompleted
          cases answer with
          | error e => exact .undisposed e ⟨ch, l⟩ hrouter hcompleted
          | ok dissent =>
              simp only [hrouter]
              have hcases := Router.emit_cases x.chamber.router s c p times.routed ids.completion
                ids.routing
              generalize hemit : x.chamber.router.emit s c p times.routed ids.completion
                ids.routing = z at hcases ⊢
              obtain ⟨answer, router⟩ := z
              cases answer with
              | error e =>
                  cases hcases
                  exact .undisposed _ ⟨{ ch with router := x.chamber.router }, l⟩ rfl hcompleted
              | ok d =>
                  let y : Sitting := ⟨{ ch with router }, l⟩
                  exact .disposed c dissent d y hc.resolvedAt hemit hcompleted _
                    (conclude_cases y s.id c dissent d rfl)

/-- A disposition that is made is dated by the call; then there is an outcome, or the ledger has
failed. -/
theorem Disposing.completedAt {x : Sitting} {s : Session} {p : Petition} {times : CompletionTimes}
    {ids : CompletionIds} {z : Except ChamberError Completed × Sitting}
    (h : Disposing x s p times ids z) {t : SessionId} {d : Disposition}
    (hnone : x.chamber.router.emitted.get? t = none)
    (hd : z.2.chamber.router.emitted.get? t = some d) :
    s.id = t ∧ d.completion.completedAt = times.resolved ∧
      ((∃ out, z.1 = .ok out) ∨ ∃ e, z.1 = .error (.ledger e)) := by
  cases h with
  | undisposed e y hrouter hcompleted =>
      rw [hrouter, hnone] at hd
      cases hd
  | disposed c dissent d' y hc hemit hcompleted z hz =>
      rw [hz.kept.2] at hd
      have hs : s.id = t := by
        refine Decidable.byContradiction fun hne => ?_
        have hcases := Router.emit_cases x.chamber.router s c p times.routed ids.completion
          ids.routing
        rw [hemit] at hcases
        rw [get?_emitted_of_ne hcases hne, hnone] at hd
        cases hd
      subst hs
      refine ⟨rfl, ?_, ?_⟩
      · obtain ⟨e, h⟩ | ⟨d'', hissues, h⟩ :=
          Router.emit_of_none hnone c p times.routed ids.completion ids.routing
        · rw [hemit] at h
          cases h
        · rw [hemit] at h
          obtain ⟨hd'', hrouter⟩ := Prod.mk.inj h
          cases hd''
          rw [hrouter, Router.get?_emitted_commit, hissues.coherent.pending_session,
            hissues.follows.session, if_pos rfl] at hd
          cases hd
          exact hissues.completedAt.trans hc
      · cases hz with
        | unreported e l' hl => exact .inr ⟨e, rfl⟩
        | unrouted e n z hz l' hl => exact .inr ⟨e, rfl⟩
        | done n z hz l' hl => exact .inl ⟨_, rfl⟩

/-- A consensus that is answered with is dated by the call that keeps the outcome. -/
theorem Disposing.resolvedAt {x : Sitting} {s : Session} {p : Petition} {times : CompletionTimes}
    {ids : CompletionIds} {z : Except ChamberError Completed × Sitting}
    (h : Disposing x s p times ids z) {t : SessionId} {out : Completed}
    (hnone : x.chamber.completed.get? t = none) (hout : z.2.chamber.completed.get? t = some out) :
    s.id = t ∧ out.consensus.resolvedAt = times.resolved ∧ z.1 = .ok out := by
  cases h with
  | undisposed e y hrouter hcompleted =>
      rw [hcompleted, hnone] at hout
      cases hout
  | disposed c dissent d y hc hemit hcompleted z hz =>
      have hy : y.chamber.completed.get? t = none := by rw [hcompleted, hnone]
      cases hz with
      | unreported e l' hl =>
          simp only at hout
          rw [hy] at hout
          cases hout
      | unrouted e n z hz l' hl =>
          simp only at hout
          rw [hz.kept.2.2, hy] at hout
          cases hout
      | done n z hz l' hl =>
          simp only [closed, SortedMap.get?_insert] at hout
          split at hout
          · next hs =>
            cases hout
            exact ⟨hs, hc, rfl⟩
          · rw [hz.kept.2.2, hy] at hout
            cases hout

/-! ### What stays -/

theorem get?_emitted_complete (x : Sitting) (s : Session) (p : Petition) (times : CompletionTimes)
    (ids : CompletionIds) (hs : s.Valid) {t : SessionId} {d : Disposition}
    (hd : x.chamber.router.emitted.get? t = some d) :
    (x.complete s p times ids).2.chamber.router.emitted.get? t = some d := by
  cases hout : x.chamber.completed.get? s.id with
  | some out => rwa [complete_of_completed hout]
  | none =>
      have hcases := complete_of_none hs hout p times ids
      generalize x.complete s p times ids = z at hcases ⊢
      cases hcases with
      | undisposed e y hrouter hcompleted => rwa [hrouter]
      | disposed c dissent d' y hc hemit hcompleted z hz =>
          have hemitted : y.chamber.router =
              (x.chamber.router.emit s c p times.routed ids.completion ids.routing).2 := by
            rw [hemit]
          rw [hz.kept.2, hemitted]
          exact (Router.get?_emitted_emit ..).2 (.inl hd)

theorem get?_emitted_run {x : Sitting} {calls : List Call} (hcalls : ∀ s ∈ passed calls, s.Arises)
    {t : SessionId} {d : Disposition} (hd : x.chamber.router.emitted.get? t = some d) :
    (x.run calls).chamber.router.emitted.get? t = some d := by
  refine run_induction (P := fun x => x.chamber.router.emitted.get? t = some d)
    (fun x call hd hcall => ?_) hd hcalls
  have haside (hmediated : call.Mediated) (hnone : call.session? = none) :
      (x.step call).chamber.router.emitted.get? t = some d :=
    (x.step_aside call hmediated hnone).emitted ▸ hd
  cases call with
  | complete s p times ids => exact x.get?_emitted_complete s p times ids (hcall s rfl).valid hd
  | emit s c p now completionId routingId => exact (Router.get?_emitted_emit ..).2 (.inl hd)
  | record s c rationale now id eventId => exact hd
  | append e => exact hd
  | _ => exact haside trivial rfl

/-! ### Attempts -/

/-- A call to complete a deliberation, with the calls that come before it. -/
structure Attempt where
  before : List Call
  session : Session
  petition : Petition
  times : CompletionTimes
  ids : CompletionIds

namespace Attempt

/-- All calls up to this one. -/
def calls (a : Attempt) : List Call :=
  a.before ++ [.complete a.session a.petition a.times a.ids]

def answer (a : Attempt) (x : Sitting) : Except ChamberError Completed :=
  ((x.run a.before).complete a.session a.petition a.times a.ids).1

theorem run_calls (a : Attempt) (x : Sitting) : x.run a.calls =
    ((x.run a.before).complete a.session a.petition a.times a.ids).2 := by
  rw [calls, run_concat, step]

theorem eq_of_calls {a b : Attempt} (h : a.calls = b.calls) : a = b := by
  obtain ⟨before, s, p, times, ids⟩ := a
  obtain ⟨before', s', p', times', ids'⟩ := b
  obtain ⟨rfl, hcall⟩ := List.append_inj' h rfl
  cases List.singleton_inj.1 hcall
  rfl

end Attempt

/-- What is there after some calls and was not there before has come with one of them. -/
theorem exists_turn {α : Type} {f : Sitting → Option α} {x : Sitting} {calls : List Call}
    (hx : f x = none) {a : α} (h : f (x.run calls) = some a) :
    ∃ before call after b, calls = before ++ call :: after ∧ f (x.run before) = none ∧
      f ((x.run before).step call) = some b := by
  induction calls using List.reverseRecOn generalizing a with
  | nil =>
      rw [run, List.foldl_nil, hx] at h
      cases h
  | append_singleton calls call ih =>
      cases hcalls : f (x.run calls) with
      | none =>
          rw [run_concat] at h
          exact ⟨calls, call, [], a, rfl, hcalls, h⟩
      | some b =>
          obtain ⟨before, turn, after, b, rfl, hbefore, hturn⟩ := ih hcalls
          exact ⟨before, turn, after ++ [call], b, by simp, hbefore, hturn⟩

/-- What comes with no other call, and stays once it is there, has come with an attempt for a
session that had no outcome. -/
theorem exists_attempt {α : Type} {f : Sitting → Option α}
    (hf : ∀ (y : Sitting) (call : Call), call.Mediated → call.session? = none →
      f (y.step call) = f y)
    {x : Sitting} {calls : List Call} (hcalls : Orderly calls)
    (hstays : ∀ before rest b, calls = before ++ rest → f (x.run before) = some b →
      f ((x.run before).run rest) = some b)
    (hx : f x = none) {a : α} (h : f (x.run calls) = some a) :
    ∃ t : Attempt, t.calls <+: calls ∧ f (x.run t.before) = none ∧
      f ((x.run t.before).complete t.session t.petition t.times t.ids).2 = some a ∧
      Disposing (x.run t.before) t.session t.petition t.times t.ids
        ((x.run t.before).complete t.session t.petition t.times t.ids) := by
  obtain ⟨before, call, after, b, rfl, hbefore, hturn⟩ := exists_turn hx h
  have hmem : call ∈ before ++ call :: after := by simp
  cases hsession : call.session? with
  | none =>
      rw [hf _ call (hcalls.mediated call hmem) hsession, hbefore] at hturn
      cases hturn
  | some s =>
      have hs : s.Arises := hcalls.arises s (List.mem_filterMap.2 ⟨call, hmem, hsession⟩)
      cases call with
      | complete s' p times ids =>
          cases hsession
          have hb : f (x.run (before ++ Call.complete s p times ids :: after)) = some b := by
            rw [List.append_cons, run_append]
            exact hstays _ after b (by simp) (by rw [run_concat, hturn])
          obtain rfl : b = a := Option.some.inj (hb.symm.trans h)
          refine ⟨⟨before, s, p, times, ids⟩, ⟨after, by simp [Attempt.calls]⟩, hbefore, hturn, ?_⟩
          cases hout : (x.run before).chamber.completed.get? s.id with
          | none => exact complete_of_none hs.valid hout p times ids
          | some out =>
              -- the call would have changed nothing
              rw [step, complete_of_completed hout, hbefore] at hturn
              cases hturn
      | _ => cases hsession

/-! ### The two times -/

/-- The first attempt has made the disposition of an outcome, dated by its own count; the last has
counted the votes for it, and dates the consensus. Unless the two are one, the ledger failed the
first. -/
structure Dated (x : Sitting) (calls : List Call) (s : SessionId) (out : Completed)
    (first last : Attempt) : Prop where
  earlier : first.calls <+: last.calls
  among : last.calls <+: calls
  session : first.session.id = s ∧ last.session.id = s
  completedAt : out.disposition.completion.completedAt = first.times.resolved
  resolvedAt : out.consensus.resolvedAt = last.times.resolved
  answer : last.answer x = .ok out
  failed : first = last ∨ ∃ e, first.answer x = .error (.ledger e)

section

variable {config : Config} {ch : Chamber} {l : Ledger} {calls : List Call} {s : SessionId}
  {out : Completed}

theorem opened_entry (hch : Chamber.new config = .ok ch) (l : Ledger) (s : SessionId) :
    entry ⟨ch, l⟩ s = ⟨none, none, none, none⟩ := by
  rw [Chamber.new] at hch
  split at hch
  · cases hch
  · cases hch
    rfl

/-- An outcome that is kept was the answer of an attempt, which counted the votes. -/
theorem exists_last (hch : Chamber.new config = .ok ch) (hcalls : Orderly calls)
    (hout : (run ⟨ch, l⟩ calls).chamber.completed.get? s = some out) :
    ∃ last : Attempt, last.calls <+: calls ∧ last.session.id = s ∧
      (run ⟨ch, l⟩ last.before).chamber.completed.get? s = none ∧
      last.answer ⟨ch, l⟩ = .ok out ∧ out.consensus.resolvedAt = last.times.resolved := by
  obtain ⟨last, hlast, hnone, hlastOut, hdisposing⟩ :=
    exists_attempt (f := fun y => y.chamber.completed.get? s)
      (fun y call hcall hnone => congrArg (·.get? s) (y.step_aside call hcall hnone).completed)
      hcalls
      (fun before rest b hcalls' hb =>
        get?_completed_run (x := run ⟨ch, l⟩ before) ((Ready.opened hch l).run
          (hcalls' ▸ hcalls).left.arises) (hcalls' ▸ hcalls).right.arises hb)
      (entry_eq_iff.1 (opened_entry hch l s)).2.2.2 hout
  obtain ⟨hs, hnow, hanswer⟩ := hdisposing.resolvedAt hnone hlastOut
  exact ⟨last, hlast, hs, hnone, hanswer, hnow⟩

/-- A disposition that is kept was made by an attempt; that attempt had an answer, or the ledger
failed it. -/
theorem exists_first (hch : Chamber.new config = .ok ch) (hcalls : Orderly calls) {d : Disposition}
    (hd : (run ⟨ch, l⟩ calls).chamber.router.emitted.get? s = some d) :
    ∃ first : Attempt, first.calls <+: calls ∧ first.session.id = s ∧
      d.completion.completedAt = first.times.resolved ∧
      ((∃ out, first.answer ⟨ch, l⟩ = .ok out) ∨
        ∃ e, first.answer ⟨ch, l⟩ = .error (.ledger e)) := by
  obtain ⟨first, hfirst, hnone, hfirstMade, hdisposing⟩ :=
    exists_attempt (f := fun y => y.chamber.router.emitted.get? s)
      (fun y call hcall hnone => congrArg (·.get? s) (y.step_aside call hcall hnone).emitted)
      hcalls
      (fun before rest b hcalls' hb => get?_emitted_run (hcalls' ▸ hcalls).right.arises hb)
      (entry_eq_iff.1 (opened_entry hch l s)).2.1 hd
  obtain ⟨hs, hnow, hanswer⟩ := hdisposing.completedAt hnone hfirstMade
  exact ⟨first, hfirst, hs, hnow, hanswer⟩

end

/-- Whatever fails on the way, the disposition of an outcome is dated by the attempt that made it
and the consensus by the attempt that was answered; they are one attempt unless the ledger failed
the first. The report on the ledger has the one time and a session that is ended with the consensus
has the other. -/
theorem outcome_dated {config : Config} {ch : Chamber} (hch : Chamber.new config = .ok ch)
    {l : Ledger} {calls : List Call} {s : Session} {p : Petition} {times : CompletionTimes}
    {ids : CompletionIds} (hcalls : Orderly (calls ++ [.complete s p times ids])) {out : Completed}
    {y : Sitting} (h : (run ⟨ch, l⟩ calls).complete s p times ids = (.ok out, y)) :
    ∃ first last, Dated ⟨ch, l⟩ (calls ++ [.complete s p times ids]) s.id out first last ∧
      (∃ e, y.ledger.event? out.completionSequence = some e ∧ e.kind = Completion.eventKind ∧
        e.occurredAt = first.times.resolved) ∧
      ∀ t t', Session.complete t out.consensus = (.ok (), t') →
        t'.completedAt = some last.times.resolved := by
  obtain ⟨hclosed, -⟩ := closed_of_complete hch hcalls h
  have hy : y = run ⟨ch, l⟩ (calls ++ [.complete s p times ids]) := by
    rw [run_concat, step, h]
  have hout : (run ⟨ch, l⟩ (calls ++ [.complete s p times ids])).chamber.completed.get? s.id =
      some out :=
    hy ▸ (entry_eq_iff.1 hclosed.entry).2.2.2
  obtain ⟨last, hlast, hlastSession, hnone, hanswer, hresolved⟩ := exists_last hch hcalls hout
  have horderly : Orderly last.calls := hcalls.sublist hlast.sublist
  -- by the time of the last attempt the disposition is made
  have hemitted : (run ⟨ch, l⟩ last.calls).chamber.router.emitted.get? s.id =
      some out.disposition := by
    obtain ⟨hclosed, -⟩ := closed_of_complete hch horderly (Prod.ext hanswer rfl)
    rw [last.run_calls, ← hlastSession]
    exact (entry_eq_iff.1 hclosed.entry).2.1
  obtain ⟨first, hfirst, hfirstSession, hcompleted, hok⟩ := exists_first hch horderly hemitted
  refine ⟨first, last, ⟨hfirst, hlast, ⟨hfirstSession, hlastSession⟩, hcompleted, hresolved,
    hanswer, ?_⟩, ⟨_, hclosed.completion, rfl, hcompleted⟩, fun t t' ht => ?_⟩
  · refine hok.imp_left ?_
    rintro ⟨out', hout'⟩
    -- an answer would have been kept, and the last attempt is the first that finds none
    rcases List.prefix_concat_iff.1 hfirst with heq | hbefore
    · exact Attempt.eq_of_calls heq
    · obtain ⟨hclosed', -⟩ := closed_of_complete hch (horderly.sublist hfirst.sublist)
        (Prod.ext hout' rfl)
      have hkept : (run ⟨ch, l⟩ first.calls).chamber.completed.get? s.id = some out' := by
        rw [first.run_calls, ← hfirstSession]
        exact (entry_eq_iff.1 hclosed'.entry).2.2.2
      obtain ⟨rest, hrest⟩ := hbefore
      have hbefore : Orderly (first.calls ++ rest) := hrest ▸ horderly.left
      have hsome := get?_completed_run ((Ready.opened hch l).run hbefore.left.arises)
        hbefore.right.arises hkept
      rw [← run_append, hrest, hnone] at hsome
      cases hsome
  · obtain ⟨-, -, outcome, -, rfl⟩ := Session.complete_eq_ok ht
    rw [← hresolved]

/-- The ledger refuses the first report. A second later the call is made again: the votes are
counted at that time, and the report keeps the time of the first call. -/
theorem outcome_dated_after_failure :
    let s : Session := .sample 1 2 .refer .refer .refer
    let first : List Call := [.complete s (.sample 2) (.sample 0) (.sample 10)]
    let last : Call := .complete s (.sample 2) (.sample 1) (.sample 20)
    let x : Sitting := ⟨.standard, { Ledger.empty with refuses := fun n => n = 1 }⟩
    ∃ out y, (x.run first).complete s (.sample 2) (.sample 1) (.sample 20) = (.ok out, y) ∧
      ∃ a b, Dated x (first ++ [last]) s.id out a b ∧
        a.times.resolved = ⟨0, 0, by decide⟩ ∧ b.times.resolved = ⟨1, 0, by decide⟩ := by
  intro s first last x
  have hs : s.Arises := Session.sample_arises ..
  have horderly : Orderly (first ++ [last]) :=
    orderly_of_same hs (by simp [first, last, Call.Mediated])
      (by simp [first, last, passed, Call.session?])
  have htimes : ((x.run first).complete s (.sample 2) (.sample 1)
      (.sample 20)).1.toOption.map
        (fun out => (out.disposition.completion.completedAt, out.consensus.resolvedAt)) =
      some (⟨0, 0, by decide⟩, ⟨1, 0, by decide⟩) := by
    decide +kernel
  obtain ⟨out, y, h, hvalues⟩ := exists_of_answer htimes
  obtain ⟨hcompleted, hresolved⟩ := Prod.mk.inj hvalues
  obtain ⟨a, b, hdated, -⟩ := outcome_dated Chamber.new_standard horderly h
  exact ⟨out, y, h, a, b, hdated, hdated.completedAt.symm.trans hcompleted,
    hdated.resolvedAt.symm.trans hresolved⟩

/-- There the session would be ended with another time than its report has. -/
theorem times_differ_after_failure :
    let s : Session := .sample 1 2 .refer .refer .refer
    let first : List Call := [.complete s (.sample 2) (.sample 0) (.sample 10)]
    let last : Call := .complete s (.sample 2) (.sample 1) (.sample 20)
    let x := run ⟨.standard, { Ledger.empty with refuses := fun n => n = 1 }⟩ first
    Chamber.new Config.standard = .ok Chamber.standard ∧ Orderly (first ++ [last]) ∧
      ∃ out y, x.complete s (.sample 2) (.sample 1) (.sample 20) = (.ok out, y) ∧
        out.consensus.resolvedAt ≠ out.disposition.completion.completedAt ∧
        ∃ t, s.complete out.consensus = (.ok (), t) ∧
          t.completedAt ≠ some out.disposition.completion.event.occurredAt ∧
          out.disposition.completion.event ∈ y.ledger.events := by
  intro s first last x
  have hs : s.Arises := Session.sample_arises ..
  have horderly : Orderly (first ++ [last]) :=
    orderly_of_same hs (by simp [first, last, Call.Mediated])
      (by simp [first, last, passed, Call.session?])
  have htimes : (x.complete s (.sample 2) (.sample 1) (.sample 20)).1.toOption.map
      (fun out => (out.consensus.resolvedAt, out.disposition.completion.completedAt,
        (s.complete out.consensus).1.toOption, (s.complete out.consensus).2.completedAt)) =
      some (⟨1, 0, by decide⟩, ⟨0, 0, by decide⟩, some (), some ⟨1, 0, by decide⟩) := by
    decide +kernel
  obtain ⟨out, y, h, hvalues⟩ := exists_of_answer htimes
  obtain ⟨hresolved, hrest⟩ := Prod.mk.inj hvalues
  obtain ⟨hcompleted, hrest⟩ := Prod.mk.inj hrest
  obtain ⟨hanswer, hended⟩ := Prod.mk.inj hrest
  have hne : (⟨1, 0, by decide⟩ : Instant) ≠ ⟨0, 0, by decide⟩ := by decide
  refine ⟨Chamber.new_standard, horderly, out, y, h, ?_, (s.complete out.consensus).2, ?_, ?_, ?_⟩
  · rw [hresolved, hcompleted]
    exact hne
  · cases hc : (s.complete out.consensus).1 with
    | error e =>
        rw [hc] at hanswer
        cases hanswer
    | ok _ => exact Prod.ext hc rfl
  · show (s.complete out.consensus).2.completedAt ≠ some out.disposition.completion.completedAt
    rw [hended, hcompleted]
    exact fun h => hne (Option.some.inj h)
  · obtain ⟨hclosed, -⟩ := closed_of_complete Chamber.new_standard horderly h
    exact Ledger.mem_of_event? hclosed.completion

end Sitting

end Curia
