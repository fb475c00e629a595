import Curia.Proofs.Chamber.Completing
import Curia.Proofs.Council.Majority

/-!
Why a deliberation is not completed. Settings that are accepted have a pipeline for every outcome
that may win, a count of votes agrees with the votes, and the recorder and the router are in the
state in which the chamber leaves them; so there is nothing left to be refused for but the votes,
the transcripts and the petition, and what the ledger does not take.
-/

namespace Curia

/-! ### What the ledger does not take -/

namespace Ledger

theorem append_eq_error {l l' : Ledger} {e : Event} {err : LedgerError}
    (h : l.append e = (.error err, l')) :
    err = .refused l.length ∧ l.refuses (l.attempts + 1) = true := by
  rw [append] at h
  split at h
  · next hrefuses =>
    cases h
    exact ⟨rfl, hrefuses⟩
  · cases h

/-- Some attempts have been made at the first ledger, which led to the second. -/
structure Later (l l' : Ledger) : Prop where
  refuses : l'.refuses = l.refuses
  attempts : l.attempts ≤ l'.attempts

theorem Later.refl (l : Ledger) : l.Later l := ⟨rfl, Nat.le_refl _⟩

theorem later_append (l : Ledger) (e : Event) : l.Later (l.append e).2 := by
  rw [append]
  split <;> exact ⟨rfl, Nat.le_succ _⟩

/-- One of the attempts to come is refused. -/
def WillRefuse (l : Ledger) : Prop := ∃ n, l.attempts < n ∧ l.refuses n = true

theorem WillRefuse.of_append {l l' : Ledger} {e : Event} {err : LedgerError}
    (h : l.append e = (.error err, l')) : l.WillRefuse :=
  ⟨l.attempts + 1, Nat.lt_succ_self _, (append_eq_error h).2⟩

theorem Later.willRefuse {l l' : Ledger} (h : l.Later l') (h' : l'.WillRefuse) : l.WillRefuse := by
  obtain ⟨n, hlt, hn⟩ := h'
  exact ⟨n, Nat.lt_of_le_of_lt h.attempts hlt, h.refuses ▸ hn⟩

end Ledger

/-! ### The count -/

namespace Resolver

theorem resolve_eq_error {r : Resolver} {s : Session} (hs : s.Valid) {votes : Ballot}
    {now : Instant} {e : CouncilError} (h : r.resolve s votes now = .error e) :
    (¬r.InOrder s votes ∧ e = .voteValidation s.id (r.check s votes)) ∨
      r.InOrder s votes ∧ (∀ o, votes.tally o < Consensus.threshold) ∧
        e = .noConsensus s.id s.petition Consensus.archonsPerSession Consensus.threshold := by
  by_cases hin : r.InOrder s votes
  · rcases hin.resolve_cases hs now with ⟨winner, c, -, hc, -⟩ | ⟨hno, he⟩
    · rw [hc] at h
      cases h
    · rw [he] at h
      cases h
      exact .inr ⟨hin, hno, rfl⟩
  · rw [resolve_of_not_inOrder hin] at h
    cases h
    exact .inl ⟨hin, rfl⟩

/-- An outcome that wins is one that votes may be cast for. -/
theorem permitted_of_counts {r : Resolver} {s : Session} {now now' : Instant} {c : Consensus}
    (h : r.resolve s s.voteMap now = .ok c) {winner : Outcome} (hc : c.Counts s winner now') :
    r.permitted.contains winner = true := by
  have hpos : 0 < s.voteMap.values.count winner := Nat.lt_of_lt_of_le (by decide) hc.support
  obtain ⟨⟨a, o⟩, he, rfl⟩ := List.mem_map.1 (List.count_pos_iff.1 hpos)
  exact (check_isValid_iff.1 (resolve_eq_ok h).1).2.2 a o (SortedMap.mem_toList_iff.1 he)

end Resolver

/-! ### The dissent -/

namespace Recorder

/-- Whom a count names as the dissenter has voted, and not for the winner. -/
theorem exists_dissentOf {s : Session} {c : Consensus} {winner : Outcome} {resolved : Instant}
    (hc : c.Counts s winner resolved) {a : Archon} (ha : c.dissenter = some a)
    (rationale : String) (now : Instant) (id : DissentId) :
    ∃ d, dissentOf s c rationale now id = .ok d ∧ d.session = s.id := by
  have hmem : a ∈ s.opposed winner := List.mem_of_head? (hc.dissenter.symm.trans ha)
  obtain ⟨v, hv, hne⟩ := Session.mem_opposed.1 hmem
  have houtcome : dissentOutcome s c a winner = .ok v.outcome := by
    rw [dissentOutcome, Session.voteOf?, hv]
    rfl
  obtain ⟨d, hd⟩ : ∃ d, Dissent.new id s.id s.petition a v.outcome winner rationale now = .ok d :=
    ⟨_, by rw [Dissent.new, if_neg hne]⟩
  refine ⟨d, ?_, ?_⟩
  · rw [dissentOf, hc.winner_eq, ha]
    simp only [houtcome]
    exact hd
  · rw [(Dissent.new_eq_ok hd).2]

/-- The dissent of a count is recorded, or the ledger does not take its event. -/
theorem record_of_counts {r : Recorder} (hr : r.Settled) (l : Ledger) {s : Session} {c : Consensus}
    {winner : Outcome} {resolved : Instant} (hc : c.Counts s winner resolved) {a : Archon}
    (ha : c.dissenter = some a) (rationale : String) (now : Instant) (id : DissentId)
    (eventId : EventId) :
    (∃ d r' l', r.record l s c rationale now id eventId = (.ok d, r', l') ∧ l.Later l') ∨
      ∃ l', r.record l s c rationale now id eventId =
        (.error (.ledger (.refused l.length)), r, l') ∧ l.WillRefuse := by
  have hsplit : s.opposed winner ≠ [] := by
    intro hnil
    rw [hc.dissenter, hnil] at ha
    cases ha
  have hstatus : c.status = .achieved := by rw [hc.status, if_neg hsplit]
  rw [record, if_neg (not_not_intro hc.session), hstatus]
  simp only [recordSplit]
  cases hstored : r.store.ofSession? s.id with
  | some d => exact .inl ⟨_, _, _, rfl, .refl l⟩
  | none =>
      obtain ⟨d, hd, hsession⟩ := exists_dissentOf hc ha rationale now id
      simp only [witness, hr.get?_held, hd]
      have hlater := l.later_append (d.event eventId)
      cases happend : l.append (d.event eventId) with
      | mk answer l' =>
          rw [happend] at hlater
          cases answer with
          | error err =>
              obtain ⟨rfl, -⟩ := Ledger.append_eq_error happend
              exact .inr ⟨_, rfl, .of_append happend⟩
          | ok n =>
              simp only
              obtain ⟨hk, -⟩ | ⟨store', hsave, -⟩ := save_cases (hsession ▸ hstored)
              · rw [hr.refuses] at hk
                cases hk
              · rw [hsave]
                exact .inl ⟨_, _, _, rfl, hlater⟩

end Recorder

/-! ### The check beforehand -/

/-- Why a router does not take a petition, when the votes of the session have been counted and the
winner has a pipeline. -/
inductive Router.Declines (r : Router) (s : Session) (p : Petition) : RoutingError → Prop
  | unwitnessed (h : s.missingPhases ≠ []) :
      Declines r s p (.incompleteWitness s.id s.petition s.missingPhases)
  | otherPetition (h : p.id ≠ s.petition) : Declines r s p (.petitionMismatch s.id s.petition p.id)
  | state (h : p.state ≠ .deliberating) : Declines r s p (.petitionState p.id p.state .deliberating)
  | routed (other : SessionId) (h : r.reserved.get? p.id = some other) (hne : other ≠ s.id) :
      Declines r s p (.alreadyRouted p.id other)

theorem Router.declines_of_precheck {r : Router} {s : Session} {c : Consensus} {winner : Outcome}
    {resolved : Instant} (hc : c.Counts s winner resolved) {pipeline : Pipeline}
    (hpipeline : r.table.get? winner = some pipeline) {p : Petition} {e : RoutingError}
    (h : r.precheck s c p = .error e) : r.Declines s p e := by
  rw [precheck] at h
  split at h
  · cases h
  · rw [validate, hc.winner_eq] at h
    simp only [hpipeline] at h
    split at h
    · next hphases =>
      cases h
      exact .unwitnessed hphases
    · rw [if_neg (not_not_intro hc.session)] at h
      split at h
      · next hpetition =>
        cases h
        exact .otherPetition hpetition
      · split at h
        · next hstate =>
          cases h
          exact .state hstate
        · split at h
          · cases h
          · next other hother =>
            split at h
            · next hne =>
              cases h
              exact .routed other hother hne
            · cases h

/-! ### Settings -/

theorem Config.fault?_of_new {config : Config} {ch : Chamber} (h : Chamber.new config = .ok ch) :
    config.fault? = none := by
  rw [Chamber.new] at h
  split at h
  · cases h
  · next hfault => exact hfault

/-- Every outcome that may be voted for has a pipeline. -/
theorem Config.exists_pipeline {config : Config} (h : config.fault? = none) {o : Outcome}
    (ho : config.permitted.contains o = true) : ∃ p, config.routing.get? o = some p := by
  have hunrouted : config.unrouted = [] := by
    rw [fault?] at h
    split at h
    · cases h
    · split at h
      · cases h
      · split at h
        · cases h
        · split at h
          · cases h
          · next hnil => exact Decidable.not_not.1 hnil
  have hmem : o ∈ config.permitted.toList := SortedSet.contains_iff.1 ho
  have hcontains := List.filter_eq_nil_iff.1 hunrouted o hmem
  exact SortedMap.contains_iff.1 (by simpa using hcontains)

/-- The chamber keeps to its settings. -/
structure Chamber.KeepsTo (ch : Chamber) (config : Config) : Prop where
  config_eq : ch.config = config
  table : ch.router.table = config.routing

namespace Chamber.KeepsTo

variable {ch : Chamber} {config : Config}

theorem new (h : Chamber.new config = .ok ch) : ch.KeepsTo config := by
  rw [Chamber.new] at h
  split at h
  · cases h
  · cases h
    exact ⟨rfl, rfl⟩

theorem emit (h : ch.KeepsTo config) (s : Session) (c : Consensus) (p : Petition) (now : Instant)
    (completionId routingId : EventId) :
    { ch with router := (ch.router.emit s c p now completionId routingId).2 }.KeepsTo config := by
  refine ⟨h.config_eq, ?_⟩
  have hcases := Router.emit_cases ch.router s c p now completionId routingId
  generalize ch.router.emit s c p now completionId routingId = x at hcases
  cases hcases with
  | known d hd => exact h.table
  | refused e => exact h.table
  | fresh d hnone hfree hd hs => exact h.table

theorem recordDissent (h : ch.KeepsTo config) (l : Ledger) (s : Session) (c : Consensus)
    (now : Instant) (ids : CompletionIds) :
    (ch.recordDissent l s c now ids).2.1.KeepsTo config := by
  rw [Chamber.recordDissent]
  split
  · exact h
  · simp only
    split <;> exact ⟨h.config_eq, h.table⟩

theorem appendCompletion (h : ch.KeepsTo config) (l : Ledger) (s : SessionId) (d : Disposition) :
    (ch.appendCompletion l s d).2.1.KeepsTo config := by
  rw [Chamber.appendCompletion]
  split
  · exact h
  · split
    · exact h
    · exact ⟨h.config_eq, h.table⟩

theorem conclude (h : ch.KeepsTo config) (l : Ledger) (s : SessionId) (c : Consensus)
    (dissent : Option Dissent) (d : Disposition) :
    (ch.conclude l s c dissent d).2.1.KeepsTo config := by
  have happended := h.appendCompletion l s d
  rw [Chamber.conclude]
  split
  · next heq =>
    rw [heq] at happended
    exact happended
  · next heq =>
    rw [heq] at happended
    split
    · exact happended
    · exact ⟨happended.config_eq, happended.table⟩

theorem dispose (h : ch.KeepsTo config) (l : Ledger) (s : Session) (c : Consensus) (p : Petition)
    (times : CompletionTimes) (ids : CompletionIds) :
    (ch.dispose l s c p times ids).2.1.KeepsTo config := by
  have hrecorded := h.recordDissent l s c times.dissent ids
  rw [Chamber.dispose]
  split
  · next heq =>
    rw [heq] at hrecorded
    exact hrecorded
  · next dissent ch' l' heq =>
    rw [heq] at hrecorded
    have hemitted := hrecorded.emit s c p times.routed ids.completion ids.routing
    split
    · next hemit =>
      rw [hemit] at hemitted
      exact hemitted
    · next hemit =>
      rw [hemit] at hemitted
      exact hemitted.conclude l' s.id c dissent _

theorem complete (h : ch.KeepsTo config) (l : Ledger) (s : Session) (p : Petition)
    (times : CompletionTimes) (ids : CompletionIds) :
    (ch.complete l s p times ids).2.1.KeepsTo config := by
  rw [Chamber.complete]
  split
  · exact h
  · split
    · exact h
    · split
      · exact h
      · exact h.dispose ..

end Chamber.KeepsTo

theorem Sitting.keepsTo_step {x : Sitting} {config : Config} (hx : x.chamber.KeepsTo config)
    (call : Call) : (x.step call).chamber.KeepsTo config := by
  have haside {y : Sitting} (h : x.Aside y) : y.chamber.KeepsTo config :=
    ⟨h.config.trans hx.config_eq, h.table.trans hx.table⟩
  cases call with
  | complete s p times ids => exact hx.complete x.ledger s p times ids
  | acknowledge petition p => exact haside (x.step_aside _ trivial rfl)
  | filter library c text kind submitter id => exact haside (x.step_aside _ trivial rfl)
  | send library c deliver text kind submitter id => exact haside (x.step_aside _ trivial rfl)
  | append e => exact ⟨hx.config_eq, hx.table⟩
  | record s c rationale now id eventId => exact ⟨hx.config_eq, hx.table⟩
  | emit s c p now completionId routingId => exact hx.emit s c p now completionId routingId

theorem Sitting.keepsTo_run {x : Sitting} {config : Config} (hx : x.chamber.KeepsTo config)
    (calls : List Call) : (x.run calls).chamber.KeepsTo config := by
  induction calls generalizing x with
  | nil => exact hx
  | cons call calls ih => exact ih (keepsTo_step hx call)

/-! ### What is left to be refused for -/

namespace Sitting

/-- Why the completion of a deliberation fails. -/
inductive Refusal (x : Sitting) (s : Session) (p : Petition) : ChamberError → Prop
  | votes (h : ¬x.chamber.resolver.InOrder s s.voteMap) :
      Refusal x s p (.council (.voteValidation s.id (x.chamber.resolver.check s s.voteMap)))
  | split (hin : x.chamber.resolver.InOrder s s.voteMap)
      (hno : ∀ o, Ballot.tally s.voteMap o < Consensus.threshold) :
      Refusal x s p (.council
        (.noConsensus s.id s.petition Consensus.archonsPerSession Consensus.threshold))
  | routing (e : RoutingError) (h : x.chamber.router.Declines s p e) : Refusal x s p (.routing e)
  | dissentUnwritten (n : Nat) (h : x.ledger.WillRefuse) :
      Refusal x s p (.council (.ledger (.refused n)))
  | unreported (n : Nat) (h : x.ledger.WillRefuse) : Refusal x s p (.ledger (.refused n))

/-- The kinds of error with which the completion of a deliberation fails. -/
def refusalKinds : List String :=
  ["Council.VoteValidation", "Council.ConsensusNotReached", "Routing.IncompleteWitnessChain",
    "Routing.PetitionMismatch", "Routing.InvalidPetitionState", "Routing.PetitionAlreadyRouted",
    "Council.Ledger.CorruptEntry", "Ledger.CorruptEntry"]

theorem Refusal.kind_mem {x : Sitting} {s : Session} {p : Petition} {e : ChamberError}
    (h : Refusal x s p e) : e.kind ∈ refusalKinds := by
  cases h with
  | votes h => exact List.mem_of_elem_eq_true rfl
  | split hin hno => exact List.mem_of_elem_eq_true rfl
  | routing e h => cases h <;> exact List.mem_of_elem_eq_true rfl
  | dissentUnwritten n h => exact List.mem_of_elem_eq_true rfl
  | unreported n h => exact List.mem_of_elem_eq_true rfl

/-- The dissent of a count is witnessed, or the ledger does not take its event. -/
theorem recordDissent_of_counts {ch : Chamber} (hr : ch.recorder.Settled) (l : Ledger) {s : Session}
    {c : Consensus} {winner : Outcome} {resolved : Instant} (hc : c.Counts s winner resolved)
    (now : Instant) (ids : CompletionIds) :
    (∃ d recorder l', ch.recordDissent l s c now ids = (.ok d, { ch with recorder }, l') ∧
        l.Later l') ∨
      ∃ n z, ch.recordDissent l s c now ids = (.error (.council (.ledger (.refused n))), z) ∧
        l.WillRefuse := by
  rw [Chamber.recordDissent]
  cases ha : c.dissenter with
  | none => exact .inl ⟨none, ch.recorder, l, rfl, .refl l⟩
  | some a =>
      simp only
      obtain ⟨d, r', l', hrecord, hlater⟩ | ⟨l', hrecord, hrefuse⟩ :=
        Recorder.record_of_counts hr l hc ha ((s.rationaleOf? a).getD "") now ids.dissent
          ids.dissentEvent
      · rw [hrecord]
        exact .inl ⟨d, r', l', rfl, hlater⟩
      · rw [hrecord]
        exact .inr ⟨_, _, rfl, hrefuse⟩

/-- The completion is on the ledger, or the ledger does not take its event. -/
theorem appendCompletion_of_ledger (ch : Chamber) (l : Ledger) (s : SessionId) (d : Disposition) :
    (∃ n ch' l', ch.appendCompletion l s d = (.ok n, ch', l') ∧ l.Later l') ∨
      ∃ n z, ch.appendCompletion l s d = (.error (.ledger (.refused n)), z) ∧ l.WillRefuse := by
  rw [Chamber.appendCompletion]
  cases ch.appended.get? s with
  | some n => exact .inl ⟨n, ch, l, rfl, .refl l⟩
  | none =>
      have hlater := l.later_append d.completion.event
      cases happend : l.append d.completion.event with
      | mk answer l' =>
          rw [happend] at hlater
          cases answer with
          | error err =>
              obtain ⟨rfl, -⟩ := Ledger.append_eq_error happend
              exact .inr ⟨_, _, rfl, .of_append happend⟩
          | ok n => exact .inl ⟨n, _, l', rfl, hlater⟩

/-- Only the ledger keeps a disposition from being reported. -/
theorem conclude_eq_error {ch : Chamber} {l : Ledger} {s : SessionId} {c : Consensus}
    {dissent : Option Dissent} {d : Disposition} {e : ChamberError} {z : Chamber × Ledger}
    (h : ch.conclude l s c dissent d = (.error e, z)) :
    ∃ n, e = .ledger (.refused n) ∧ l.WillRefuse := by
  rw [Chamber.conclude] at h
  obtain ⟨n, ch', l', hcompletion, hlater⟩ | ⟨n, z, hcompletion, hrefuse⟩ :=
    appendCompletion_of_ledger ch l s d
  · rw [hcompletion] at h
    simp only at h
    cases happend : l'.append d.routing.event with
    | mk answer l'' =>
        rw [happend] at h
        cases answer with
        | error err =>
            obtain ⟨rfl, -⟩ := Ledger.append_eq_error happend
            cases h
            exact ⟨_, rfl, hlater.willRefuse (.of_append happend)⟩
        | ok m => cases h
  · rw [hcompletion] at h
    cases h
    exact ⟨n, rfl, hrefuse⟩

/-- A petition that has been found in order is disposed of, save that the ledger may not take an
event. -/
theorem refusal_of_dispose {x : Sitting} (hx : x.Ready) {s : Session} (hs : s.Valid)
    (hall : s.AllVoted) {c : Consensus} {winner : Outcome} {resolved : Instant}
    (hc : c.Counts s winner resolved) {p : Petition} {pipeline : Pipeline}
    (hcheck : x.chamber.router.precheck s c p = .ok pipeline) {times : CompletionTimes}
    {ids : CompletionIds}
    {e : ChamberError} (h : (x.chamber.dispose x.ledger s c p times ids).1 = .error e) :
    Refusal x s p e := by
  rw [Chamber.dispose] at h
  obtain ⟨dissent, recorder, l', hdissent, hlater⟩ | ⟨n, z, hdissent, hrefuse⟩ :=
    recordDissent_of_counts hx.settled x.ledger hc times.dissent ids
  · obtain ⟨d, router, hemit⟩ :=
      Router.emit_of_precheck hx.sound hs hall hc hcheck times.routed ids.completion ids.routing
    simp only [hdissent, hemit] at h
    obtain ⟨n, rfl, hrefuse⟩ := conclude_eq_error (Prod.ext h rfl)
    exact .unreported n (hlater.willRefuse hrefuse)
  · simp only [hdissent] at h
    cases h
    exact .dissentUnwritten n hrefuse

theorem refusal_of_complete {x : Sitting} (hx : x.Ready) {config : Config}
    (hconfig : config.fault? = none) (hkept : x.chamber.KeepsTo config) {s : Session}
    (hs : s.Valid) {p : Petition} {times : CompletionTimes} {ids : CompletionIds}
    {e : ChamberError}
    {y : Sitting} (h : x.complete s p times ids = (.error e, y)) : Refusal x s p e := by
  replace h := congrArg Prod.fst h
  rw [complete, Chamber.complete] at h
  cases hout : x.chamber.completed.get? s.id with
  | some out => simp [hout] at h
  | none =>
      simp only [hout] at h
      cases hresolve : x.chamber.resolver.resolve s s.voteMap times.resolved with
      | error err =>
          simp only [hresolve] at h
          cases h
          obtain ⟨hin, rfl⟩ | ⟨hin, hno, rfl⟩ := Resolver.resolve_eq_error hs hresolve
          · exact .votes hin
          · exact .split hin hno
      | ok c =>
          simp only [hresolve] at h
          obtain ⟨hall, winner, hc⟩ := Resolver.counts_of_resolve hs hresolve
          -- the winner may be voted for, so the settings have a pipeline for it
          obtain ⟨pipeline, hpipeline⟩ : ∃ pipeline,
              x.chamber.router.table.get? winner = some pipeline := by
            rw [hkept.table]
            refine Config.exists_pipeline hconfig ?_
            rw [← hkept.config_eq]
            exact Resolver.permitted_of_counts hresolve hc
          cases hcheck : x.chamber.router.precheck s c p with
          | error err =>
              simp only [hcheck] at h
              cases h
              exact .routing _ (Router.declines_of_precheck hc hpipeline hcheck)
          | ok taken =>
              simp only [hcheck] at h
              exact refusal_of_dispose hx hs hall hc hcheck h

/-- A chamber with settings that are accepted, whatever has been asked of it, fails to complete a
deliberation for these reasons only. -/
theorem refused_for_cause {config : Config} {ch : Chamber} (hch : Chamber.new config = .ok ch)
    (l : Ledger) {calls : List Call} (hcalls : ∀ s ∈ passed calls, s.Arises) {s : Session}
    (hs : s.Arises) (p : Petition) (times : CompletionTimes) (ids : CompletionIds)
    {e : ChamberError}
    {y : Sitting} (h : (run ⟨ch, l⟩ calls).complete s p times ids = (.error e, y)) :
    Refusal (run ⟨ch, l⟩ calls) s p e ∧ e.kind ∈ refusalKinds := by
  have hready : (run ⟨ch, l⟩ calls).Ready := (Ready.opened hch l).run hcalls
  have hkept : (run ⟨ch, l⟩ calls).chamber.KeepsTo config :=
    keepsTo_run (x := ⟨ch, l⟩) (.new hch) calls
  have hcause := refusal_of_complete hready (Config.fault?_of_new hch) hkept hs.valid h
  exact ⟨hcause, hcause.kind_mem⟩

/-- The ledger takes two events, those of a first deliberation, and no dissent in a second. -/
theorem refused_for_cause_unwritten :
    let x := run ⟨.standard, ⟨[], 0, fun n => decide (2 < n)⟩⟩ [.complete
      (.sample 1 2 .refer .refer .refer) (.sample 2) (.sample 0) (.sample 10)]
    let e := (x.complete (.sample 3 4 .refer .refer .escalate) (.sample 4) (.sample 1)
      (.sample 20)).1
    e = .error (.council (.ledger (.refused 2))) ∧
      Refusal x (.sample 3 4 .refer .refer .escalate) (.sample 4)
        (.council (.ledger (.refused 2))) := by
  intro x e
  have herror : e = .error (.council (.ledger (.refused 2))) := by rfl
  have hcalls (s : Session) (hs : s ∈ passed [.complete (.sample 1 2 .refer .refer .refer)
      (.sample 2) (.sample 0) (.sample 10)]) : s.Arises := by
    obtain rfl := List.mem_singleton.1 hs
    exact Session.sample_arises ..
  exact ⟨herror, (refused_for_cause Chamber.new_standard _ hcalls
    (Session.sample_arises 3 4 .refer .refer .escalate) (.sample 4) (.sample 1) (.sample 20)
    (Prod.ext herror rfl)).1⟩

end Sitting

end Curia
