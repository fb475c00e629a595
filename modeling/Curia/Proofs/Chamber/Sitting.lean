import Curia.Chamber.Basic
import Curia.Proofs.Council.Session
import Curia.Proofs.Filter.Auditing

/-!
A chamber at work on one ledger. Between the deliberations that it completes, messages are filtered
and sent, petitions are taken out of the queues, and the ledger takes events from elsewhere; all of
that leaves alone what a deliberation goes by.
-/

namespace Curia

/-- A chamber and the ledger that it writes to. -/
structure Sitting where
  chamber : Chamber
  ledger : Ledger

/-- What may be asked of a chamber, of its ledger, or directly of its recorder and its router. -/
inductive Call where
  | complete (s : Session) (p : Petition) (times : CompletionTimes) (ids : CompletionIds)
  | acknowledge (petition : PetitionId) (p : Pipeline)
  | filter (library : Option Library) (c : Clock) (text : String) (kind : MessageKind)
      (submitter : String) (id : DecisionId)
  | send (library : Option Library) (c : Clock) (deliver : Released → Option DeliveryError)
      (text : String) (kind : MessageKind) (submitter : String) (id : DecisionId)
  | append (e : Event)
  | record (s : Session) (c : Consensus) (rationale : String) (now : Instant) (id : DissentId)
      (eventId : EventId)
  | emit (s : Session) (c : Consensus) (p : Petition) (now : Instant)
      (completionId routingId : EventId)

namespace Call

/-- The session whose deliberation is to be completed. -/
def session? : Call → Option Session
  | complete s _ _ _ => some s
  | _ => none

/-- Recorder and router are left to the chamber, and so are the reports on deliberations. -/
def Mediated : Call → Prop
  | append e => ¬e.IsReport
  | record .. | emit .. => False
  | _ => True

end Call

/-- The states of sessions that calls pass, in the order of the calls. -/
def passed (calls : List Call) : List Session := calls.filterMap Call.session?

/-- All goes through the chamber, and all states passed for one session are states of one session
as it develops. -/
structure Orderly (calls : List Call) : Prop where
  mediated : ∀ call ∈ calls, call.Mediated
  arises : ∀ s ∈ passed calls, s.Arises
  akin : ∀ s ∈ passed calls, ∀ t ∈ passed calls, s.id = t.id → s.Akin t

theorem passed_append (calls more : List Call) :
    passed (calls ++ more) = passed calls ++ passed more :=
  List.filterMap_append ..

theorem Orderly.sublist {calls more : List Call} (h : Orderly more) (hcalls : calls.Sublist more) :
    Orderly calls := by
  have hmem {s : Session} (hs : s ∈ passed calls) : s ∈ passed more :=
    (hcalls.filterMap _).subset hs
  refine ⟨fun call hcall => h.mediated call (hcalls.subset hcall), fun s hs => h.arises s (hmem hs),
    fun s hs t ht => h.akin s (hmem hs) t (hmem ht)⟩

theorem Orderly.left {calls more : List Call} (h : Orderly (calls ++ more)) : Orderly calls :=
  h.sublist (List.sublist_append_left ..)

theorem Orderly.right {calls more : List Call} (h : Orderly (calls ++ more)) : Orderly more :=
  h.sublist (List.sublist_append_right ..)

theorem passed_complete (calls : List Call) (s : Session) (p : Petition) (times : CompletionTimes)
    (ids : CompletionIds) : passed (calls ++ [.complete s p times ids]) = passed calls ++ [s] :=
  passed_append ..

/-- The state that is passed last is a later or an earlier one of those that were passed for its
session before. -/
theorem Orderly.last {calls : List Call} {s : Session} {p : Petition} {times : CompletionTimes}
    {ids : CompletionIds} (h : Orderly (calls ++ [.complete s p times ids])) :
    s.Valid ∧ ∀ u ∈ passed calls, u.id = s.id → u.Valid ∧ u.Akin s := by
  have hs : s ∈ passed (calls ++ [.complete s p times ids]) := by
    rw [passed_complete]
    exact List.mem_append_right _ List.mem_cons_self
  refine ⟨(h.arises s hs).valid, fun u hu hid => ?_⟩
  have hu' : u ∈ passed (calls ++ [.complete s p times ids]) := by
    rw [passed_complete]
    exact List.mem_append_left _ hu
  exact ⟨(h.arises u hu').valid, h.akin u hu' s hs hid⟩

/-- It is orderly to ask for one state of one session again and again. -/
theorem orderly_of_same {s : Session} (hs : s.Arises) {calls : List Call}
    (hmediated : ∀ call ∈ calls, call.Mediated) (hsame : ∀ t ∈ passed calls, t = s) :
    Orderly calls := by
  refine ⟨hmediated, fun t ht => hsame t ht ▸ hs, fun t ht u hu _ => ?_⟩
  rw [hsame t ht, hsame u hu]
  exact .inl .refl

namespace Sitting

def complete (x : Sitting) (s : Session) (p : Petition) (times : CompletionTimes)
    (ids : CompletionIds) : Except ChamberError Completed × Sitting :=
  let r := x.chamber.complete x.ledger s p times ids
  (r.1, ⟨r.2.1, r.2.2⟩)

def step (x : Sitting) : Call → Sitting
  | .complete s p times ids => (x.complete s p times ids).2
  | .acknowledge petition p =>
    { x with chamber.router := (x.chamber.router.acknowledge petition p).2 }
  | .filter library c text kind submitter id =>
    let r := x.chamber.filterMessage library c x.ledger text kind submitter id
    ⟨r.2.1, r.2.2.2⟩
  | .send library c deliver text kind submitter id =>
    let r := x.chamber.send library c x.ledger deliver text kind submitter id
    ⟨r.2.1, r.2.2.2⟩
  | .append e => { x with ledger := (x.ledger.append e).2 }
  | .record s c rationale now id eventId =>
    let r := x.chamber.recorder.record x.ledger s c rationale now id eventId
    ⟨{ x.chamber with recorder := r.2.1 }, r.2.2⟩
  | .emit s c p now completionId routingId =>
    { x with chamber.router := (x.chamber.router.emit s c p now completionId routingId).2 }

def run (x : Sitting) (calls : List Call) : Sitting := calls.foldl step x

theorem run_append (x : Sitting) (calls more : List Call) :
    x.run (calls ++ more) = (x.run calls).run more :=
  List.foldl_append

theorem run_concat (x : Sitting) (calls : List Call) (call : Call) :
    x.run (calls ++ [call]) = (x.run calls).step call :=
  x.run_append calls [call]

/-- What every call keeps that passes a state of a session, or none, is kept by all calls in turn. -/
theorem run_induction {P : Sitting → Prop}
    (hstep : ∀ (x : Sitting) (call : Call), P x → (∀ s, call.session? = some s → s.Arises) →
      P (x.step call))
    {x : Sitting} (hx : P x) {calls : List Call} (hcalls : ∀ s ∈ passed calls, s.Arises) :
    P (x.run calls) := by
  induction calls generalizing x with
  | nil => exact hx
  | cons call calls ih =>
      have hfirst (s : Session) (h : call.session? = some s) : s.Arises :=
        hcalls s (List.mem_filterMap.2 ⟨call, List.mem_cons_self, h⟩)
      have hrest (s : Session) (h : s ∈ passed calls) : s.Arises := by
        refine hcalls s ?_
        rw [← List.singleton_append, passed_append]
        exact List.mem_append_right _ h
      exact ih (hstep x call hx hfirst) hrest

/-! ### Calls aside -/

/-- All that a deliberation goes by is the same, save that an event which is no report may have been
put on the ledger. -/
structure Aside (x y : Sitting) : Prop where
  config : y.chamber.config = x.chamber.config
  recorder : y.chamber.recorder = x.chamber.recorder
  table : y.chamber.router.table = x.chamber.router.table
  emitted : y.chamber.router.emitted = x.chamber.router.emitted
  reserved : y.chamber.router.reserved = x.chamber.router.reserved
  completed : y.chamber.completed = x.chamber.completed
  appended : y.chamber.appended = x.chamber.appended
  events : y.ledger.events = x.ledger.events ∨
    ∃ e : Event, ¬e.IsReport ∧ y.ledger.events = x.ledger.events ++ [e]

theorem filterMessage_aside (ch : Chamber) (library : Option Library) (c : Clock) (l : Ledger)
    (text : String) (kind : MessageKind) (submitter : String) (id : DecisionId) :
    Aside ⟨ch, l⟩ ⟨(ch.filterMessage library c l text kind submitter id).2.1,
      (ch.filterMessage library c l text kind submitter id).2.2.2⟩ := by
  have hevents : (ch.filter.run library c l text kind submitter id).2.2.2.events = l.events ∨
      ∃ e : Event, ¬e.IsReport ∧
        (ch.filter.run library c l text kind submitter id).2.2.2.events = l.events ++ [e] :=
    (ch.filter.run_attempt library c text kind submitter id l).books_cases.imp And.left
      fun h => ⟨_, Decision.event_not_isReport _, h.1⟩
  rw [Chamber.filterMessage]
  split
  · next h =>
    rw [h] at hevents
    exact ⟨rfl, rfl, rfl, rfl, rfl, rfl, rfl, hevents⟩
  · next h =>
    rw [h] at hevents
    exact ⟨rfl, rfl, rfl, rfl, rfl, rfl, rfl, hevents⟩

theorem send_eq_filterMessage (ch : Chamber) (library : Option Library) (c : Clock) (l : Ledger)
    (deliver : Released → Option DeliveryError) (text : String) (kind : MessageKind)
    (submitter : String) (id : DecisionId) :
    (ch.send library c l deliver text kind submitter id).2 =
      (ch.filterMessage library c l text kind submitter id).2 := by
  rw [Chamber.send]
  split
  · next h => rw [h]
  · next h =>
    rw [h]
    split
    · rfl
    · split <;> rfl

/-- A call that completes nothing and keeps to the chamber is aside. -/
theorem step_aside (x : Sitting) (call : Call) (hcall : call.Mediated)
    (hnone : call.session? = none) : x.Aside (x.step call) := by
  cases call with
  | complete s p times ids => cases hnone
  | acknowledge petition p => exact ⟨rfl, rfl, rfl, rfl, rfl, rfl, rfl, .inl rfl⟩
  | filter library c text kind submitter id => exact filterMessage_aside ..
  | send library c deliver text kind submitter id =>
      simp only [step, send_eq_filterMessage]
      exact filterMessage_aside ..
  | append e =>
      refine ⟨rfl, rfl, rfl, rfl, rfl, rfl, rfl, ?_⟩
      rw [step]
      obtain ⟨err, l', happend, hl⟩ | ⟨l', happend, hl⟩ := x.ledger.append_cases e
      · exact .inl (by rw [happend, hl])
      · exact .inr ⟨e, hcall, by rw [happend, hl]⟩
  | record s c rationale now id eventId => exact hcall.elim
  | emit s c p now completionId routingId => exact hcall.elim

end Sitting

/-! ### Samples -/

/-- A chamber with the standard settings. -/
def Chamber.standard : Chamber where
  config := .standard
  recorder := .empty
  router := .new Config.standard.routing
  filter := .new Config.standard.filter.version Config.standard.filter.budget
  completed := ∅
  appended := ∅

theorem Chamber.new_standard : Chamber.new Config.standard = .ok Chamber.standard := by
  have h : Config.standard.fault? = none := by decide +kernel
  rw [Chamber.new, h]
  rfl

/-- The clock shows full seconds as the votes are counted and moves on from there. -/
def CompletionTimes.sample (seconds : Nat) : CompletionTimes :=
  let reading (nanos : Nat) : Instant := (Instant.of? seconds nanos).getD .epoch
  ⟨reading 0, reading 1, reading 2⟩

def CompletionIds.sample (n : Nat) : CompletionIds :=
  ⟨⟨.ofNat n⟩, ⟨.ofNat (n + 1)⟩, ⟨.ofNat (n + 2)⟩, ⟨.ofNat (n + 3)⟩⟩

end Curia
