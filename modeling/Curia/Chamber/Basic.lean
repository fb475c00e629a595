import Curia.Chamber.Error
import Curia.Council.Recorder
import Curia.Council.Resolution
import Curia.Router.Basic

/-!
The chamber joins the counting of votes, the recording of dissents, the routing of petitions and the
filter over one ledger. A deliberation is completed once; asked again, the chamber gives the same
answer. What failed half way is taken up where it stopped.
-/

namespace Curia

/-- The identifiers that one completion may use. -/
structure CompletionIds where
  dissent : DissentId
  dissentEvent : EventId
  completion : EventId
  routing : EventId
  deriving DecidableEq

/-- What the clock shows during one completion: as the votes are counted, as a dissent is recorded
and as the petition is routed. -/
structure CompletionTimes where
  resolved : Instant
  dissent : Instant
  routed : Instant
  deriving DecidableEq

/-- What a completed deliberation has led to. -/
structure Completed where
  consensus : Consensus
  dissent : Option Dissent
  disposition : Disposition
  /-- The number of the completion's event on the ledger. -/
  completionSequence : Nat
  /-- The number of the routing's event on the ledger. -/
  routingSequence : Nat
  deriving DecidableEq

def Completed.toJson (c : Completed) : Json :=
  .record
    [("consensus", c.consensus.toJson),
     ("dissent", .ofOption Dissent.toJson c.dissent),
     ("disposition", c.disposition.toJson),
     ("completion_sequence", .nat c.completionSequence),
     ("routing_sequence", .nat c.routingSequence)]

structure Chamber where
  config : Config
  recorder : Recorder
  router : Router
  filter : Filter
  completed : SortedMap SessionId Completed
  /-- The numbers of completion events whose routing event is not on the ledger yet. -/
  appended : SortedMap SessionId Nat

namespace Chamber

def new (config : Config) : Except ChamberError Chamber :=
  match config.fault? with
  | some f => .error (.config f)
  | none => .ok
    { config
      recorder := .empty
      router := .new config.routing
      filter := .new config.filter.version config.filter.budget
      completed := ∅
      appended := ∅ }

def resolver (ch : Chamber) : Resolver := ⟨ch.config.permitted⟩

/-- Records the dissent that a consensus names, with the reason that the dissenter gave. -/
def recordDissent (ch : Chamber) (l : Ledger) (s : Session) (c : Consensus) (now : Instant)
    (ids : CompletionIds) : Except ChamberError (Option Dissent) × Chamber × Ledger :=
  match c.dissenter with
  | none => (.ok none, ch, l)
  | some a =>
    let rationale := (s.rationaleOf? a).getD ""
    match ch.recorder.record l s c rationale now ids.dissent ids.dissentEvent with
    | (.error e, recorder, l) => (.error (.council e), { ch with recorder }, l)
    | (.ok d, recorder, l) => (.ok d, { ch with recorder }, l)

/-- Appends the completion's event, unless that has been done. -/
def appendCompletion (ch : Chamber) (l : Ledger) (s : SessionId) (d : Disposition) :
    Except ChamberError Nat × Chamber × Ledger :=
  match ch.appended.get? s with
  | some n => (.ok n, ch, l)
  | none => match l.append d.completion.event with
    | (.error e, l) => (.error (.ledger e), ch, l)
    | (.ok n, l) => (.ok n, { ch with appended := ch.appended.insert s n }, l)

/-- Appends the events of a disposition and keeps the result. -/
def conclude (ch : Chamber) (l : Ledger) (s : SessionId) (c : Consensus) (dissent : Option Dissent)
    (d : Disposition) : Except ChamberError Completed × Chamber × Ledger :=
  match ch.appendCompletion l s d with
  | (.error e, ch, l) => (.error e, ch, l)
  | (.ok completionSequence, ch, l) => match l.append d.routing.event with
    | (.error e, l) => (.error (.ledger e), ch, l)
    | (.ok routingSequence, l) =>
      let done : Completed := ⟨c, dissent, d, completionSequence, routingSequence⟩
      (.ok done,
        { ch with appended := ch.appended.erase s, completed := ch.completed.insert s done }, l)

/-- Completes a deliberation whose consensus is resolved and which the router would take. -/
def dispose (ch : Chamber) (l : Ledger) (s : Session) (c : Consensus) (p : Petition)
    (times : CompletionTimes) (ids : CompletionIds) :
    Except ChamberError Completed × Chamber × Ledger :=
  match ch.recordDissent l s c times.dissent ids with
  | (.error e, ch, l) => (.error e, ch, l)
  | (.ok dissent, ch, l) => match ch.router.emit s c p times.routed ids.completion ids.routing with
    | (.error e, router) => (.error (.routing e), { ch with router }, l)
    | (.ok d, router) => { ch with router }.conclude l s.id c dissent d

/-- Counts the votes, checks that the petition can be routed, records the dissent, routes the
petition and puts it all on the ledger. -/
def complete (ch : Chamber) (l : Ledger) (s : Session) (p : Petition) (times : CompletionTimes)
    (ids : CompletionIds) : Except ChamberError Completed × Chamber × Ledger :=
  match ch.completed.get? s.id with
  | some done => (.ok done, ch, l)
  | none => match ch.resolver.resolve s s.voteMap times.resolved with
    | .error e => (.error (.council e), ch, l)
    | .ok c => match ch.router.precheck s c p with
      | .error e => (.error (.routing e), ch, l)
      | .ok _ => ch.dispose l s c p times ids

/-! ### Messages -/

/-- What has come of a message: the answer, and the text handed over for delivery, if any was. -/
structure Sending where
  answer : Except ChamberError (FilterResult Released)
  handed : Option Released

def filterMessage (ch : Chamber) (library : Option Library) (c : Clock) (l : Ledger)
    (text : String) (kind : MessageKind) (submitter : String) (id : DecisionId) :
    Except ChamberError (FilterResult Released) × Chamber × Clock × Ledger :=
  match ch.filter.run library c l text kind submitter id with
  | (.error e, filter, c, l) => (.error (.filter e), { ch with filter }, c, l)
  | (.ok r, filter, c, l) => (.ok r, { ch with filter }, c, l)

def previewMessage (ch : Chamber) (library : Option Library) (c : Clock) (text : String) :
    FilterResult String × Clock :=
  ch.filter.preview library c text

/-- Filters a message and hands over what is accepted; `deliver` tells whether that fails. -/
def send (ch : Chamber) (library : Option Library) (c : Clock) (l : Ledger)
    (deliver : Released → Option DeliveryError) (text : String) (kind : MessageKind)
    (submitter : String) (id : DecisionId) : Sending × Chamber × Clock × Ledger :=
  match ch.filterMessage library c l text kind submitter id with
  | (.error e, ch, c, l) => (⟨.error e, none⟩, ch, c, l)
  | (.ok r, ch, c, l) => match r.verdict.content? with
    | none => (⟨.ok r, none⟩, ch, c, l)
    | some content => match deliver content with
      | some e => (⟨.error (.delivery e), some content⟩, ch, c, l)
      | none => (⟨.ok r, some content⟩, ch, c, l)

end Chamber

end Curia
