import Curia.Council.Dissent
import Curia.Filter.DecisionLog
import Curia.Ledger.Basic
import Curia.Proofs.Identifiers
import Curia.Proofs.Json.Members
import Curia.Router.Completion

/-!
The events by which the ledger tells how a deliberation went: its dissent, its completion and its
routing. They are told apart by their kinds and belong to the session and the petition that their
payloads name.
-/

namespace Curia

/-! ### What an event is about -/

namespace Event

/-- The session that the payload names, if it does. -/
def session? (e : Event) : Option SessionId :=
  (e.payload.member? "session_id").bind fun v => (SessionId.ofJson v).toOption

/-- The petition that the payload names, if it does. -/
def petition? (e : Event) : Option PetitionId :=
  (e.payload.member? "petition_id").bind fun v => (PetitionId.ofJson v).toOption

/-- The kinds of the events that a deliberation leaves on the ledger, in their order. -/
def reportKinds : List String := [Dissent.eventKind, Completion.eventKind, Routing.eventKind]

/-- Whether the event reports on a deliberation. -/
def IsReport (e : Event) : Prop := e.kind ∈ reportKinds

instance (e : Event) : Decidable e.IsReport := inferInstanceAs (Decidable (_ ∈ _))

theorem session?_record {e : Event} {ms : List (String × Json)} {s : SessionId}
    (hp : e.payload = .record ms) (h : ms.reverse.lookup "session_id" = some s.toJson) :
    e.session? = some s := by
  simp [session?, hp, Json.member?_record, h, SessionId.ofJson_toJson, Except.toOption]

theorem petition?_record {e : Event} {ms : List (String × Json)} {p : PetitionId}
    (hp : e.payload = .record ms) (h : ms.reverse.lookup "petition_id" = some p.toJson) :
    e.petition? = some p := by
  simp [petition?, hp, Json.member?_record, h, PetitionId.ofJson_toJson, Except.toOption]

end Event

namespace Dissent

@[simp] theorem event_kind (d : Dissent) (id : EventId) : (d.event id).kind = eventKind := rfl

@[simp] theorem event_session? (d : Dissent) (id : EventId) :
    (d.event id).session? = some d.session :=
  Event.session?_record rfl rfl

@[simp] theorem event_petition? (d : Dissent) (id : EventId) :
    (d.event id).petition? = some d.petition :=
  Event.petition?_record rfl rfl

theorem event_isReport (d : Dissent) (id : EventId) : (d.event id).IsReport :=
  List.mem_cons_self

end Dissent

namespace Completion

@[simp] theorem event_kind (c : Completion) : c.event.kind = eventKind := rfl

@[simp] theorem event_session? (c : Completion) : c.event.session? = some c.session :=
  Event.session?_record rfl rfl

@[simp] theorem event_petition? (c : Completion) : c.event.petition? = some c.petition :=
  Event.petition?_record rfl rfl

theorem event_isReport (c : Completion) : c.event.IsReport :=
  List.mem_cons_of_mem _ List.mem_cons_self

end Completion

namespace Routing

@[simp] theorem event_kind (r : Routing) : r.event.kind = eventKind := rfl

@[simp] theorem event_session? (r : Routing) : r.event.session? = some r.session :=
  Event.session?_record rfl rfl

@[simp] theorem event_petition? (r : Routing) : r.event.petition? = some r.petition :=
  Event.petition?_record rfl rfl

theorem event_isReport (r : Routing) : r.event.IsReport :=
  List.mem_cons_of_mem _ (List.mem_cons_of_mem _ List.mem_cons_self)

end Routing

theorem Decision.event_not_isReport (d : Decision) : ¬d.event.IsReport := by
  have h : Decision.eventKind ∉ Event.reportKinds := by decide
  exact h

/-! ### Appending -/

namespace Ledger

/-- The reports on the deliberation of a session, in the order in which they were appended. -/
def reportsOf (l : Ledger) (s : SessionId) : List Event :=
  l.events.filter fun e => e.IsReport ∧ e.session? = some s

/-- The event with a number, counted from one. -/
def event? (l : Ledger) (n : Nat) : Option Event := if n = 0 then none else l.events[n - 1]?

/-- An attempt to append fails and adds nothing, or adds the event under the next number. -/
theorem append_cases (l : Ledger) (e : Event) :
    (∃ err l', l.append e = (.error err, l') ∧ l'.events = l.events) ∨
      ∃ l', l.append e = (.ok (l.length + 1), l') ∧ l'.events = l.events ++ [e] := by
  rw [append]
  split
  · exact .inl ⟨_, _, rfl, rfl⟩
  · exact .inr ⟨_, rfl, rfl⟩

theorem append_of_not_refused {l : Ledger} (h : l.refuses (l.attempts + 1) = false) (e : Event) :
    ∃ l', l.append e = (.ok (l.length + 1), l') ∧ l'.events = l.events ++ [e] := by
  rw [append]
  simp [h]

theorem mem_of_event? {l : Ledger} {n : Nat} {e : Event} (h : l.event? n = some e) :
    e ∈ l.events := by
  rw [event?] at h
  split at h
  · cases h
  · exact List.mem_of_getElem? h

theorem event?_next {l l' : Ledger} {e : Event} (h : l'.events = l.events ++ [e]) :
    l'.event? (l.length + 1) = some e := by
  simp [event?, h, length]

theorem event?_append {l l' : Ledger} {es : List Event} {n : Nat} {e : Event}
    (h : l'.events = l.events ++ es) (he : l.event? n = some e) : l'.event? n = some e := by
  unfold event? at he ⊢
  split at he
  · cases he
  · next hn =>
    rw [if_neg hn, h]
    rw [List.getElem?_append_left (List.getElem?_eq_some_iff.1 he).1]
    exact he

theorem reportsOf_append {l l' : Ledger} {e : Event} (h : l'.events = l.events ++ [e])
    (s : SessionId) :
    l'.reportsOf s = l.reportsOf s ++ if e.IsReport ∧ e.session? = some s then [e] else [] := by
  rw [reportsOf, h, List.filter_append, ← reportsOf]
  congr 1
  by_cases he : e.IsReport ∧ e.session? = some s <;> simp [he]

theorem reportsOf_eq_nil {l : Ledger} (hl : ∀ e ∈ l.events, ¬e.IsReport) (s : SessionId) :
    l.reportsOf s = [] :=
  List.filter_eq_nil_iff.2 fun e he h => hl e he (of_decide_eq_true h).1

theorem reportsOf_of_eq {l l' : Ledger} (h : l'.events = l.events) (s : SessionId) :
    l'.reportsOf s = l.reportsOf s := by
  rw [reportsOf, h, ← reportsOf]

theorem reportsOf_of_ne {l l' : Ledger} {e : Event} {s t : SessionId}
    (h : l'.events = l.events ++ [e]) (he : e.session? = some s) (hst : s ≠ t) :
    l'.reportsOf t = l.reportsOf t := by
  have hne : ¬(e.IsReport ∧ e.session? = some t) :=
    fun ht => hst (Option.some.inj (he.symm.trans ht.2))
  rw [reportsOf_append h, if_neg hne, List.append_nil]

theorem reportsOf_of_isReport {l l' : Ledger} {e : Event} {s : SessionId}
    (h : l'.events = l.events ++ [e]) (he : e.session? = some s) (hreport : e.IsReport) :
    l'.reportsOf s = l.reportsOf s ++ [e] := by
  rw [reportsOf_append h, if_pos ⟨hreport, he⟩]

/-! ### Growing -/

/-- The second ledger has the events of the first and perhaps more, of which every report names its
session. -/
def Grows (l l' : Ledger) : Prop :=
  ∃ es, l'.events = l.events ++ es ∧ ∀ e ∈ es, e.IsReport → ∃ s, e.session? = some s

namespace Grows

theorem of_eq {l l' : Ledger} (h : l'.events = l.events) : l.Grows l' :=
  ⟨[], by rw [h, List.append_nil], fun e he => by cases he⟩

theorem of_append {l l' : Ledger} {e : Event} (h : l'.events = l.events ++ [e])
    (he : e.IsReport → ∃ s, e.session? = some s) : l.Grows l' := by
  refine ⟨[e], h, fun f hf => ?_⟩
  obtain rfl := List.mem_singleton.1 hf
  exact he

theorem trans {l l' l'' : Ledger} (h : l.Grows l') (h' : l'.Grows l'') : l.Grows l'' := by
  obtain ⟨es, hes, hnamed⟩ := h
  obtain ⟨es', hes', hnamed'⟩ := h'
  refine ⟨es ++ es', by rw [hes', hes, List.append_assoc], fun e he => ?_⟩
  rcases List.mem_append.1 he with he | he
  · exact hnamed e he
  · exact hnamed' e he

theorem event? {l l' : Ledger} (h : l.Grows l') {n : Nat} {e : Event} (he : l.event? n = some e) :
    l'.event? n = some e := by
  obtain ⟨es, hes, -⟩ := h
  exact event?_append hes he

end Grows

end Ledger

end Curia
