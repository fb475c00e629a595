import Curia.Proofs.Ledger.Reports

/-!
What is on the ledger once the reasons are taken out: the digest in the report of a dissent, and the
texts in the votes that the report of a completion repeats. A report without its reasons is the
report that is made of a record without its reasons.
-/

namespace Curia

/-! ### Writing over the members of a value -/

namespace Json

/-- Puts a value in the place of all that a path leads to. Each step of a path goes to a member of a
name, or to all members. -/
def overwrite : Json → List (Option String) → Json → Json
  | _, [], w => w
  | .object ms, step :: path, w =>
    .object (ms.map fun m => (m.1, if step.all (· = m.1) then overwrite m.2 path w else m.2))
  | v, _ :: _, _ => v

theorem map_insertMember (f : String → Json → Json) (name : String) (v : Json)
    (ms : List (String × Json)) : (insertMember name v ms).map (fun m => (m.1, f m.1 m.2)) =
      insertMember name (f name v) (ms.map fun m => (m.1, f m.1 m.2)) := by
  induction ms with
  | nil => rfl
  | cons m ms ih =>
      simp only [insertMember, List.map_cons]
      split
      · rfl
      · split
        · rfl
        · rw [List.map_cons, ih]

theorem map_sortMembers (f : String → Json → Json) (ms : List (String × Json)) :
    (sortMembers ms).map (fun m => (m.1, f m.1 m.2)) =
      sortMembers (ms.map fun m => (m.1, f m.1 m.2)) := by
  simp only [sortMembers]
  suffices h : ∀ sorted : List (String × Json),
      (ms.foldl (fun sorted m => insertMember m.1 m.2 sorted) sorted).map
          (fun m => (m.1, f m.1 m.2)) =
        (ms.map fun m => (m.1, f m.1 m.2)).foldl (fun sorted m => insertMember m.1 m.2 sorted)
          (sorted.map fun m => (m.1, f m.1 m.2)) by
    exact h []
  induction ms with
  | nil => exact fun _ => rfl
  | cons m ms ih =>
      intro sorted
      rw [List.foldl_cons, ih, map_insertMember, List.map_cons, List.foldl_cons]

theorem overwrite_record (ms : List (String × Json)) (step : Option String)
    (path : List (Option String)) (w : Json) : (record ms).overwrite (step :: path) w =
      record (ms.map fun m =>
        (m.1, if step.all (· = m.1) then m.2.overwrite path w else m.2)) := by
  rw [record, overwrite, record]
  exact congrArg object
    (map_sortMembers (fun n v => if step.all (· = n) then v.overwrite path w else v) ms)

end Json

/-! ### Records without their reasons -/

def Vote.bare (v : Vote) : Vote := { v with rationale := "" }

def Dissent.bare (d : Dissent) : Dissent :=
  { d with rationale := "", rationaleHash := Digest.ofText "" }

def Completion.bare (c : Completion) : Completion := { c with votes := c.votes.map Vote.bare }

/-! ### Events without reasons -/

namespace Event

/-- The event in which the digest of a reason is that of no text, and reasons are no text. -/
def bare (e : Event) : Event :=
  if e.kind = Dissent.eventKind then
    { e with payload :=
        e.payload.overwrite [some "rationale_hash"] (.string (Digest.ofText "").toHex) }
  else if e.kind = Completion.eventKind then
    { e with payload :=
        e.payload.overwrite [some "vote_breakdown", none, some "rationale"] (.string "") }
  else e

/-- No other event has a place for reasons. -/
theorem bare_of_ne {e : Event} (hdissent : e.kind ≠ Dissent.eventKind)
    (hcompletion : e.kind ≠ Completion.eventKind) : e.bare = e := by
  rw [bare, if_neg hdissent, if_neg hcompletion]

end Event

theorem Vote.toJson_bare (v : Vote) :
    v.toJson.overwrite [some "rationale"] (.string "") = v.bare.toJson := by
  simp [toJson, Json.overwrite_record, Json.overwrite, bare]

theorem Dissent.event_bare (d : Dissent) (id : EventId) :
    (d.event id).bare = d.bare.event id := by
  have hpayload : (d.event id).payload.overwrite [some "rationale_hash"]
      (.string (Digest.ofText "").toHex) = (d.bare.event id).payload := by
    simp [event, Json.overwrite_record, Json.overwrite, bare]
  rw [Event.bare, if_pos (d.event_kind id), hpayload]
  rfl

theorem Completion.event_bare (c : Completion) : c.event.bare = c.bare.event := by
  have hvotes : (Json.record (c.votes.toList.map fun e => (e.1.name, e.2.toJson))).overwrite
      [none, some "rationale"] (.string "") =
        .record (c.bare.votes.toList.map fun e => (e.1.name, e.2.toJson)) := by
    rw [Json.overwrite_record]
    simp [Vote.toJson_bare, bare, SortedMap.map, Function.comp_def]
  have hpayload : c.event.payload.overwrite [some "vote_breakdown", none, some "rationale"]
      (.string "") = c.bare.event.payload := by
    show c.toJson.overwrite [some "vote_breakdown", none, some "rationale"] (.string "") =
      c.bare.toJson
    simp [toJson, Json.overwrite_record, hvotes, hasDissent, bare]
  have hkind : c.event.kind ≠ Dissent.eventKind := by
    rw [event_kind]
    decide
  rw [Event.bare, if_neg hkind, if_pos c.event_kind, hpayload]
  rfl

theorem Routing.event_bare (r : Routing) : r.event.bare = r.event := by
  have hdissent : eventKind ≠ Dissent.eventKind := by decide
  have hcompletion : eventKind ≠ Completion.eventKind := by decide
  exact Event.bare_of_ne hdissent hcompletion

theorem Decision.event_bare (d : Decision) : d.event.bare = d.event := by
  have hdissent : eventKind ≠ Dissent.eventKind := by decide
  have hcompletion : eventKind ≠ Completion.eventKind := by decide
  exact Event.bare_of_ne hdissent hcompletion

/-! ### The ledger -/

namespace Ledger

def bare (l : Ledger) : Ledger := { l with events := l.events.map Event.bare }

/-- Whether an event is taken has nothing to do with reasons. -/
theorem append_bare (l : Ledger) (e : Event) :
    l.bare.append e.bare = (l.append e).map id bare := by
  have hlength : l.bare.length = l.length := List.length_map ..
  rw [append, append, hlength]
  show (if l.refuses (l.attempts + 1) then _ else _) = _
  split
  · rfl
  · simp [bare]

end Ledger

end Curia
