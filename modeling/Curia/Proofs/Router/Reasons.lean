import Curia.Proofs.Council.Reasons
import Curia.Router.Basic

/-!
What the reasons in a session have an effect on in the router: the report of the completion repeats
them, and that is all.
-/

namespace Curia

/-! ### Reports and dispositions -/

namespace Completion

theorem dissenters_map_bare (votes : SortedMap Archon Vote) (o : Outcome) :
    dissenters (votes.map Vote.bare) o = dissenters votes o := by
  simp [dissenters, SortedMap.map, List.filter_map, Function.comp_def, Vote.bare]

theorem new_bare (id : EventId) (session : SessionId) (petition : PetitionId) (outcome : Outcome)
    (votes : SortedMap Archon Vote) (dissenter : Option Archon) (witness : List UInt8)
    (now : Instant) :
    new id session petition outcome (votes.map Vote.bare) dissenter witness now =
      (new id session petition outcome votes dissenter witness now).map bare := by
  have hdissent : (dissenter.bind fun a => ((votes.map Vote.bare).get? a).map Vote.outcome) =
      dissenter.bind fun a => (votes.get? a).map Vote.outcome := by
    simp [SortedMap.get?_map, Function.comp_def, Vote.bare]
  rw [new, new, SortedMap.size_map]
  simp only [dissenters_map_bare, hdissent]
  split
  · rfl
  · split
    · rfl
    · split
      · rfl
      · split <;> rfl

end Completion

def Disposition.bare (d : Disposition) : Disposition := { d with completion := d.completion.bare }

@[simp] theorem Disposition.bare_routing (d : Disposition) : d.bare.routing = d.routing := rfl

/-! ### The router -/

namespace Router

def bare (r : Router) : Router := { r with emitted := r.emitted.map Disposition.bare }

@[simp] theorem bare_reserved (r : Router) : r.bare.reserved = r.reserved := rfl

theorem get?_emitted_bare (r : Router) (s : SessionId) :
    r.bare.emitted.get? s = (r.emitted.get? s).map Disposition.bare :=
  SortedMap.get?_map ..

theorem commit_bare (r : Router) (d : Disposition) : r.bare.commit d.bare = (r.commit d).bare := by
  have hemitted : (r.commit d).bare.emitted = r.bare.emitted.insert d.pending.session d.bare :=
    SortedMap.map_insert ..
  show _ = ({ r.commit d with emitted := (r.commit d).bare.emitted } : Router)
  rw [hemitted]
  rfl

variable (r : Router) (s : Session) (c : Consensus) (p : Petition)

theorem validate_bare : r.bare.validate s.bare c p = r.validate s c p := rfl

theorem precheck_bare : r.bare.precheck s.bare c p = r.precheck s c p := by
  rw [precheck, precheck, Session.bare_id, get?_emitted_bare]
  cases r.emitted.get? s.id <;> rfl

theorem completionOf_bare (o : Outcome) (id : EventId) :
    completionOf s.bare c p o id = (completionOf s c p o id).map Completion.bare := by
  rw [completionOf, completionOf, Session.transcript?_bare]
  cases s.transcript? .vote with
  | none => rfl
  | some witness =>
      exact Completion.new_bare id s.id p.id o s.votes c.dissenter witness.bytes c.resolvedAt

theorem emit_bare (now : Instant) (completionId routingId : EventId) :
    r.bare.emit s.bare c p now completionId routingId =
      (r.emit s c p now completionId routingId).map (Except.map Disposition.bare) bare := by
  rw [emit, emit, Session.bare_id, get?_emitted_bare, validate_bare]
  cases r.emitted.get? s.id with
  | some d => rfl
  | none =>
      simp only [Option.map_none]
      cases r.validate s c p with
      | error e => rfl
      | ok v =>
          obtain ⟨o, pipeline⟩ := v
          simp only
          rw [completionOf_bare s c p o completionId]
          cases completionOf s c p o completionId with
          | error e => rfl
          | ok completion =>
              simp only [Except.map, bare_reserved]
              cases r.reserved.get? p.id with
              | some other => rfl
              | none =>
                  -- what is made of the report without reasons is kept in the same place
                  show (Except.ok (r.dispositionOf completion pipeline p now routingId).bare,
                    r.bare.commit (r.dispositionOf completion pipeline p now routingId).bare) = _
                  rw [commit_bare]
                  rfl

end Router

end Curia
