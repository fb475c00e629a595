import Curia.Proofs.Router.Traffic

/-!
Emissions that are asked for again or that fail. A session that has been answered with a disposition
is answered with it for good, a failed emission leaves no trace, and nothing is looked at before the
transcripts are complete.
-/

namespace Curia

namespace Session

theorem mem_missingPhases {s : Session} {ph : Phase} :
    ph ∈ s.missingPhases ↔ ph ∈ Phase.witnessed ∧ s.transcript? ph = none := by
  rw [missingPhases, List.mem_filter, SortedMap.contains, transcript?]
  simp

/-- Phases are missed in the order in which they come. -/
theorem missingPhases_pairwise (s : Session) :
    s.missingPhases.Pairwise fun a b => a.rank < b.rank := by
  have hwitnessed : Phase.witnessed.Pairwise fun a b => a.rank < b.rank := by decide
  exact hwitnessed.filter _

end Session

namespace Router

section

variable {r : Router} {s : Session} {c : Consensus} {p : Petition} {now : Instant}
  {completionId routingId : EventId}

/-- An emission that fails changes nothing. -/
theorem emit_of_error {e : RoutingError} (h : (r.emit s c p now completionId routingId).1 = .error e) :
    (r.emit s c p now completionId routingId).2 = r := by
  have hcases := emit_cases r s c p now completionId routingId
  generalize r.emit s c p now completionId routingId = z at hcases h ⊢
  cases hcases with
  | known d hd => rfl
  | refused e => rfl
  | fresh d hnone hfree hd hs => cases h

/-- What the votes, the consensus and the petition are does not matter as long as a transcript is
missing. -/
theorem emit_of_unwitnessed (hnone : r.emitted.get? s.id = none) (h : s.missingPhases ≠ []) :
    r.emit s c p now completionId routingId =
      (.error (.incompleteWitness s.id s.petition s.missingPhases), r) := by
  have hvalid : r.validate s c p =
      .error (.incompleteWitness s.id s.petition s.missingPhases) := by
    rw [validate, if_pos h]
  rw [emit, hnone]
  simp only [hvalid]

end

/-- After an answer all further emissions of the session have the same answer and change nothing,
whatever else they are given and whatever has been asked of the router in between. An emission that
fails changes nothing. A session that has not been answered and that lacks transcripts is refused
with the list of them. -/
theorem answers_for_good (table : RoutingTable) (requests : List Request) :
    let r := (new table).run requests
    (∀ id d, (new table).Answered requests id d →
        ∀ s c p now completionId routingId, s.id = id →
          r.emit s c p now completionId routingId = (.ok d, r)) ∧
      (∀ s c p now completionId routingId e,
        (r.emit s c p now completionId routingId).1 = .error e →
          (r.emit s c p now completionId routingId).2 = r) ∧
      ∀ s c p now completionId routingId, (∀ d, ¬(new table).Answered requests s.id d) →
        (∃ ph ∈ Phase.witnessed, s.transcript? ph = none) →
          ∃ missing, r.emit s c p now completionId routingId =
              (.error (.incompleteWitness s.id s.petition missing), r) ∧
            (∀ ph, ph ∈ missing ↔ ph ∈ Phase.witnessed ∧ s.transcript? ph = none) ∧
            missing.Pairwise fun a b => a.rank < b.rank := by
  intro r
  refine ⟨?_, fun s c p now completionId routingId e h => emit_of_error h, ?_⟩
  · rintro id d hanswered s c p now completionId routingId rfl
    have hd : r.emitted.get? s.id = some d := (get?_emitted_run table requests s.id d).2 hanswered
    exact emit_of_emitted hd ..
  · rintro s c p now completionId routingId hunanswered ⟨ph, hph, hnone⟩
    have hnew : r.emitted.get? s.id = none := by
      cases hd : r.emitted.get? s.id with
      | none => rfl
      | some d => exact absurd ((get?_emitted_run table requests s.id d).1 hd) (hunanswered d)
    have hmissing : s.missingPhases ≠ [] :=
      List.ne_nil_of_mem (Session.mem_missingPhases.2 ⟨hph, hnone⟩)
    exact ⟨s.missingPhases, emit_of_unwitnessed hnew hmissing, fun ph => Session.mem_missingPhases,
      s.missingPhases_pairwise⟩

/-- A petition is routed and taken out of its queue. -/
def once (s : Session) (c : Consensus) : List Request :=
  [.emit s c (.sample 2) .epoch ⟨.ofNat 10⟩ ⟨.ofNat 11⟩, .acknowledge ⟨.ofNat 2⟩ .referral]

/-- The second emission is for a withdrawn petition and a state of which nothing is witnessed. -/
theorem answers_for_good_acknowledged :
    let s : Session := .sample 1 2 .refer .refer .refer
    ∃ c d, Resolver.default.resolve s s.voteMap .epoch = .ok c ∧
      (new .standard).Answered (once s c) s.id d ∧
      let r := (new .standard).run (once s c)
      r.queues = .empty ∧
        r.emit (.fresh s.id s.petition s.archons) c { Petition.sample 2 with state := .withdrawn }
          .epoch ⟨.ofNat 12⟩ ⟨.ofNat 13⟩ = (.ok d, r) := by
  intro s
  have hvalues : (Resolver.default.resolve s s.voteMap .epoch).toOption.map (fun c =>
      (((new .standard).emit s c (.sample 2) .epoch ⟨.ofNat 10⟩ ⟨.ofNat 11⟩).1.toOption.isSome,
        ((new .standard).run (once s c)).queues)) = some (true, .empty) := by
    decide +kernel
  cases hc : Resolver.default.resolve s s.voteMap .epoch with
  | error e =>
      rw [hc] at hvalues
      cases hvalues
  | ok c =>
      rw [hc] at hvalues
      obtain ⟨hsome, hqueues⟩ := Prod.mk.inj (Option.some.inj hvalues)
      cases hd : ((new .standard).emit s c (.sample 2) .epoch ⟨.ofNat 10⟩ ⟨.ofNat 11⟩).1 with
      | error e =>
          rw [hd] at hsome
          cases hsome
      | ok d =>
          have hanswered : (new .standard).Answered (once s c) s.id d :=
            ⟨[], _, _, rfl, s, c, _, _, _, _, rfl, rfl, hd⟩
          exact ⟨c, d, rfl, hanswered, hqueues,
            (answers_for_good .standard (once s c)).1 s.id d hanswered _ _ _ _ _ _ rfl⟩

end Router

end Curia
