import Curia.Proofs.Council.Resolution
import Curia.Router.Basic

/-!
Emissions. A disposition agrees with itself and with the session and the consensus that it was made
from; a petition is reserved for the session whose disposition routes it. After a successful check
beforehand, the emission of a counted consensus cannot be refused.
-/

namespace Curia

/-! ### Dispositions -/

namespace Disposition

/-- The two reports, the waiting entry and the pipeline of a disposition agree. -/
structure Coherent (d : Disposition) (table : RoutingTable) : Prop where
  dissenter : d.completion.dissenter =
    (Completion.dissenters d.completion.votes d.completion.outcome).head?
  dissent : d.completion.dissent =
    d.completion.dissenter.bind fun a => (d.completion.votes.get? a).map Vote.outcome
  routing_completion : d.routing.completion = d.completion.id
  routing_session : d.routing.session = d.completion.session
  routing_petition : d.routing.petition = d.completion.petition
  routing_outcome : d.routing.outcome = d.completion.outcome
  routing_pipeline : d.routing.pipeline = d.pipeline
  pending_routing : d.pending.routing = d.routing.id
  pending_session : d.pending.session = d.completion.session
  pending_petition : d.pending.petition = d.completion.petition
  pending_outcome : d.pending.outcome = d.completion.outcome
  pending_pipeline : d.pending.pipeline = d.pipeline
  table : table.get? d.completion.outcome = some d.pipeline

/-- The disposition repeats a session and its consensus. -/
structure Follows (d : Disposition) (s : Session) (c : Consensus) : Prop where
  session : d.completion.session = s.id
  petition : d.completion.petition = s.petition
  votes : d.completion.votes = s.votes
  winner : c.winner = some d.completion.outcome
  dissenter : d.completion.dissenter = c.dissenter

theorem Follows.congr {d : Disposition} {s t : Session} {c c' : Consensus} (h : d.Follows s c)
    (hsame : Session.SameCount s c t c') : d.Follows t c' :=
  ⟨h.session.trans hsame.id.symm, h.petition.trans hsame.petition.symm,
    h.votes.trans hsame.votes.symm, hsame.winner.trans h.winner,
    h.dissenter.trans hsame.dissenter.symm⟩

end Disposition

/-! ### Reports of a completion -/

namespace Completion

theorem new_eq_ok {id : EventId} {session : SessionId} {petition : PetitionId} {outcome : Outcome}
    {votes : SortedMap Archon Vote} {dissenter : Option Archon} {witness : List UInt8}
    {now : Instant} {c : Completion}
    (h : new id session petition outcome votes dissenter witness now = .ok c) :
    votes.size = Consensus.archonsPerSession ∧ (dissenters votes outcome).length ≤ 1 ∧
      dissenter = (dissenters votes outcome).head? ∧ ∃ hw : witness.length = 32,
        c = { id, session, petition, outcome, votes, dissenter
              dissent := dissenter.bind fun a => (votes.get? a).map Vote.outcome
              voteWitness := ⟨witness, hw⟩
              completedAt := now } := by
  rw [new] at h
  split at h
  · cases h
  · next hw =>
    split at h
    · cases h
    · next hsize =>
      simp only at h
      split at h
      · cases h
      · next hagainst =>
        split at h
        · cases h
        · next hd =>
          exact ⟨Decidable.not_not.1 hsize, Nat.not_lt.1 hagainst, Decidable.not_not.1 hd,
            Decidable.not_not.1 hw, (Except.ok.inj h).symm⟩

/-- Three votes of which at most one is against the outcome can be reported. -/
theorem exists_new_eq_ok {id : EventId} {session : SessionId} {petition : PetitionId}
    {outcome : Outcome} {votes : SortedMap Archon Vote} {dissenter : Option Archon}
    {witness : List UInt8} {now : Instant} (hwitness : witness.length = 32)
    (hsize : votes.size = Consensus.archonsPerSession)
    (hagainst : (dissenters votes outcome).length ≤ 1)
    (hdissenter : dissenter = (dissenters votes outcome).head?) :
    ∃ c, new id session petition outcome votes dissenter witness now = .ok c := by
  rw [new, dif_neg (not_not_intro hwitness), if_neg (not_not_intro hsize)]
  simp only
  rw [if_neg (by omega), if_neg (not_not_intro hdissenter)]
  exact ⟨_, rfl⟩

/-- A report that is refused is flawed. -/
theorem exists_flaw_of_new {id : EventId} {session : SessionId} {petition : PetitionId}
    {outcome : Outcome} {votes : SortedMap Archon Vote} {dissenter : Option Archon}
    {witness : List UInt8} {now : Instant} {e : RoutingError}
    (h : new id session petition outcome votes dissenter witness now = .error e) :
    ∃ flaw, e = .invalidEvent session flaw := by
  rw [new] at h
  split at h
  · cases h
    exact ⟨_, rfl⟩
  · split at h
    · cases h
      exact ⟨_, rfl⟩
    · simp only at h
      split at h
      · cases h
        exact ⟨_, rfl⟩
      · split at h
        · cases h
          exact ⟨_, rfl⟩
        · cases h

end Completion

/-- The votes of a session bear a consensus out: there are three, at most one is against the winner,
and the dissenter that is named is the one who cast it. -/
structure Session.BearsOut (s : Session) (c : Consensus) (winner : Outcome) : Prop where
  size : s.votes.size = Consensus.archonsPerSession
  opposed : (s.opposed winner).length ≤ 1
  dissenter : c.dissenter = (s.opposed winner).head?

theorem Consensus.Counts.bearsOut {s : Session} {c : Consensus} {winner : Outcome} {now : Instant}
    (hc : c.Counts s winner now) (hs : s.Valid) (hall : s.AllVoted) : s.BearsOut c winner := by
  have hsize := hs.votes_size hall
  have hsum := s.support_add_opposed winner
  have hsupport := hc.support
  rw [hsize] at hsum
  simp only [Consensus.threshold, Consensus.archonsPerSession] at hsum hsupport
  exact ⟨hsize, by omega, hc.dissenter⟩

theorem Session.transcript?_of_missingPhases {s : Session} (h : s.missingPhases = []) {p : Phase}
    (hp : p ∈ Phase.witnessed) : ∃ d, s.transcript? p = some d := by
  have hcontains := List.filter_eq_nil_iff.1 h p hp
  exact SortedMap.contains_iff.1 (by simpa using hcontains)

namespace Router

/-! ### Checks -/

/-- All that is checked. -/
structure Admits (r : Router) (s : Session) (c : Consensus) (p : Petition) (outcome : Outcome)
    (pipeline : Pipeline) : Prop where
  phases : s.missingPhases = []
  session : c.session = s.id
  petition : p.id = s.petition
  state : p.state = .deliberating
  winner : c.winner = some outcome
  table : r.table.get? outcome = some pipeline
  reserved : ∀ t, r.reserved.get? p.id = some t → t = s.id

theorem validate_eq_ok {r : Router} {s : Session} {c : Consensus} {p : Petition}
    {outcome : Outcome} {pipeline : Pipeline} (h : r.validate s c p = .ok (outcome, pipeline)) :
    r.Admits s c p outcome pipeline := by
  rw [validate] at h
  split at h
  · cases h
  · next hphases =>
    split at h
    · cases h
    · next hc =>
      split at h
      · cases h
      · next hp =>
        split at h
        · cases h
        · next hstate =>
          split at h
          · cases h
          · next hw =>
            split at h
            · cases h
            · next ht =>
              have admits (hreserved : ∀ t, r.reserved.get? p.id = some t → t = s.id) :=
                Admits.mk (r := r) (Decidable.not_not.1 hphases) (Decidable.not_not.1 hc)
                  (Decidable.not_not.1 hp) (Decidable.not_not.1 hstate) hw ht hreserved
              split at h
              · next hnone =>
                cases h
                refine admits fun t h => ?_
                rw [hnone] at h
                cases h
              · next other hother =>
                split at h
                · cases h
                · next hsame =>
                  cases h
                  refine admits fun t h => ?_
                  rw [hother] at h
                  exact (Option.some.inj h) ▸ Decidable.not_not.1 hsame

theorem completionOf_eq_ok {s : Session} {c : Consensus} {p : Petition} {outcome : Outcome}
    {id : EventId} {completion : Completion} (h : completionOf s c p outcome id = .ok completion) :
    ∃ witness, s.transcript? .vote = some witness ∧
      Completion.new id s.id p.id outcome s.votes c.dissenter witness.bytes c.resolvedAt =
        .ok completion := by
  rw [completionOf] at h
  split at h
  · cases h
  · next w hw => exact ⟨w, hw, h⟩

theorem exists_completionOf_eq_ok {s : Session} {c : Consensus} {winner : Outcome}
    (hc : s.BearsOut c winner) (hphases : s.missingPhases = []) (p : Petition) (id : EventId) :
    ∃ completion, completionOf s c p winner id = .ok completion := by
  obtain ⟨w, hw⟩ := Session.transcript?_of_missingPhases hphases (p := .vote) (by decide)
  rw [completionOf, hw]
  exact Completion.exists_new_eq_ok w.size_eq hc.size hc.opposed hc.dissenter

/-- Where all is witnessed, a consensus that the votes do not bear out cannot be reported. -/
theorem completionOf_eq_error {s : Session} {c : Consensus} {winner : Outcome}
    (hc : ¬s.BearsOut c winner) (hphases : s.missingPhases = []) (p : Petition) (id : EventId) :
    ∃ flaw, completionOf s c p winner id = .error (.invalidEvent s.id flaw) := by
  obtain ⟨w, hw⟩ := Session.transcript?_of_missingPhases hphases (p := .vote) (by decide)
  rw [completionOf, hw]
  simp only
  cases hnew : Completion.new id s.id p.id winner s.votes c.dissenter w.bytes c.resolvedAt with
  | error e =>
      obtain ⟨flaw, rfl⟩ := Completion.exists_flaw_of_new hnew
      exact ⟨flaw, rfl⟩
  | ok completion =>
      obtain ⟨hsize, hagainst, hdissenter, -⟩ := Completion.new_eq_ok hnew
      exact absurd ⟨hsize, hagainst, hdissenter⟩ hc

/-! ### Emitting -/

/-- What is kept of earlier emissions is in order, and a petition is reserved for the session whose
disposition routes it. -/
structure Sound (r : Router) : Prop where
  coherent : ∀ {s d}, r.emitted.get? s = some d → d.Coherent r.table
  session : ∀ {s d}, r.emitted.get? s = some d → d.completion.session = s
  reserved_iff : ∀ {p s}, r.reserved.get? p = some s ↔
    ∃ d, r.emitted.get? s = some d ∧ d.completion.petition = p

/-- What comes of an emission. -/
inductive Emitted (r : Router) (s : Session) (c : Consensus) :
    Except RoutingError Disposition × Router → Prop
  | known (d : Disposition) (hd : r.emitted.get? s.id = some d) : Emitted r s c (.ok d, r)
  | refused (e : RoutingError) : Emitted r s c (.error e, r)
  | fresh (d : Disposition) (hnone : r.emitted.get? s.id = none)
      (hfree : r.reserved.get? s.petition = none) (hd : d.Coherent r.table) (hs : d.Follows s c) :
      Emitted r s c (.ok d, r.commit d)

/-- Asked again, the router answers as before. -/
theorem emit_of_emitted {r : Router} {s : Session} {d : Disposition}
    (hd : r.emitted.get? s.id = some d) (c : Consensus) (p : Petition) (now : Instant)
    (completionId routingId : EventId) : r.emit s c p now completionId routingId = (.ok d, r) := by
  rw [emit, hd]

/-- A disposition that is made for a petition which has not been routed. -/
structure Issues (r : Router) (s : Session) (c : Consensus) (p : Petition) (now : Instant)
    (completionId routingId : EventId) (d : Disposition) : Prop where
  admits : r.Admits s c p d.completion.outcome d.pipeline
  completion : completionOf s c p d.completion.outcome completionId = .ok d.completion
  free : r.reserved.get? p.id = none
  eq_dispositionOf : d = r.dispositionOf d.completion d.pipeline p now routingId

/-- A session of which nothing has been emitted is refused, or a disposition is made and kept. -/
theorem emit_of_none {r : Router} {s : Session} (hnone : r.emitted.get? s.id = none) (c : Consensus)
    (p : Petition) (now : Instant) (completionId routingId : EventId) :
    (∃ e, r.emit s c p now completionId routingId = (.error e, r)) ∨
      ∃ d, r.Issues s c p now completionId routingId d ∧
        r.emit s c p now completionId routingId = (.ok d, r.commit d) := by
  rw [emit, hnone]
  simp only
  cases hvalid : r.validate s c p with
  | error e => exact .inl ⟨e, rfl⟩
  | ok v =>
      obtain ⟨outcome, pipeline⟩ := v
      simp only
      cases hcompletion : completionOf s c p outcome completionId with
      | error e => exact .inl ⟨e, rfl⟩
      | ok completion =>
          simp only
          cases hfree : r.reserved.get? p.id with
          | some other => exact .inl ⟨_, rfl⟩
          | none =>
              obtain ⟨w, -, hnew⟩ := completionOf_eq_ok hcompletion
              have houtcome : completion.outcome = outcome := by
                obtain ⟨-, -, -, hw, rfl⟩ := Completion.new_eq_ok hnew
                rfl
              subst houtcome
              exact .inr ⟨_, ⟨validate_eq_ok hvalid, hcompletion, hfree, rfl⟩, rfl⟩

namespace Issues

variable {r : Router} {s : Session} {c : Consensus} {p : Petition} {now : Instant}
  {completionId routingId : EventId} {d : Disposition}

theorem follows (h : r.Issues s c p now completionId routingId d) : d.Follows s c := by
  obtain ⟨w, -, hnew⟩ := completionOf_eq_ok h.completion
  obtain ⟨-, -, -, hw, hd⟩ := Completion.new_eq_ok hnew
  constructor
  · rw [hd]
  · rw [hd]
    exact h.admits.petition
  · rw [hd]
  · exact h.admits.winner
  · rw [hd]

theorem coherent (h : r.Issues s c p now completionId routingId d) : d.Coherent r.table := by
  obtain ⟨w, -, hnew⟩ := completionOf_eq_ok h.completion
  obtain ⟨-, -, hhead, hw, hcompletion⟩ := Completion.new_eq_ok hnew
  have hfollows := h.follows
  have hpetition := h.admits.petition
  have htable := h.admits.table
  have heq := h.eq_dispositionOf
  obtain ⟨completion, routing, pipeline, pending, state⟩ := d
  simp only at heq
  cases heq
  -- the routing and the waiting entry repeat what the completion says
  constructor
  case dissenter => rw [hfollows.dissenter, hfollows.votes, hhead]
  case dissent => rw [hcompletion]
  case pending_petition => exact hpetition.trans hfollows.petition.symm
  case table => exact htable
  all_goals rfl

/-- The completion is dated to the time at which the votes were counted. -/
theorem completedAt (h : r.Issues s c p now completionId routingId d) :
    d.completion.completedAt = c.resolvedAt := by
  obtain ⟨w, -, hnew⟩ := completionOf_eq_ok h.completion
  obtain ⟨-, -, -, hw, hd⟩ := Completion.new_eq_ok hnew
  rw [hd]

end Issues

theorem emit_cases (r : Router) (s : Session) (c : Consensus) (p : Petition) (now : Instant)
    (completionId routingId : EventId) :
    Emitted r s c (r.emit s c p now completionId routingId) := by
  cases hd : r.emitted.get? s.id with
  | some d =>
      rw [emit_of_emitted hd]
      exact .known d hd
  | none =>
      obtain ⟨e, h⟩ | ⟨d, hissues, h⟩ := emit_of_none hd c p now completionId routingId
      · rw [h]
        exact .refused e
      · rw [h]
        exact .fresh d hd (hissues.admits.petition ▸ hissues.free) hissues.coherent hissues.follows

theorem get?_emitted_commit (r : Router) (d : Disposition) (s : SessionId) :
    (r.commit d).emitted.get? s =
      if d.pending.session = s then some d else r.emitted.get? s :=
  SortedMap.get?_insert ..

/-- What is kept after an emission was kept before, or is what the emission is answered with. -/
theorem get?_emitted_emit (r : Router) (s : Session) (c : Consensus) (p : Petition) (now : Instant)
    (completionId routingId : EventId) {id : SessionId} {d : Disposition} :
    (r.emit s c p now completionId routingId).2.emitted.get? id = some d ↔
      r.emitted.get? id = some d ∨
        (s.id = id ∧ (r.emit s c p now completionId routingId).1 = .ok d) := by
  have hcases := emit_cases r s c p now completionId routingId
  generalize r.emit s c p now completionId routingId = z at hcases ⊢
  cases hcases with
  | known d' hd =>
      constructor
      · exact .inl
      · rintro (h | ⟨rfl, ⟨⟩⟩)
        · exact h
        · exact hd
  | refused e => simp
  | fresh d' hnone hfree hd hs =>
      rw [get?_emitted_commit, hd.pending_session, hs.session]
      by_cases hid : s.id = id
      · subst hid
        simp [hnone]
      · simp [hid]

theorem get?_reserved_commit (r : Router) (d : Disposition) (p : PetitionId) :
    (r.commit d).reserved.get? p =
      if d.pending.petition = p then some d.pending.session else r.reserved.get? p :=
  SortedMap.get?_insert ..

namespace Sound

theorem new (table : RoutingTable) : (new table).Sound := by
  constructor
  · intro s d h
    cases h
  · intro s d h
    cases h
  · intro p s
    constructor
    · intro h
      cases h
    · rintro ⟨d, h, -⟩
      cases h

/-- Keeping a disposition for a session and a petition of which nothing was kept. -/
theorem commit {r : Router} (hr : r.Sound) {d : Disposition} (hd : d.Coherent r.table)
    (hnone : r.emitted.get? d.completion.session = none)
    (hfree : r.reserved.get? d.completion.petition = none) : (r.commit d).Sound := by
  have hget (s : SessionId) (e : Disposition) (h : (r.commit d).emitted.get? s = some e) :
      (d.completion.session = s ∧ d = e) ∨ r.emitted.get? s = some e := by
    rw [get?_emitted_commit, hd.pending_session] at h
    split at h
    · next hs => exact .inl ⟨hs, Option.some.inj h⟩
    · exact .inr h
  constructor
  · intro s e h
    obtain ⟨-, rfl⟩ | h := hget s e h
    · exact hd
    · exact hr.coherent h
  · intro s e h
    obtain ⟨hs, rfl⟩ | h := hget s e h
    · exact hs
    · exact hr.session h
  · intro p s
    rw [get?_reserved_commit, hd.pending_petition, hd.pending_session]
    split
    · next hp =>
      subst hp
      constructor
      · intro h
        cases h
        exact ⟨d, by rw [get?_emitted_commit, if_pos hd.pending_session], rfl⟩
      · rintro ⟨e, h, hp⟩
        obtain ⟨hs, -⟩ | h := hget s e h
        · rw [hs]
        · -- the petition was free, so nothing that was kept routes it
          have hreserved := hr.reserved_iff.2 ⟨e, h, hp⟩
          rw [hfree] at hreserved
          cases hreserved
    · next hp =>
      rw [hr.reserved_iff]
      constructor
      · rintro ⟨e, h, he⟩
        have hs : d.pending.session ≠ s := by
          rw [hd.pending_session]
          rintro rfl
          rw [hnone] at h
          cases h
        exact ⟨e, by rw [get?_emitted_commit, if_neg hs, h], he⟩
      · rintro ⟨e, h, he⟩
        obtain ⟨-, rfl⟩ | h := hget s e h
        · exact absurd he hp
        · exact ⟨e, h, he⟩

theorem emitted {r r' : Router} (hr : r.Sound) {s : Session} {c : Consensus}
    {x : Except RoutingError Disposition} (h : r.Emitted s c (x, r')) : r'.Sound := by
  cases h with
  | known d hd => exact hr
  | refused e => exact hr
  | fresh d hnone hfree hd hs =>
      exact hr.commit hd (hs.session ▸ hnone) (hs.petition ▸ hfree)

end Sound

/-- A reservation would be for this session, which has emitted nothing. -/
theorem Sound.free {r : Router} (hr : r.Sound) {s : Session} (hnone : r.emitted.get? s.id = none)
    {c : Consensus} {p : Petition} {outcome : Outcome} {pipeline : Pipeline}
    (h : r.Admits s c p outcome pipeline) : r.reserved.get? p.id = none := by
  cases hget : r.reserved.get? p.id with
  | none => rfl
  | some t =>
      obtain ⟨d, ht, -⟩ := hr.reserved_iff.1 hget
      rw [h.reserved t hget, hnone] at ht
      cases ht

/-- After a successful check, all depends on whether the completion can be reported. -/
theorem emit_of_validate {r : Router} (hr : r.Sound) {s : Session}
    (hnone : r.emitted.get? s.id = none) {c : Consensus} {p : Petition} {outcome : Outcome}
    {pipeline : Pipeline} (h : r.validate s c p = .ok (outcome, pipeline)) (now : Instant)
    (completionId routingId : EventId) :
    (r.emit s c p now completionId routingId).1 =
      (completionOf s c p outcome completionId).map
        fun completion => r.dispositionOf completion pipeline p now routingId := by
  rw [emit, hnone]
  simp only [h]
  cases completionOf s c p outcome completionId with
  | error e => rfl
  | ok completion =>
      simp only [hr.free hnone (validate_eq_ok h)]
      rfl

/-- An emission that the check beforehand has let pass is not refused. -/
theorem emit_of_precheck {r : Router} (hr : r.Sound) {s : Session} (hs : s.Valid)
    (hall : s.AllVoted) {c : Consensus} {winner : Outcome} {resolved : Instant}
    (hc : c.Counts s winner resolved) {p : Petition} {pipeline : Pipeline}
    (h : r.precheck s c p = .ok pipeline) (now : Instant) (completionId routingId : EventId) :
    ∃ d r', r.emit s c p now completionId routingId = (.ok d, r') := by
  rw [precheck] at h
  cases hd : r.emitted.get? s.id with
  | some d => exact ⟨d, r, emit_of_emitted hd ..⟩
  | none =>
      rw [hd] at h
      simp only at h
      cases hvalid : r.validate s c p with
      | error e =>
          rw [hvalid] at h
          cases h
      | ok v =>
          obtain ⟨outcome, pipeline⟩ := v
          have hadmits := validate_eq_ok hvalid
          obtain rfl : winner = outcome := by
            have hw := hadmits.winner
            rw [hc.winner_eq] at hw
            exact Option.some.inj hw
          obtain ⟨completion, hcompletion⟩ :=
            exists_completionOf_eq_ok (hc.bearsOut hs hall) hadmits.phases p completionId
          have hemit := emit_of_validate hr hd hvalid now completionId routingId
          rw [hcompletion] at hemit
          exact ⟨_, _, Prod.ext hemit rfl⟩

end Router

/-- A petition under deliberation. -/
def Petition.sample (id : Nat) : Petition :=
  ⟨⟨.ofNat id⟩, .deliberating, .normal, .epoch⟩

end Curia
