import Curia.Proofs.Router.Emission

/-!
A disposition that is newly made is true of its session, whatever consensus the router is handed:
the report of the completion is checked against the votes themselves. So a consensus that was made
up has its way only where it says what the votes say.
-/

namespace Curia

/-- What a disposition says of a session and its petition is so: everything has been witnessed, all
three archons have voted and the report has their votes, the outcome is the only one with two votes,
and the dissenter is the archon, if there is one, who voted for something else. -/
structure Disposition.Faithful (d : Disposition) (s : Session) (p : Petition)
    (table : RoutingTable) : Prop where
  witnessed : ∀ ph ∈ Phase.witnessed, ∃ hash, s.transcript? ph = some hash
  archons : s.archons.length = 3 ∧ s.archons.Nodup
  voter_iff : ∀ a, d.completion.votes.contains a = true ↔ a ∈ s.archons
  votes : d.completion.votes = s.votes
  support : 2 ≤ s.support d.completion.outcome
  support_unique : ∀ o, 2 ≤ s.support o → o = d.completion.outcome
  dissenter_iff : ∀ a, d.completion.dissenter = some a ↔
    ∃ v, s.votes.get? a = some v ∧ v.outcome ≠ d.completion.outcome
  dissent : d.completion.dissent = d.completion.dissenter.bind s.voteOf?
  witness : s.transcript? .vote = some d.completion.voteWitness
  session : d.completion.session = s.id
  petition : d.completion.petition = s.petition ∧ p.id = s.petition
  deliberating : p.state = .deliberating
  pipeline : table.get? d.completion.outcome = some d.pipeline
  coherent : d.Coherent table

theorem head?_eq_some_iff_mem {α : Type} {l : List α} (h : l.length ≤ 1) {a : α} :
    l.head? = some a ↔ a ∈ l := by
  match l, h with
  | [], _ => simp
  | [b], _ => simp [eq_comm]

namespace Router

variable {r r' : Router} {s : Session} {c : Consensus} {p : Petition} {now : Instant}
  {completionId routingId : EventId} {d : Disposition}

theorem Issues.faithful (h : r.Issues s c p now completionId routingId d) (hs : s.Valid) :
    d.Faithful s p r.table := by
  have hfollows := h.follows
  obtain ⟨w, hw, hnew⟩ := completionOf_eq_ok h.completion
  obtain ⟨hsize, hagainst, hhead, hlength, hcompletion⟩ := Completion.new_eq_ok hnew
  have hall : s.AllVoted := hs.allVoted hsize
  have hagainst : (s.opposed d.completion.outcome).length ≤ 1 := hagainst
  have hsupport : 2 ≤ s.support d.completion.outcome := by
    have hsum := s.support_add_opposed d.completion.outcome
    rw [hsize, Consensus.archonsPerSession] at hsum
    omega
  constructor
  case witnessed => exact fun ph hph => s.transcript?_of_missingPhases h.admits.phases hph
  case archons => exact ⟨hs.archons_length, hs.archons_nodup⟩
  case voter_iff =>
    intro a
    rw [hfollows.votes]
    exact ⟨hs.voter, hall a⟩
  case votes => exact hfollows.votes
  case support => exact hsupport
  case support_unique => exact fun o ho => Session.eq_of_support hsize ho hsupport
  case dissenter_iff =>
    intro a
    have hdissenter : d.completion.dissenter = (s.opposed d.completion.outcome).head? :=
      hfollows.dissenter.trans hhead
    rw [hdissenter, head?_eq_some_iff_mem hagainst, Session.mem_opposed]
  case dissent =>
    rw [h.coherent.dissent, hfollows.votes]
    rfl
  case witness => rw [hw, hcompletion]
  case session => exact hfollows.session
  case petition => exact ⟨hfollows.petition, h.admits.petition⟩
  case deliberating => exact h.admits.state
  case pipeline => exact h.admits.table
  case coherent => exact h.coherent

/-- Whatever the state of the router and whatever consensus it is handed, a disposition that it
newly makes is faithful. -/
theorem faithful_of_emit (hs : s.Arises) (hnone : r.emitted.get? s.id = none)
    (h : r.emit s c p now completionId routingId = (.ok d, r')) : d.Faithful s p r.table := by
  obtain ⟨e, he⟩ | ⟨d', hissues, hd⟩ := emit_of_none hnone c p now completionId routingId
  · rw [he] at h
    cases h
  · rw [hd] at h
    cases h
    exact hissues.faithful hs.valid

/-- A consensus with made up votes of strangers passes where it names the right winner and the right
dissenter, and nothing of the strangers gets into the disposition. -/
theorem faithful_of_emit_forged :
    let s : Session := .sample 1 2 .refer .refer .escalate
    let forged : Consensus :=
      ⟨{ session := s.id
         petition := ⟨.ofNat 9⟩
         status := .achieved
         winner := some .refer
         distribution := .ofList [(.refer, 2), (.acknowledge, 40)]
         majority := .ofList [⟨"x"⟩, ⟨"y"⟩]
         dissenter := some ⟨"c"⟩
         resolvedAt := .epoch }, by decide +kernel⟩
    ∃ d r', (Router.new .standard).emit s forged (.sample 2) .epoch ⟨.ofNat 10⟩ ⟨.ofNat 11⟩ =
        (.ok d, r') ∧
      d.Faithful s (.sample 2) .standard ∧ d.completion.outcome = .refer ∧
      d.completion.dissent = some .escalate ∧ d.pipeline = .referral := by
  intro s forged
  have hvalues : ((Router.new .standard).emit s forged (.sample 2) .epoch ⟨.ofNat 10⟩
      ⟨.ofNat 11⟩).1.toOption.map
        (fun d => (d.completion.outcome, d.completion.dissent, d.pipeline)) =
      some (.refer, some .escalate, .referral) := by
    decide +kernel
  generalize hx : (Router.new .standard).emit s forged (.sample 2) .epoch ⟨.ofNat 10⟩
    ⟨.ofNat 11⟩ = x at hvalues ⊢
  obtain ⟨answer, r'⟩ := x
  cases answer with
  | error e => cases hvalues
  | ok d =>
      have hfaithful := faithful_of_emit (r := .new .standard) (Session.sample_arises ..) rfl hx
      obtain ⟨houtcome, hrest⟩ := Prod.mk.inj (Option.some.inj hvalues)
      obtain ⟨hdissent, hpipeline⟩ := Prod.mk.inj hrest
      exact ⟨d, r', rfl, hfaithful, houtcome, hdissent, hpipeline⟩

end Router

end Curia
