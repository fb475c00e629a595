import Mathlib.Data.Set.Insert
import Curia.Proofs.Router.Faithful

/-!
What the report of a completion can be made of. It takes a witness of 32 bytes and three votes, none
of which is against the outcome if no dissenter is named, and if one is just that archon's vote. All
else is refused, and the flaw that the error tells of is there.
-/

namespace Curia.Completion

variable {id : EventId} {session : SessionId} {petition : PetitionId} {outcome : Outcome}
  {votes : SortedMap Archon Vote} {dissenter : Option Archon} {witness : List UInt8} {now : Instant}

/-! ### Consistent votes -/

/-- Those whose vote differs from the outcome. -/
def against (votes : SortedMap Archon Vote) (outcome : Outcome) : Set Archon :=
  {a | ∃ v, votes.get? a = some v ∧ v.outcome ≠ outcome}

/-- Nobody, or the archon that is named. -/
def named : Option Archon → Set Archon
  | none => ∅
  | some a => {a}

structure Consistent (votes : SortedMap Archon Vote) (outcome : Outcome)
    (dissenter : Option Archon) (witness : List UInt8) : Prop where
  length_eq : witness.length = 32
  size_eq : votes.size = 3
  against_eq : against votes outcome = named dissenter

/-- What is wrong is so of the votes and the witness. -/
def Flaw.Of (votes : SortedMap Archon Vote) (outcome : Outcome) (dissenter : Option Archon)
    (witness : List UInt8) : Flaw → Prop
  | .witnessLength n => n = witness.length ∧ n ≠ 32
  | .voteCount n => n = votes.size ∧ n ≠ 3
  | .noSupermajority o =>
    o = outcome ∧ ∃ a ∈ against votes outcome, ∃ b ∈ against votes outcome, a ≠ b
  | .dissenter given actual =>
    given = dissenter ∧ against votes outcome = named actual ∧ given ≠ actual

theorem mem_named {a : Archon} : a ∈ named dissenter ↔ dissenter = some a := by
  cases dissenter <;> simp [named, eq_comm]

theorem mem_dissenters {a : Archon} : a ∈ dissenters votes outcome ↔ a ∈ against votes outcome := by
  rw [dissenters, SortedMap.mem_map_fst_filter, against, Set.mem_ofPred_eq]
  simp

theorem dissenters_nodup (votes : SortedMap Archon Vote) (outcome : Outcome) :
    (dissenters votes outcome).Nodup :=
  nodup_of_pairwise_compare (votes.pairwise_map_fst_filter _)

/-- If there is at most one dissenter, naming the first is naming all. -/
theorem against_eq_named_head? (h : (dissenters votes outcome).length ≤ 1) :
    against votes outcome = named (dissenters votes outcome).head? := by
  ext a
  rw [mem_named, head?_eq_some_iff_mem h, mem_dissenters]

theorem dissenters_eq_of_against (h : against votes outcome = named dissenter) :
    dissenters votes outcome = dissenter.toList := by
  have hmem (a : Archon) : a ∈ dissenters votes outcome ↔ a ∈ dissenter.toList := by
    rw [mem_dissenters, h, mem_named, Option.mem_toList]
  have hnodup : dissenter.toList.Nodup := by cases dissenter <;> simp
  have hperm := (List.perm_ext_iff_of_nodup (dissenters_nodup votes outcome) hnodup).2 hmem
  cases dissenter with
  | none => exact hperm.eq_nil
  | some a => exact List.perm_singleton.1 hperm

/-- The votes are consistent just if the checks on them pass. -/
theorem against_eq_named_iff : against votes outcome = named dissenter ↔
    (dissenters votes outcome).length ≤ 1 ∧ dissenter = (dissenters votes outcome).head? := by
  constructor
  · intro h
    rw [dissenters_eq_of_against h]
    cases dissenter <;> simp
  · rintro ⟨hlength, rfl⟩
    exact against_eq_named_head? hlength

/-! ### The report -/

/-- The report repeats what it is made of, and says what the dissenter voted for. -/
structure Reports (c : Completion) (id : EventId) (session : SessionId) (petition : PetitionId)
    (outcome : Outcome) (votes : SortedMap Archon Vote) (dissenter : Option Archon)
    (witness : List UInt8) (now : Instant) : Prop where
  id_eq : c.id = id
  session_eq : c.session = session
  petition_eq : c.petition = petition
  outcome_eq : c.outcome = outcome
  votes_eq : c.votes = votes
  dissenter_eq : c.dissenter = dissenter
  witness_eq : c.voteWitness.bytes = witness
  completedAt_eq : c.completedAt = now
  hasDissent : c.hasDissent = true ↔ ∃ a, dissenter = some a
  dissent : ∀ a, dissenter = some a →
    ∃ v, votes.get? a = some v ∧ c.dissent = some v.outcome ∧ v.outcome ≠ outcome
  noDissent : dissenter = none → c.dissent = none

theorem reports_of_new {c : Completion} (hagainst : against votes outcome = named dissenter)
    (h : new id session petition outcome votes dissenter witness now = .ok c) :
    c.Reports id session petition outcome votes dissenter witness now := by
  obtain ⟨-, -, -, hw, rfl⟩ := new_eq_ok h
  constructor
  case hasDissent => exact Option.isSome_iff_exists
  case dissent =>
    rintro a rfl
    have ha : a ∈ against votes outcome := by
      rw [hagainst]
      exact mem_named.2 rfl
    obtain ⟨v, hv, hne⟩ := ha
    exact ⟨v, hv, by simp [hv], hne⟩
  case noDissent =>
    rintro rfl
    rfl
  all_goals rfl

/-- The flaw that a report is refused for is there. -/
theorem flaw_of_new {e : RoutingError}
    (h : new id session petition outcome votes dissenter witness now = .error e) :
    ∃ flaw, e = .invalidEvent session flaw ∧ flaw.Of votes outcome dissenter witness := by
  rw [new] at h
  split at h
  · next hw =>
    cases h
    exact ⟨_, rfl, rfl, hw⟩
  · split at h
    · next hsize =>
      cases h
      exact ⟨_, rfl, rfl, hsize⟩
    · simp only at h
      split at h
      · next hmany =>
        cases h
        -- the first two of them
        have hne : (dissenters votes outcome)[0] ≠ (dissenters votes outcome)[1] :=
          List.pairwise_iff_getElem.1 (dissenters_nodup votes outcome) 0 1 _ hmany Nat.one_pos
        exact ⟨_, rfl, rfl, _, mem_dissenters.1 (List.getElem_mem _), _,
          mem_dissenters.1 (List.getElem_mem _), hne⟩
      · next hfew =>
        split at h
        · next hne =>
          cases h
          exact ⟨_, rfl, rfl, against_eq_named_head? (Nat.not_lt.1 hfew), hne⟩
        · cases h

/-- A report can be made just of what is consistent. It repeats what it is made of, has a dissent
just if a dissenter is named, and then says what that archon voted for, which is not the outcome. -/
theorem reported_iff_consistent (id : EventId) (session : SessionId) (petition : PetitionId)
    (outcome : Outcome) (votes : SortedMap Archon Vote) (dissenter : Option Archon)
    (witness : List UInt8) (now : Instant) :
    let answer := new id session petition outcome votes dissenter witness now
    ((∃ c, answer = .ok c) ↔ Consistent votes outcome dissenter witness) ∧
      (∀ c, answer = .ok c →
        c.Reports id session petition outcome votes dissenter witness now) ∧
      ∀ e, answer = .error e →
        ∃ flaw, e = .invalidEvent session flaw ∧ flaw.Of votes outcome dissenter witness := by
  intro answer
  have hconsistent {c : Completion} (hc : answer = .ok c) :
      Consistent votes outcome dissenter witness := by
    obtain ⟨hsize, hlength, hhead, hw, -⟩ := new_eq_ok hc
    exact ⟨hw, hsize, against_eq_named_iff.2 ⟨hlength, hhead⟩⟩
  refine ⟨⟨fun ⟨c, hc⟩ => hconsistent hc, fun h => ?_⟩, fun c hc => ?_, fun e => flaw_of_new⟩
  · obtain ⟨hlength, hhead⟩ := against_eq_named_iff.1 h.against_eq
    exact exists_new_eq_ok h.length_eq h.size_eq hlength hhead
  · exact reports_of_new (hconsistent hc).against_eq hc

/-- The second of three archons is against the outcome. There is a report that names that archon, and
none that names nobody. -/
theorem reported_iff_consistent_split :
    let votes : SortedMap Archon Vote := .ofList
      [(⟨"a"⟩, ⟨.refer, "yes"⟩), (⟨"b"⟩, ⟨.escalate, "no"⟩), (⟨"c"⟩, ⟨.refer, "yes"⟩)]
    let witness : List UInt8 := List.replicate 32 0
    let report (dissenter : Option Archon) :=
      new ⟨.ofNat 1⟩ ⟨.ofNat 2⟩ ⟨.ofNat 3⟩ .refer votes dissenter witness .epoch
    (∃ c, report (some ⟨"b"⟩) = .ok c ∧ c.hasDissent = true ∧ c.dissent = some .escalate) ∧
      ¬Consistent votes .refer none witness ∧
      ∃ flaw, report none = .error (.invalidEvent ⟨.ofNat 2⟩ flaw) ∧
        flaw.Of votes .refer none witness := by
  intro votes witness report
  have hb : votes.get? ⟨"b"⟩ = some ⟨.escalate, "no"⟩ := by decide +kernel
  have hmade : (report (some ⟨"b"⟩)).isOk = true := by decide +kernel
  have hrefused : report none =
      .error (.invalidEvent ⟨.ofNat 2⟩ (.dissenter none (some ⟨"b"⟩))) := by
    decide +kernel
  obtain ⟨-, hreports, -⟩ := reported_iff_consistent ⟨.ofNat 1⟩ ⟨.ofNat 2⟩ ⟨.ofNat 3⟩ .refer votes
    (some ⟨"b"⟩) witness .epoch
  obtain ⟨hmade_iff, -, hflaw⟩ := reported_iff_consistent ⟨.ofNat 1⟩ ⟨.ofNat 2⟩ ⟨.ofNat 3⟩ .refer
    votes none witness .epoch
  refine ⟨?_, fun h => ?_, ?_⟩
  · cases hc : report (some ⟨"b"⟩) with
    | error e =>
        rw [hc] at hmade
        cases hmade
    | ok c =>
        have hreport := hreports c hc
        obtain ⟨v, hv, hdissent, -⟩ := hreport.dissent _ rfl
        rw [hb] at hv
        obtain rfl := Option.some.inj hv
        exact ⟨c, rfl, hreport.hasDissent.2 ⟨_, rfl⟩, hdissent⟩
  · obtain ⟨c, hc⟩ := hmade_iff.2 h
    cases hrefused.symm.trans hc
  · obtain ⟨flaw, he, hof⟩ := hflaw _ hrefused
    exact ⟨flaw, hrefused.trans (congrArg _ he), hof⟩

end Curia.Completion
