import Curia.Proofs.Router.Traffic

/-!
What the check beforehand says of an emission. It does not look at the votes, which the report of
the completion is checked against; so it lets a consensus pass that the votes do not bear out. In
all else it answers as the emission does.
-/

namespace Curia

/-- The votes of a session bear out the winner and the dissenter that the consensus names. -/
def Consensus.TrueTo (c : Consensus) (s : Session) : Prop :=
  ∃ winner, c.winner = some winner ∧ s.BearsOut c winner

theorem Consensus.trueTo_iff {c : Consensus} {s : Session} {winner : Outcome}
    (h : c.winner = some winner) : c.TrueTo s ↔ s.BearsOut c winner := by
  constructor
  · rintro ⟨winner', hw, hc⟩
    rw [h] at hw
    exact Option.some.inj hw ▸ hc
  · exact fun hc => ⟨winner, h, hc⟩

/-- Counting the votes of a session never leads to another consensus. -/
theorem Resolver.trueTo_of_resolve {resolver : Resolver} {s : Session} {now : Instant}
    {c : Consensus} (hs : s.Valid) (h : resolver.resolve s s.voteMap now = .ok c) : c.TrueTo s := by
  obtain ⟨hall, winner, hc⟩ := counts_of_resolve hs h
  exact ⟨winner, hc.winner_eq, hc.bearsOut hs hall⟩

/-- A consensus that names a dissenter where all agree. -/
def Consensus.madeUp : Consensus :=
  ⟨{ session := ⟨.ofNat 1⟩
     petition := ⟨.ofNat 2⟩
     status := .achieved
     winner := some .refer
     distribution := .ofList [(.refer, 2), (.escalate, 1)]
     majority := .ofList [⟨"a"⟩, ⟨"b"⟩]
     dissenter := some ⟨"c"⟩
     resolvedAt := .epoch }, by decide +kernel⟩

namespace Router

section

variable {r : Router} {s : Session} {c : Consensus} {p : Petition} (now : Instant)
  (completionId routingId : EventId)

theorem precheck_of_emitted {d : Disposition} (hd : r.emitted.get? s.id = some d) :
    r.precheck s c p = .ok d.pipeline := by
  rw [precheck, hd]

theorem precheck_of_none (hnone : r.emitted.get? s.id = none) :
    r.precheck s c p = (r.validate s c p).map (·.2) := by
  rw [precheck, hnone]

/-- What the check beforehand refuses is refused for the same reason. -/
theorem emit_of_precheck_eq_error {e : RoutingError} (h : r.precheck s c p = .error e) :
    r.emit s c p now completionId routingId = (.error e, r) := by
  cases hd : r.emitted.get? s.id with
  | some d =>
      rw [precheck_of_emitted hd] at h
      cases h
  | none =>
      rw [precheck_of_none hd] at h
      rw [emit, hd]
      simp only
      cases hvalid : r.validate s c p with
      | error e' =>
          rw [hvalid] at h
          cases h
          rfl
      | ok v =>
          rw [hvalid] at h
          cases h

/-- Of what the check beforehand lets pass for the first time, the votes decide. -/
theorem emit_of_precheck_eq_ok (hr : r.Sound) (hnone : r.emitted.get? s.id = none)
    {pipeline : Pipeline} (h : r.precheck s c p = .ok pipeline) :
    (c.TrueTo s ∧
        ∃ d, (r.emit s c p now completionId routingId).1 = .ok d ∧ d.pipeline = pipeline) ∨
      ¬c.TrueTo s ∧
        ∃ flaw, (r.emit s c p now completionId routingId).1 = .error (.invalidEvent s.id flaw) := by
  rw [precheck_of_none hnone] at h
  cases hvalid : r.validate s c p with
  | error e =>
      rw [hvalid] at h
      cases h
  | ok v =>
      obtain ⟨winner, pipeline'⟩ := v
      rw [hvalid] at h
      obtain rfl : pipeline' = pipeline := Except.ok.inj h
      have hadmits := validate_eq_ok hvalid
      rw [emit_of_validate hr hnone hvalid, Consensus.trueTo_iff hadmits.winner]
      by_cases hc : s.BearsOut c winner
      · obtain ⟨completion, hcompletion⟩ :=
          exists_completionOf_eq_ok hc hadmits.phases p completionId
        rw [hcompletion]
        exact .inl ⟨hc, _, rfl, rfl⟩
      · obtain ⟨flaw, hflaw⟩ := completionOf_eq_error hc hadmits.phases p completionId
        rw [hflaw]
        exact .inr ⟨hc, flaw, rfl⟩

end

/-- The check beforehand changes nothing. Once the session has been emitted, or if the votes bear the
consensus out, as they do after counting, it says what the emission will be answered with. Whatever
it refuses is refused; what it lets pass is refused just if nothing has been emitted and the votes do
not bear the consensus out, and then the report of the completion is at fault. -/
theorem precheck_foretells (table : RoutingTable) (requests : List Request) (s : Session)
    (c : Consensus) (p : Petition) (now : Instant) (completionId routingId : EventId) :
    let r := (new table).run requests
    let answer := (r.emit s c p now completionId routingId).1
    (new table).run (requests ++ [.precheck s c p]) = r ∧
      ((∃ d, r.emitted.get? s.id = some d) ∨ c.TrueTo s →
        r.precheck s c p = answer.map Disposition.pipeline) ∧
      (∀ e, r.precheck s c p = .error e → answer = .error e) ∧
      (∀ pipeline, r.precheck s c p = .ok pipeline → r.emitted.get? s.id = none → ¬c.TrueTo s →
        ∃ flaw, answer = .error (.invalidEvent s.id flaw)) ∧
      ∀ (resolver : Resolver) counted, s.Arises →
        resolver.resolve s s.voteMap counted = .ok c → c.TrueTo s := by
  intro r answer
  have hr : r.Sound := (tidy_run table requests).sound
  refine ⟨run_concat .., fun hsure => ?_, fun e h => ?_, fun pipeline h hnone hc => ?_, ?_⟩
  · cases hd : r.emitted.get? s.id with
    | some d =>
        have hanswer : answer = .ok d := by simp only [answer, emit_of_emitted hd]
        rw [precheck_of_emitted hd, hanswer]
        rfl
    | none =>
        have hc : c.TrueTo s := by
          refine hsure.resolve_left ?_
          rintro ⟨d, h⟩
          rw [hd] at h
          cases h
        cases h : r.precheck s c p with
        | error e =>
            have hanswer : answer = .error e :=
              congrArg Prod.fst (emit_of_precheck_eq_error now completionId routingId h)
            rw [hanswer]
            rfl
        | ok pipeline =>
            obtain ⟨-, d, hanswer, rfl⟩ | ⟨hfalse, -⟩ :=
              emit_of_precheck_eq_ok now completionId routingId hr hd h
            · change answer = .ok d at hanswer
              rw [hanswer]
              rfl
            · exact absurd hc hfalse
  · exact congrArg Prod.fst (emit_of_precheck_eq_error now completionId routingId h)
  · obtain ⟨htrue, -⟩ | ⟨-, hflaw⟩ :=
      emit_of_precheck_eq_ok now completionId routingId hr hnone h
    · exact absurd htrue hc
    · exact hflaw
  · exact fun resolver counted hs h => Resolver.trueTo_of_resolve hs.valid h

/-- Two of three agree, and their consensus is routed as the check beforehand has said. -/
theorem precheck_foretells_split :
    let s : Session := .sample 1 2 .refer .refer .escalate
    s.Arises ∧ ∃ c, Resolver.default.resolve s s.voteMap .epoch = .ok c ∧ c.TrueTo s ∧
      (new .standard).precheck s c (.sample 2) = .ok .referral ∧
      ∃ d, ((new .standard).emit s c (.sample 2) .epoch ⟨.ofNat 10⟩ ⟨.ofNat 11⟩).1 = .ok d ∧
        d.pipeline = .referral := by
  intro s
  have hs : s.Arises := Session.sample_arises ..
  have hcheck : (Resolver.default.resolve s s.voteMap .epoch).toOption.map
      (fun c => (new .standard).precheck s c (.sample 2)) = some (.ok .referral) := by
    decide +kernel
  refine ⟨hs, ?_⟩
  cases hc : Resolver.default.resolve s s.voteMap .epoch with
  | error e =>
      rw [hc] at hcheck
      cases hcheck
  | ok c =>
      rw [hc] at hcheck
      obtain ⟨-, hsure, -, -, hcounted⟩ :=
        precheck_foretells .standard [] s c (.sample 2) .epoch ⟨.ofNat 10⟩ ⟨.ofNat 11⟩
      have hpasses : (new .standard).precheck s c (.sample 2) = .ok .referral :=
        Option.some.inj hcheck
      have htrue : c.TrueTo s := hcounted _ _ hs hc
      have hforetold : (new .standard).precheck s c (.sample 2) =
          ((new .standard).emit s c (.sample 2) .epoch ⟨.ofNat 10⟩ ⟨.ofNat 11⟩).1.map
            Disposition.pipeline := hsure (.inr htrue)
      refine ⟨c, rfl, htrue, hpasses, ?_⟩
      rw [hpasses] at hforetold
      cases hanswer : ((new .standard).emit s c (.sample 2) .epoch ⟨.ofNat 10⟩ ⟨.ofNat 11⟩).1 with
      | error e =>
          rw [hanswer] at hforetold
          cases hforetold
      | ok d =>
          rw [hanswer] at hforetold
          exact ⟨d, rfl, (Except.ok.inj hforetold).symm⟩

/-- The check beforehand lets a consensus pass that is made up, and the emission refuses it. -/
theorem refused_after_precheck :
    let s : Session := .sample 1 2 .refer .refer .refer
    let r := (new .standard).run []
    s.Arises ∧ r.precheck s .madeUp (.sample 2) = .ok .referral ∧
      r.emit s .madeUp (.sample 2) .epoch ⟨.ofNat 10⟩ ⟨.ofNat 11⟩ =
        (.error (.invalidEvent s.id (.dissenter (some ⟨"c"⟩) none)), r) := by
  intro s r
  exact ⟨Session.sample_arises .., by decide +kernel, by decide +kernel⟩

end Router

end Curia
