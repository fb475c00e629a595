import Curia.Proofs.Council.Resolution

/-!
Which transcripts a session has. They are recorded in any order until it is complete and never
after that. The operation that ends a session does not ask for them: what is missing by then stays
missing.
-/

namespace Curia

theorem Phase.later_ne_complete {p q : Phase} (hp : p ≠ complete) (hq : q ≠ complete) :
    p.later q ≠ complete := by
  rw [later]
  split
  · exact hq
  · exact hp

namespace Session

/-- A transcript of the phase is to be recorded. -/
def Op.records (p : Phase) : Op → Bool
  | .transcript q _ => q = p
  | _ => false

theorem isComplete_eq_false {s : Session} : s.isComplete = false ↔ s.phase ≠ .complete :=
  decide_eq_false_iff_not

/-! ### One operation -/

theorem answer_of_isComplete {s : Session} (h : s.isComplete = true) (op : Op) :
    s.answer op = (.error (.sessionComplete s.id), s) := by
  cases op with
  | transcript p hash => exact if_pos h
  | vote a v => exact if_pos h
  | complete c => exact if_pos h

/-- While a session is open, a transcript is added whenever one of a witnessed phase is to be
recorded, and by nothing else. -/
theorem contains_transcripts_perform {s : Session} (hopen : s.isComplete = false) (op : Op)
    {p : Phase} (hp : p ∈ Phase.witnessed) :
    (s.perform op).transcripts.contains p = (op.records p || s.transcripts.contains p) := by
  cases h : (s.answer op).1 with
  | error e =>
      rw [perform_of_error h]
      cases op with
      | transcript q hash =>
          -- only a transcript of the last phase is refused
          change (s.recordTranscript q hash).1 = .error e at h
          rw [recordTranscript, if_neg (by simp [hopen])] at h
          split at h
          · next hq =>
            have hne : q ≠ p := hq ▸ (Phase.mem_witnessed.1 hp).symm
            simp [Op.records, hne]
          · cases h
      | vote a v => rfl
      | complete c => rfl
  | ok _ =>
      cases op with
      | transcript q hash =>
          obtain ⟨-, -, hstate⟩ := recordTranscript_eq_ok (answer_eq h)
          simp only [hstate, SortedMap.contains, SortedMap.get?_insert, Op.records]
          by_cases hq : q = p <;> simp [hq]
      | vote a v =>
          obtain ⟨-, -, -, hstate⟩ := castVote_eq_ok (answer_eq h)
          rw [hstate]
          rfl
      | complete c =>
          obtain ⟨-, -, outcome, -, hstate⟩ := complete_eq_ok (answer_eq h)
          rw [hstate]
          rfl

/-- Only the operation that is for it completes a session. -/
theorem exists_complete_of_perform {s : Session} (hopen : s.isComplete = false) {op : Op}
    (h : (s.perform op).isComplete = true) :
    ∃ c, op = .complete c ∧ s.complete c = (.ok (), s.perform op) := by
  cases hanswer : (s.answer op).1 with
  | error e =>
      rw [perform_of_error hanswer, hopen] at h
      cases h
  | ok _ =>
      cases op with
      | transcript p hash =>
          obtain ⟨-, hp, hstate⟩ := recordTranscript_eq_ok (answer_eq hanswer)
          have hlater := Phase.later_ne_complete (isComplete_eq_false.1 hopen) hp
          rw [hstate] at h
          exact absurd (of_decide_eq_true h) hlater
      | vote a v =>
          obtain ⟨-, -, -, hstate⟩ := castVote_eq_ok (answer_eq hanswer)
          have hlater := Phase.later_ne_complete (isComplete_eq_false.1 hopen)
            (show Phase.vote ≠ .complete by decide)
          rw [hstate] at h
          exact absurd (of_decide_eq_true h) hlater
      | complete c => exact ⟨c, rfl, answer_eq hanswer⟩

/-! ### Sequences of operations -/

theorem play_of_isComplete {s : Session} (h : s.isComplete = true) (ops : List Op) :
    s.play ops = s := by
  induction ops with
  | nil => rfl
  | cons op ops ih =>
      show (s.perform op).play ops = s
      rw [perform, answer_of_isComplete h op]
      exact ih

/-- As long as a session is open it has the transcripts that were to be recorded. -/
theorem contains_transcripts_play {s : Session} (hopen : s.isComplete = false) {ops : List Op}
    (h : (s.play ops).isComplete = false) {p : Phase} (hp : p ∈ Phase.witnessed) :
    (s.play ops).transcripts.contains p =
      (ops.any (Op.records p) || s.transcripts.contains p) := by
  induction ops generalizing s with
  | nil => rfl
  | cons op ops ih =>
      change ((s.perform op).play ops).isComplete = false at h
      show ((s.perform op).play ops).transcripts.contains p = _
      have hstep : (s.perform op).isComplete = false := by
        by_contra hcomplete
        rw [Bool.not_eq_false] at hcomplete
        rw [play_of_isComplete hcomplete, hcomplete] at h
        cases h
      rw [ih hstep h, contains_transcripts_perform hopen op hp, List.any_cons, Bool.or_left_comm,
        Bool.or_assoc]

/-- A session that comes to be complete is completed by one of the operations, and what follows
leaves it as it is. -/
theorem exists_complete_of_play {s : Session} (hopen : s.isComplete = false) {ops : List Op}
    (h : (s.play ops).isComplete = true) :
    ∃ before c after, ops = before ++ Op.complete c :: after ∧
      (s.play before).isComplete = false ∧ (s.play before).complete c = (.ok (), s.play ops) := by
  induction ops generalizing s with
  | nil =>
      change s.isComplete = true at h
      rw [hopen] at h
      cases h
  | cons op ops ih =>
      cases hstep : (s.perform op).isComplete with
      | true =>
          obtain ⟨c, rfl, hc⟩ := exists_complete_of_perform hopen hstep
          refine ⟨[], c, ops, rfl, hopen, ?_⟩
          show s.complete c = (.ok (), (s.perform (.complete c)).play ops)
          rw [play_of_isComplete hstep]
          exact hc
      | false =>
          obtain ⟨before, c, after, rfl, hbefore, hc⟩ := ih hstep h
          exact ⟨op :: before, c, after, rfl, hbefore, hc⟩

theorem start_eq_ok {id : SessionId} {petition : PetitionId} {archons : List Archon} {s : Session}
    (h : start id petition archons = .ok s) : s.isComplete = false ∧ s.transcripts = ∅ := by
  obtain ⟨-, -, rfl⟩ := start_eq_ok_iff.1 h
  exact ⟨rfl, rfl⟩

/-! ### A session that is complete -/

/-- A complete session misses just those transcripts that were not to be recorded before it was
completed, whatever was asked of it before and after. -/
theorem missing_of_complete {id : SessionId} {petition : PetitionId} {archons : List Archon}
    {s : Session} (hstart : start id petition archons = .ok s) {ops : List Op}
    (h : (s.play ops).isComplete = true) :
    ∃ before c after, ops = before ++ Op.complete c :: after ∧
      (s.play before).isComplete = false ∧ (s.play before).complete c = (.ok (), s.play ops) ∧
      (s.play ops).missingPhases =
        Phase.witnessed.filter (fun p => !before.any (Op.records p)) ∧
      ((s.play ops).missingPhases = [] ↔
        ∀ p ∈ Phase.witnessed, ∃ hash, Op.transcript p hash ∈ before) := by
  obtain ⟨hopen, hnone⟩ := start_eq_ok hstart
  obtain ⟨before, c, after, hops, hbefore, hc⟩ := exists_complete_of_play hopen h
  obtain ⟨-, -, outcome, -, hend⟩ := complete_eq_ok hc
  have hmissing : (s.play ops).missingPhases =
      Phase.witnessed.filter (fun p => !before.any (Op.records p)) := by
    rw [missingPhases, hend]
    refine List.filter_congr fun p hp => ?_
    show (!(s.play before).transcripts.contains p) = _
    rw [contains_transcripts_play hopen hbefore hp, hnone]
    exact congrArg (!·) (Bool.or_false _)
  have hrecords (p : Phase) :
      before.any (Op.records p) = true ↔ ∃ hash, Op.transcript p hash ∈ before := by
    rw [List.any_eq_true]
    constructor
    · rintro ⟨op, hop, hrecords⟩
      cases op with
      | transcript q hash =>
          obtain rfl : q = p := of_decide_eq_true hrecords
          exact ⟨hash, hop⟩
      | vote a v => cases hrecords
      | complete c => cases hrecords
    · rintro ⟨hash, hop⟩
      exact ⟨_, hop, decide_eq_true rfl⟩
  refine ⟨before, c, after, hops, hbefore, hc, hmissing, ?_⟩
  rw [hmissing, List.filter_eq_nil_iff]
  refine forall₂_congr fun p _ => ?_
  rw [← hrecords, Bool.not_eq_true', Bool.not_eq_false]

/-! ### Ending a session with its consensus -/

/-- An open session can be ended with the consensus that its votes have come to, whatever
transcripts it has. -/
theorem complete_of_resolve {r : Resolver} {s : Session} {votes : Ballot} {now : Instant}
    {c : Consensus} (hopen : s.isComplete = false) (h : r.resolve s votes now = .ok c) :
    ∃ t, s.complete c = (.ok (), t) ∧ t.isComplete = true ∧ t.transcripts = s.transcripts := by
  obtain ⟨-, winner, -, hdraft⟩ := Resolver.resolve_eq_ok h
  have hsession : c.session = s.id := congrArg Consensus.Draft.session hdraft
  have hwinner : c.winner = some winner := congrArg Consensus.Draft.winner hdraft
  rw [complete, if_neg (by simp [hopen]), if_neg (not_not.2 hsession), hwinner]
  exact ⟨_, rfl, rfl, rfl⟩

theorem play_complete {s t : Session} {before : List Op} {c : Consensus}
    (h : (s.play before).complete c = (.ok (), t)) (hcomplete : t.isComplete = true)
    (after : List Op) :
    s.play (before ++ Op.complete c :: after) = t := by
  rw [play, List.foldl_append]
  show ((s.play before).perform (.complete c)).play after = t
  have hperform : (s.play before).perform (.complete c) = t := congrArg Prod.snd h
  rw [hperform]
  exact play_of_isComplete hcomplete after

/-- A session that has just been opened. -/
def blank : Session where
  id := ⟨.ofNat 1⟩
  petition := ⟨.ofNat 2⟩
  archons := [⟨"a"⟩, ⟨"b"⟩, ⟨"c"⟩]
  phase := .assessment
  transcripts := ∅
  votes := ∅
  outcome := none
  dissenter := none
  completedAt := none

theorem start_blank :
    start ⟨.ofNat 1⟩ ⟨.ofNat 2⟩ [⟨"a"⟩, ⟨"b"⟩, ⟨"c"⟩] = .ok blank := rfl

/-- The three archons agree. -/
def agreeing : List Op :=
  [.vote ⟨"a"⟩ ⟨.refer, "for a"⟩, .vote ⟨"b"⟩ ⟨.refer, "for b"⟩, .vote ⟨"c"⟩ ⟨.refer, "for c"⟩]

theorem exists_resolve_agreeing (first : List Op)
    (h : (Resolver.default.resolve (blank.play (first ++ agreeing))
      (blank.play (first ++ agreeing)).voteMap .epoch).toOption.isSome = true) :
    ∃ c, Resolver.default.resolve (blank.play (first ++ agreeing))
      (blank.play (first ++ agreeing)).voteMap .epoch = .ok c := by
  cases hresolve : Resolver.default.resolve (blank.play (first ++ agreeing))
      (blank.play (first ++ agreeing)).voteMap .epoch with
  | error e =>
      rw [hresolve] at h
      cases h
  | ok c => exact ⟨c, rfl⟩

/-- One transcript is recorded in time and one too late. -/
theorem missing_of_complete_late :
    let hash := Digest.ofText "transcript"
    let before := Op.transcript .assessment hash :: agreeing
    start ⟨.ofNat 1⟩ ⟨.ofNat 2⟩ [⟨"a"⟩, ⟨"b"⟩, ⟨"c"⟩] = .ok blank ∧
      ∃ c, Resolver.default.resolve (blank.play before) (blank.play before).voteMap .epoch = .ok c ∧
        let s := blank.play (before ++ [.complete c, .transcript .position hash])
        s.isComplete = true ∧ s.missingPhases = [.position, .crossExamination, .vote] ∧
          ∃ before' c' after', before ++ [.complete c, .transcript .position hash] =
              before' ++ Op.complete c' :: after' ∧
            s.missingPhases = Phase.witnessed.filter (fun p => !before'.any (Op.records p)) := by
  intro hash before
  obtain ⟨c, hc⟩ := exists_resolve_agreeing [.transcript .assessment hash] (by decide +kernel)
  have hopen : (blank.play before).isComplete = false := by decide +kernel
  obtain ⟨t, ht, hcomplete, htranscripts⟩ := complete_of_resolve hopen hc
  have hplay := play_complete ht hcomplete [.transcript .position hash]
  have hmissing : (blank.play before).missingPhases = [.position, .crossExamination, .vote] := by
    decide +kernel
  obtain ⟨before', c', after', hops, -, -, hrecorded, -⟩ :=
    missing_of_complete start_blank (hplay.symm ▸ hcomplete)
  refine ⟨start_blank, c, hc, hplay.symm ▸ hcomplete, ?_, before', c', after', hops, hrecorded⟩
  rw [hplay, ← hmissing, missingPhases, missingPhases, htranscripts]

/-- A session is complete of which nothing is witnessed. -/
theorem complete_unwitnessed :
    start ⟨.ofNat 1⟩ ⟨.ofNat 2⟩ [⟨"a"⟩, ⟨"b"⟩, ⟨"c"⟩] = .ok blank ∧
      ∃ c, Resolver.default.resolve (blank.play agreeing) (blank.play agreeing).voteMap .epoch =
          .ok c ∧
        (blank.play (agreeing ++ [.complete c])).isComplete = true ∧
        (blank.play (agreeing ++ [.complete c])).missingPhases = Phase.witnessed := by
  obtain ⟨c, hc⟩ := exists_resolve_agreeing [] (by decide +kernel)
  have hopen : (blank.play agreeing).isComplete = false := by decide +kernel
  obtain ⟨t, ht, hcomplete, htranscripts⟩ := complete_of_resolve hopen hc
  have hplay := play_complete ht hcomplete []
  have hmissing : (blank.play agreeing).missingPhases = Phase.witnessed := by decide +kernel
  refine ⟨start_blank, c, hc, hplay.symm ▸ hcomplete, ?_⟩
  rw [hplay, ← hmissing, missingPhases, missingPhases, htranscripts]

end Session

end Curia
