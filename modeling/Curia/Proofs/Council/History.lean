import Curia.Proofs.Council.Transcripts

/-!
What a session keeps of what was asked of it. Only the operations that were not refused leave a
trace: the first vote of an archon stands and so does the last transcript of a phase, the phase is
the latest that the session has come to, and the operation that ends the session is the last one.
-/

namespace Curia

namespace Phase

theorem rank_le_later_left (p q : Phase) : p.rank ≤ (p.later q).rank := by
  rw [later]
  split <;> omega

theorem rank_le_later_right (p q : Phase) : q.rank ≤ (p.later q).rank := by
  rw [later]
  split <;> omega

theorem later_eq_or (p q : Phase) : p.later q = p ∨ p.later q = q := by
  rw [later]
  split <;> simp

theorem rank_le_complete (p : Phase) : p.rank ≤ complete.rank := by
  cases p <;> decide

/-- The phase is one of several, and none of them comes after it. -/
def IsLatest (P : Phase → Prop) (p : Phase) : Prop := P p ∧ ∀ q, P q → q.rank ≤ p.rank

/-- One more phase has been added. -/
theorem IsLatest.later {P Q : Phase → Prop} {p q : Phase} (h : IsLatest P p)
    (hQ : ∀ r, Q r ↔ P r ∨ r = q) : IsLatest Q (p.later q) := by
  constructor
  · apply (hQ _).2
    rcases p.later_eq_or q with hl | hl
    · rw [hl]
      exact .inl h.1
    · exact .inr hl
  · intro r hr
    rcases (hQ r).1 hr with hr | rfl
    · exact Nat.le_trans (h.2 r hr) (p.rank_le_later_left q)
    · exact p.rank_le_later_right r

end Phase

namespace Session

/-! ### What an operation is about -/

/-- The vote of an archon that the operation casts. -/
def Op.vote? (a : Archon) : Op → Option Vote
  | .vote b v => if b = a then some v else none
  | _ => none

/-- The transcript of a phase that the operation records. -/
def Op.transcript? (p : Phase) : Op → Option Digest
  | .transcript q hash => if q = p then some hash else none
  | _ => none

/-- Of operations that are asked for one after the other, those that are not refused. -/
def accepted (s : Session) : List Op → List Op
  | [] => []
  | op :: ops => match s.answer op with
    | (.ok _, t) => op :: t.accepted ops
    | (.error _, t) => t.accepted ops

theorem accepted_of_ok {s : Session} {op : Op} (h : (s.answer op).1 = .ok ()) (ops : List Op) :
    s.accepted (op :: ops) = op :: (s.perform op).accepted ops := by
  simp only [accepted, answer_eq h]

theorem accepted_of_error {s : Session} {op : Op} {e : CouncilError}
    (h : (s.answer op).1 = .error e) (ops : List Op) :
    s.accepted (op :: ops) = (s.perform op).accepted ops := by
  simp only [accepted, answer_eq h]

/-- What is refused leaves no trace. -/
theorem play_accepted (s : Session) (ops : List Op) : s.play (s.accepted ops) = s.play ops := by
  induction ops generalizing s with
  | nil => rfl
  | cons op ops ih =>
      cases h : (s.answer op).1 with
      | ok _ =>
          rw [accepted_of_ok h]
          exact ih (s.perform op)
      | error e =>
          rw [accepted_of_error h, perform_of_error h]
          show s.play (s.accepted ops) = (s.perform op).play ops
          rw [perform_of_error h]
          exact ih s

/-- What an open session takes: a transcript of a phase that is witnessed, the first vote of one of
its archons, and a consensus of its own that has a winner. -/
def Takes (s : Session) : Op → Prop
  | .transcript p _ => p ≠ .complete
  | .vote a _ => a ∈ s.archons ∧ s.votes.get? a = none
  | .complete c => c.session = s.id ∧ c.winner.isSome = true

theorem answer_eq_ok_iff {s : Session} {op : Op} :
    (s.answer op).1 = .ok () ↔ s.phase ≠ .complete ∧ s.Takes op := by
  rw [← isComplete_eq_false]
  constructor
  · intro h
    cases op with
    | transcript p hash =>
        obtain ⟨hopen, hp, -⟩ := recordTranscript_eq_ok (answer_eq h)
        exact ⟨hopen, hp⟩
    | vote a v =>
        obtain ⟨hopen, ha, hnew, -⟩ := castVote_eq_ok (answer_eq h)
        exact ⟨hopen, ha, hnew⟩
    | complete c =>
        obtain ⟨hopen, hid, outcome, hwinner, -⟩ := complete_eq_ok (answer_eq h)
        exact ⟨hopen, hid, by simp [hwinner]⟩
  · rintro ⟨hopen, htakes⟩
    cases op with
    | transcript p hash => simp_all [Takes, answer, recordTranscript]
    | vote a v =>
        simp_all [Takes, answer, castVote, isAssigned, SortedMap.contains]
    | complete c =>
        obtain ⟨hid, hwinner⟩ := htakes
        obtain ⟨outcome, hwinner⟩ := Option.isSome_iff_exists.1 hwinner
        simp [answer, complete, hopen, hid, hwinner]

/-! ### The phase -/

/-- What an open session has come to: the first phase, each phase that is witnessed, and the vote
once somebody has voted. -/
def Reached (s : Session) (p : Phase) : Prop :=
  p = .assessment ∨ s.transcripts.contains p = true ∨
    p = .vote ∧ ∃ a, s.votes.contains a = true

theorem Step.rank_le {s t : Session} (h : s.Step t) : s.phase.rank ≤ t.phase.rank := by
  cases h with
  | transcript p hash h =>
      obtain ⟨-, -, rfl⟩ := recordTranscript_eq_ok h
      exact Phase.rank_le_later_left s.phase p
  | vote a v h =>
      obtain ⟨-, -, -, rfl⟩ := castVote_eq_ok h
      exact Phase.rank_le_later_left s.phase .vote
  | complete c h =>
      obtain ⟨-, -, outcome, -, rfl⟩ := complete_eq_ok h
      exact Phase.rank_le_complete s.phase

theorem Evolves.rank_le {s t : Session} (h : s.Evolves t) : s.phase.rank ≤ t.phase.rank := by
  induction h with
  | refl => exact Nat.le_refl _
  | tail _ hstep ih => exact Nat.le_trans ih hstep.rank_le

/-! ### A state and the operations that led to it -/

/-- The state is what the operations have made of a session of the archons. -/
structure Recalls (s : Session) (archons : List Archon) (history : List Op) : Prop where
  archons_eq : s.archons = archons
  voter : ∀ a, s.votes.contains a = true → a ∈ s.archons
  votes : ∀ a, s.votes.get? a = (history.filterMap (Op.vote? a)).head?
  transcripts : ∀ p, s.transcripts.get? p = (history.filterMap (Op.transcript? p)).getLast?
  transcript_complete : s.transcripts.get? .complete = none
  phase : s.phase ≠ .complete → Phase.IsLatest s.Reached s.phase
  outcome : s.phase = .complete ↔ s.outcome.isSome = true
  completedAt : s.outcome.isSome = true ↔ s.completedAt.isSome = true

namespace Recalls

variable {s t : Session} {archons : List Archon} {history : List Op}

theorem of_start {id : SessionId} {petition : PetitionId} (h : start id petition archons = .ok s) :
    s.Recalls archons [] := by
  obtain ⟨-, -, rfl⟩ := start_eq_ok_iff.1 h
  constructor
  · rfl
  · simp [fresh, SortedMap.contains]
  · simp [fresh]
  · simp [fresh]
  · simp [fresh]
  · intro _
    refine ⟨.inl rfl, ?_⟩
    rintro p (rfl | hp | ⟨-, a, ha⟩)
    · exact Nat.le_refl _
    · cases hp
    · cases ha
  · simp [fresh]
  · simp [fresh]

theorem transcript (h : s.Recalls archons history) {p : Phase} {hash : Digest}
    (ht : s.recordTranscript p hash = (.ok (), t)) :
    t.Recalls archons (history ++ [.transcript p hash]) := by
  obtain ⟨hopen, hp, rfl⟩ := recordTranscript_eq_ok ht
  have hphase : s.phase ≠ .complete := isComplete_eq_false.1 hopen
  have hlater : s.phase.later p ≠ .complete := Phase.later_ne_complete hphase hp
  constructor
  · exact h.archons_eq
  · exact h.voter
  · intro a
    simp [h.votes a, Op.vote?]
  · intro q
    rw [SortedMap.get?_insert, List.filterMap_append, h.transcripts q]
    by_cases hq : p = q <;> simp [Op.transcript?, hq]
  · rw [SortedMap.get?_insert, if_neg hp]
    exact h.transcript_complete
  · intro _
    refine (h.phase hphase).later fun q => ?_
    simp only [Reached, SortedMap.contains, SortedMap.get?_insert]
    by_cases hq : p = q
    · simp [hq]
    · simp [hq, Ne.symm hq]
  · -- the session is still open
    have hnone := (not_congr h.outcome).1 hphase
    simp [hlater, hnone]
  · exact h.completedAt

theorem vote (h : s.Recalls archons history) {a : Archon} {v : Vote}
    (ht : s.castVote a v = (.ok (), t)) : t.Recalls archons (history ++ [.vote a v]) := by
  obtain ⟨hopen, ha, hnew, rfl⟩ := castVote_eq_ok ht
  have hphase : s.phase ≠ .complete := isComplete_eq_false.1 hopen
  have hlater : s.phase.later .vote ≠ .complete := Phase.later_ne_complete hphase (by decide)
  constructor
  · exact h.archons_eq
  · intro b hb
    rw [SortedMap.contains, SortedMap.get?_insert] at hb
    split at hb
    · next hab => exact hab ▸ ha
    · exact h.voter b hb
  · intro b
    rw [SortedMap.get?_insert, List.filterMap_append, List.head?_append, ← h.votes b]
    by_cases hb : a = b
    · subst hb
      simp [hnew, Op.vote?]
    · simp [hb, Op.vote?]
  · intro p
    simp [h.transcripts p, Op.transcript?]
  · exact h.transcript_complete
  · intro _
    refine (h.phase hphase).later fun q => ?_
    have hvoted : ∃ b, (s.votes.insert a v).contains b = true :=
      ⟨a, by simp [SortedMap.contains]⟩
    simp only [Reached, hvoted, and_true]
    tauto
  · have hnone := (not_congr h.outcome).1 hphase
    simp [hlater, hnone]
  · exact h.completedAt

theorem complete (h : s.Recalls archons history) {c : Consensus}
    (ht : s.complete c = (.ok (), t)) : t.Recalls archons (history ++ [.complete c]) := by
  obtain ⟨-, -, outcome, -, rfl⟩ := complete_eq_ok ht
  constructor
  · exact h.archons_eq
  · exact h.voter
  · intro a
    simp [h.votes a, Op.vote?]
  · intro p
    simp [h.transcripts p, Op.transcript?]
  · exact h.transcript_complete
  · intro hne
    exact absurd rfl hne
  · simp
  · simp

/-- An operation that is not refused is added to the history. -/
theorem step (h : s.Recalls archons history) {op : Op} (ht : (s.answer op).1 = .ok ()) :
    (s.perform op).Recalls archons (history ++ [op]) := by
  cases op with
  | transcript p hash => exact h.transcript (answer_eq ht)
  | vote a v => exact h.vote (answer_eq ht)
  | complete c => exact h.complete (answer_eq ht)

theorem play (h : s.Recalls archons history) (ops : List Op) :
    (s.play ops).Recalls archons (history ++ s.accepted ops) := by
  induction ops generalizing s history with
  | nil =>
      rw [accepted, List.append_nil]
      exact h
  | cons op ops ih =>
      show ((s.perform op).play ops).Recalls _ _
      cases hanswer : (s.answer op).1 with
      | ok _ =>
          rw [accepted_of_ok hanswer, List.append_cons]
          exact ih (h.step hanswer)
      | error e =>
          rw [accepted_of_error hanswer, perform_of_error hanswer]
          exact ih h

end Recalls

/-- Whatever is asked of a session of three archons, its state recalls what was not refused. What is
refused changes nothing, and once the session is complete everything is. The phase never goes back,
and no vote is altered. -/
theorem recalls_of_start {id : SessionId} {petition : PetitionId} {archons : List Archon}
    {s₀ : Session} (hstart : start id petition archons = .ok s₀) (ops : List Op) :
    let s := s₀.play ops
    archons.length = Consensus.archonsPerSession ∧ archons.Nodup ∧
      s.Recalls archons (s₀.accepted ops) ∧ s₀.play (s₀.accepted ops) = s ∧
      (∀ op e t, s.answer op = (.error e, t) → t = s) ∧
      (∀ op, (s.answer op).1 = .ok () ↔ s.phase ≠ .complete ∧ s.Takes op) ∧
      (s.phase = .complete → ∀ op, s.answer op = (.error (.sessionComplete id), s)) ∧
      ∀ more, s.phase.rank ≤ (s.play more).phase.rank ∧
        ∀ a v, s.votes.get? a = some v → (s.play more).votes.get? a = some v := by
  intro s
  have hrecalls : s₀.Recalls archons [] := .of_start hstart
  obtain ⟨hlength, hnodup, rfl⟩ := start_eq_ok_iff.1 hstart
  have hid : s.id = id := (evolves_play _ ops).id_eq
  refine ⟨hlength, hnodup, hrecalls.play ops, play_accepted _ ops, ?_,
    fun op => answer_eq_ok_iff, ?_, ?_⟩
  · intro op e t h
    rw [← perform_of_error (congrArg Prod.fst h), perform, h]
  · intro hcomplete op
    rw [← hid]
    exact answer_of_isComplete (decide_eq_true hcomplete) op
  · intro more
    exact ⟨(evolves_play s more).rank_le, fun a v => (evolves_play s more).get?_votes⟩

/-- The archons of the blank session agree. -/
def agreed : Consensus where
  session := ⟨.ofNat 1⟩
  petition := ⟨.ofNat 2⟩
  status := .unanimous
  winner := some .refer
  distribution := SortedMap.ofList [(.refer, 3)]
  majority := SortedSet.ofList [⟨"a"⟩, ⟨"b"⟩, ⟨"c"⟩]
  dissenter := none
  resolvedAt := .epoch
  flawless := by decide +kernel

/-- A stranger votes, an archon votes twice, a transcript is given of the phase that has none, and
there are a vote and a transcript after the end. -/
theorem recalls_of_start_meddled :
    let hash (n : UInt8) : Digest := ⟨List.replicate 32 n, rfl⟩
    let ops : List Op :=
      [.vote ⟨"d"⟩ ⟨.escalate, "stranger"⟩, .transcript .position (hash 1),
        .vote ⟨"a"⟩ ⟨.refer, "first"⟩, .vote ⟨"a"⟩ ⟨.escalate, "second"⟩,
        .transcript .position (hash 2), .transcript .complete (hash 3), .complete agreed,
        .vote ⟨"b"⟩ ⟨.refer, "late"⟩, .transcript .position (hash 4)]
    start ⟨.ofNat 1⟩ ⟨.ofNat 2⟩ [⟨"a"⟩, ⟨"b"⟩, ⟨"c"⟩] = .ok blank ∧
      (blank.play ops).phase = .complete ∧ (blank.accepted ops).length = 4 ∧
      (blank.play ops).Recalls [⟨"a"⟩, ⟨"b"⟩, ⟨"c"⟩] (blank.accepted ops) ∧
      (blank.play ops).votes.get? ⟨"a"⟩ = some ⟨.refer, "first"⟩ ∧
      (blank.play ops).votes.get? ⟨"b"⟩ = none ∧
      (blank.play ops).transcripts.get? .position = some (hash 2) := by
  intro hash ops
  refine ⟨start_blank, ?_, ?_, (recalls_of_start start_blank ops).2.2.1, ?_, ?_, ?_⟩ <;>
    decide +kernel

end Session

end Curia
