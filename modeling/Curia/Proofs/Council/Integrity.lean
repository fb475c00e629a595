import Curia.Proofs.Council.Witnessing

/-!
What a record of a dissent gives away about its reason. However the record was made, its reason has
the digest that it carries; so it can be restored from its parts, and the parts of a record whose
reason or digest was changed are refused. The records that a registry keeps are such records.
-/

namespace Curia

theorem Digest.eq_iff_bytes {d e : Digest} : d = e ↔ d.bytes = e.bytes := by
  rw [Digest.mk.injEq]

namespace Dissent

section

variable {id : DissentId} {session : SessionId} {petition : PetitionId} {archon : Archon}
  {outcome majority : Outcome} {rationale : String} {hash : List UInt8} {now : Instant} {d : Dissent}

/-! ### What is restored and what is refused -/

theorem restore_of_length_ne (h : hash.length ≠ Digest.size) :
    restore id session petition archon outcome majority rationale hash now =
      .error (.invalidRationale session (.hashLength hash.length)) := by
  rw [restore, if_pos h]

theorem restore_of_eq_majority (hlength : hash.length = Digest.size) (h : outcome = majority) :
    restore id session petition archon outcome majority rationale hash now =
      .error (.dissentWithMajority session archon outcome) := by
  rw [restore, if_neg (not_not_intro hlength), new, if_pos h]

theorem restore_of_ne_majority (hlength : hash.length = Digest.size) (h : outcome ≠ majority) :
    restore id session petition archon outcome majority rationale hash now =
      if (Digest.ofText rationale).bytes = hash then
        .ok { id, session, petition, archon, outcome, majority, rationale
              rationaleHash := Digest.ofText rationale
              recordedAt := now }
      else .error (.invalidRationale session .hashMismatch) := by
  rw [restore, if_neg (not_not_intro hlength), new, if_neg h]

theorem restore_eq_ok_iff :
    restore id session petition archon outcome majority rationale hash now = .ok d ↔
      outcome ≠ majority ∧ hash = Blake3.hash rationale.toUTF8.toList ∧
        d = { id, session, petition, archon, outcome, majority, rationale
              rationaleHash := Digest.ofText rationale
              recordedAt := now } := by
  constructor
  · intro h
    by_cases hlength : hash.length = Digest.size
    · by_cases hne : outcome = majority
      · rw [restore_of_eq_majority hlength hne] at h
        cases h
      · rw [restore_of_ne_majority hlength hne] at h
        split at h
        · next hbytes => exact ⟨hne, hbytes.symm, (Except.ok.inj h).symm⟩
        · cases h
    · rw [restore_of_length_ne hlength] at h
      cases h
  · rintro ⟨hne, rfl, rfl⟩
    rw [restore_of_ne_majority (Blake3.hash_length _) hne]
    exact if_pos rfl

/-- A reason that does not have the digest is refused, whatever else is wrong with the parts. -/
theorem restore_of_hash_ne (hne : outcome ≠ majority)
    (h : hash ≠ Blake3.hash rationale.toUTF8.toList) :
    restore id session petition archon outcome majority rationale hash now =
      .error (.invalidRationale session
        (if hash.length = Digest.size then .hashMismatch else .hashLength hash.length)) := by
  split
  · next hlength =>
    rw [restore_of_ne_majority hlength hne]
    exact if_neg fun hbytes => h hbytes.symm
  · next hlength => exact restore_of_length_ne hlength

end

/-! ### The records that can be made -/

/-- The ways in which there comes to be a record. -/
inductive Made : Dissent → Prop
  | new {id : DissentId} {session : SessionId} {petition : PetitionId} {archon : Archon}
      {outcome majority : Outcome} {rationale : String} {now : Instant} {d : Dissent}
      (h : Dissent.new id session petition archon outcome majority rationale now = .ok d) : Made d
  | restored {id : DissentId} {session : SessionId} {petition : PetitionId} {archon : Archon}
      {outcome majority : Outcome} {rationale : String} {hash : List UInt8} {now : Instant}
      {d : Dissent}
      (h : restore id session petition archon outcome majority rationale hash now = .ok d) : Made d

variable {d : Dissent}

/-- A record that is against the majority and has the digest of its reason can be made anew. -/
theorem new_of_hash (hne : d.outcome ≠ d.majority)
    (hhash : d.rationaleHash = Digest.ofText d.rationale) :
    Dissent.new d.id d.session d.petition d.archon d.outcome d.majority d.rationale d.recordedAt =
      .ok d := by
  rw [Dissent.new, if_neg hne, ← hhash]

theorem made_iff :
    d.Made ↔ d.outcome ≠ d.majority ∧ d.rationaleHash = Digest.ofText d.rationale := by
  constructor
  · rintro (h | h)
    · obtain ⟨hne, rfl⟩ := new_eq_ok h
      exact ⟨hne, rfl⟩
    · obtain ⟨hne, -, rfl⟩ := restore_eq_ok_iff.1 h
      exact ⟨hne, rfl⟩
  · rintro ⟨hne, hhash⟩
    exact .new (new_of_hash hne hhash)

theorem Made.bytes_eq (h : d.Made) :
    d.rationaleHash.bytes = Blake3.hash d.rationale.toUTF8.toList := by
  rw [(made_iff.1 h).2, Digest.ofText]

theorem verifies_iff {text : String} :
    d.verifies text = true ↔ Blake3.hash text.toUTF8.toList = d.rationaleHash.bytes := by
  rw [verifies, decide_eq_true_iff, Digest.eq_iff_bytes, Digest.ofText]

theorem Made.isIntact (h : d.Made) : d.isIntact = true :=
  verifies_iff.2 h.bytes_eq.symm

/-- A record can be restored from its parts. -/
theorem Made.restore (h : d.Made) :
    restore d.id d.session d.petition d.archon d.outcome d.majority d.rationale
      d.rationaleHash.bytes d.recordedAt = .ok d := by
  obtain ⟨hne, hhash⟩ := made_iff.1 h
  exact restore_new (new_of_hash hne hhash)

/-- A record is against the majority and intact, however it was made; a text is verified just if it
has the digest, and the record can be restored from its parts. Parts in which the outcome is not that
of the majority make a record just if the bytes are the digest of the reason, and are refused for the
digest otherwise; parts in which it is are always refused. -/
theorem tamper_evident :
    (∀ d : Dissent, d.Made → d.outcome ≠ d.majority ∧ d.isIntact = true ∧
      (∀ text, d.verifies text = true ↔
        Blake3.hash text.toUTF8.toList = d.rationaleHash.bytes) ∧
      Dissent.restore d.id d.session d.petition d.archon d.outcome d.majority d.rationale
        d.rationaleHash.bytes d.recordedAt = .ok d) ∧
    ∀ id session petition archon outcome majority rationale hash now,
      let answer := restore id session petition archon outcome majority rationale hash now
      (outcome ≠ majority →
        ((∃ d, answer = .ok d) ↔ hash = Blake3.hash rationale.toUTF8.toList) ∧
        (hash ≠ Blake3.hash rationale.toUTF8.toList → answer = .error (.invalidRationale session
          (if hash.length = Digest.size then .hashMismatch else .hashLength hash.length)))) ∧
      (outcome = majority → answer = .error
        (if hash.length = Digest.size then .dissentWithMajority session archon outcome
        else .invalidRationale session (.hashLength hash.length))) := by
  refine ⟨fun d hd => ⟨(made_iff.1 hd).1, hd.isIntact, fun text => verifies_iff, hd.restore⟩, ?_⟩
  intro id session petition archon outcome majority rationale hash now answer
  refine ⟨fun hne => ⟨?_, restore_of_hash_ne hne⟩, fun heq => ?_⟩
  · constructor
    · rintro ⟨d, hd⟩
      exact (restore_eq_ok_iff.1 hd).2.1
    · intro hhash
      exact ⟨_, restore_eq_ok_iff.2 ⟨hne, hhash, rfl⟩⟩
  · split
    · next hlength => exact restore_of_eq_majority hlength heq
    · next hlength => exact restore_of_length_ne hlength

/-- A record is restored from its parts, and is not if the reason or the digest is another one. -/
theorem tamper_evident_changed :
    let restored (majority : Outcome) (rationale : String) (hash : List UInt8) :=
      restore ⟨.ofNat 1⟩ ⟨.ofNat 2⟩ ⟨.ofNat 3⟩ ⟨"a"⟩ .escalate majority rationale hash .epoch
    let hash := Blake3.hash "no".toUTF8.toList
    (∃ d, restored .refer "no" hash = .ok d ∧ d.isIntact = true ∧ d.verifies "yes" = false) ∧
      restored .refer "yes" hash = .error (.invalidRationale ⟨.ofNat 2⟩ .hashMismatch) ∧
      restored .refer "no" hash.tail =
        .error (.invalidRationale ⟨.ofNat 2⟩ (.hashLength 31)) ∧
      restored .escalate "no" hash =
        .error (.dissentWithMajority ⟨.ofNat 2⟩ ⟨"a"⟩ .escalate) := by
  intro restored hash
  obtain ⟨hmade, hrestored⟩ := tamper_evident
  have hlength : hash.length = Digest.size := Blake3.hash_length _
  have hyes : Blake3.hash "yes".toUTF8.toList ≠ hash := by decide +kernel
  have hparts (majority : Outcome) (rationale : String) (bytes : List UInt8) :=
    hrestored ⟨.ofNat 1⟩ ⟨.ofNat 2⟩ ⟨.ofNat 3⟩ ⟨"a"⟩ .escalate majority rationale bytes .epoch
  refine ⟨?_, ?_, ?_, ?_⟩
  · obtain ⟨d, hd⟩ := ((hparts .refer "no" hash).1 (by decide)).1.2 rfl
    obtain ⟨-, hintact, hverifies, -⟩ := hmade d (.restored hd)
    refine ⟨d, hd, hintact, Bool.eq_false_iff.2 fun h => hyes ?_⟩
    rw [(hverifies "yes").1 h, (restore_eq_ok_iff.1 hd).2.2]
    rfl
  · have hrefused := ((hparts .refer "yes" hash).1 (by decide)).2 hyes.symm
    rwa [if_pos hlength] at hrefused
  · have htail : hash.tail.length = 31 := by simp [hlength, Digest.size]
    have hne : hash.tail ≠ hash := fun h => by simp [h, hlength, Digest.size] at htail
    have hrefused := ((hparts .refer "no" hash.tail).1 (by decide)).2 hne
    rwa [htail] at hrefused
  · have hrefused := (hparts .escalate "no" hash).2 rfl
    rwa [if_pos hlength] at hrefused

end Dissent

/-! ### The records that are kept -/

namespace Recorder

/-- Every record that is stored or held is one that can be made. -/
def Sound (r : Recorder) : Prop := ∀ t d, r.recordOf? t = some d → d.Made

variable {r r' : Recorder} {l l' : Ledger} {s : Session} {c : Consensus} {rationale : String}
  {now : Instant} {id : DissentId} {eventId : EventId}

theorem made_of_dissentOf {d : Dissent} (h : dissentOf s c rationale now id = .ok d) : d.Made := by
  obtain ⟨-, -, -, hne, -, -, hrationale, hhash⟩ := dissentOf_eq_ok h
  exact Dissent.made_iff.2 ⟨hne, hrationale ▸ hhash⟩

theorem Sound.of_recordOf? (h : r.Sound) (hrecord : ∀ t, r'.recordOf? t = r.recordOf? t) :
    r'.Sound :=
  fun t d hd => h t d ((hrecord t).symm.trans hd)

/-- A record that is witnessed was held, or it is made. -/
theorem Sound.witness (h : r.Sound) {d : Dissent}
    (hd : Witnessing r l s c rationale now id eventId (.ok d, r', l')) : r'.Sound := by
  cases hd with
  | held d hd => exact h
  | written d l' hheld hd hl =>
      intro t e he
      rw [recordOf?, SortedMap.get?_insert, Option.or_eq_some_iff] at he
      obtain hstored | ⟨hnone, he⟩ := he
      · refine h t e ?_
        rw [recordOf?, hstored]
        rfl
      · split at he
        · exact Option.some.inj he ▸ made_of_dissentOf hd
        · refine h t e ?_
          rw [recordOf?, hnone]
          exact he

theorem Sound.recording (h : r.Sound) {answer : Except CouncilError (Option Dissent)}
    (hrecording : Recording r l s c rationale now id eventId (answer, r', l')) : r'.Sound := by
  cases hrecording with
  | late d r₁ l' n hnone hn hd => exact (h.witness hd).of_recordOf? (hd.recordOf?_late n)
  | stored d r₁ l' store' hnone hd hrefuses hstore =>
      exact (h.witness hd).of_recordOf? (hd.recordOf?_stored hnone hstore)
  | _ => exact h

/-- A record that is stored is found to be intact. -/
theorem Sound.verify?_ne (h : r.Sound) (t : SessionId) : r.verify? t ≠ some false := by
  rw [verify?]
  cases hstored : r.store.ofSession? t with
  | none => simp
  | some d =>
      have hmade : d.Made := h t d (by simp [recordOf?, hstored])
      simp [hmade.isIntact]

end Recorder

namespace Registry

variable {x : Registry}

theorem sound_run (hx : x.Accounts) (h : x.recorder.Sound) (calls : List Call) :
    (x.run calls).recorder.Sound := by
  induction calls generalizing x with
  | nil => exact h
  | cons call calls ih => exact ih (hx.step call) (h.recording (hx.recording call))

/-- Whatever fails in between, no record is ever found to have been changed. -/
theorem verify?_run_ne (ledgerRefuses storeRefuses : Nat → Bool) (calls : List Call)
    (t : SessionId) :
    ((blank ledgerRefuses storeRefuses).run calls).recorder.verify? t ≠ some false := by
  have hblank : (blank ledgerRefuses storeRefuses).recorder.Sound := by
    intro t d hd
    cases hd
  exact (sound_run (accounts_blank ledgerRefuses storeRefuses) hblank calls).verify?_ne t

end Registry

end Curia
