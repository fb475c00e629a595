import Curia.Proofs.Filter.Previews

/-!
The reasons for which a message is rejected. Two of them stand for faults of the filter itself: that a
rule cannot be used and that the time is overrun. Each comes up whenever there is this fault. Nothing
keeps a rule for rejecting from bearing such a reason too, and only then is it given for another
cause.
-/

namespace Curia

variable {props : Regex.Properties}

/-! ### Comparing the time -/

theorem Clock.readings_after (c : Clock) (n : Nat) : (c.after n).readings = c.readings + n := by
  induction n generalizing c with
  | zero => rfl
  | succ n ih =>
      have hread : c.read.2.readings = c.readings + 1 := rfl
      rw [after, ih, hread]
      omega

/-- The time runs out at one of the comparisons, or the outcome is come to with all of them in
time. -/
theorem timed_cases {α : Type} (outcome : Except StageFault α) (start budget n : Nat) (c : Clock) :
    ∃ m ≤ n, (timed outcome start budget n c).2 = c.after m ∧
      ((timed outcome start budget n c).1 = .error .late ∧
          (∃ k < m, budget < c.reading k - start) ∨
        (timed outcome start budget n c).1 = outcome ∧ ∀ k < m, c.reading k - start ≤ budget) := by
  induction n generalizing c with
  | zero => exact ⟨0, Nat.le_refl 0, rfl, .inr ⟨rfl, fun k hk => absurd hk (Nat.not_lt_zero k)⟩⟩
  | succ n ih =>
      simp only [timed, overBudget_eq, decide_eq_true_eq]
      by_cases hlate : budget < c.reading 0 - start
      · simp only [if_pos hlate]
        exact ⟨1, by omega, rfl, .inl ⟨trivial, 0, by omega, hlate⟩⟩
      · simp only [if_neg hlate]
        obtain ⟨m, hm, hclock, hcases⟩ := ih c.read.2
        refine ⟨m + 1, Nat.succ_le_succ hm, hclock, hcases.imp ?_ ?_⟩
        · rintro ⟨herror, k, hk, hover⟩
          exact ⟨herror, k + 1, Nat.succ_lt_succ hk, hover⟩
        · rintro ⟨houtcome, hintime⟩
          refine ⟨houtcome, fun k hk => ?_⟩
          cases k with
          | zero => exact Nat.not_lt.1 hlate
          | succ k => exact hintime k (Nat.lt_of_succ_lt_succ hk)

namespace Filter

/-- How often the time is compared with what is allowed when a text is evaluated: the clock is read
once at the start and then for each comparison. -/
def comparisons (f : Filter) (l : Library) (c : Clock) (text : String) : Nat :=
  (f.evaluate (some l) c text).2.readings - (c.readings + 1)

/-- One of the comparisons that are made measures more time than is allowed. -/
def Overruns (f : Filter) (l : Library) (c : Clock) (text : String) : Prop :=
  ∃ n < f.comparisons l c text, f.budget < c.reading (n + 1) - c.reading 0

/-- The stages run out of time, or they come in time to what does not depend on the clock. -/
theorem stages_cases (f : Filter) (l : Library) (c : Clock) (text : String) :
    (l.stages text.toList (c.reading 0) f.budget c.read.2).1 = .error .late ∧ f.Overruns l c text ∨
      (∀ fault, (l.stages text.toList (c.reading 0) f.budget c.read.2).1 = .error fault →
        fault.reason = .internalFault) ∧ ¬f.Overruns l c text := by
  obtain ⟨outcome, hfault, n, -, hstages⟩ := l.exists_stages_eq text.toList
  obtain ⟨m, -, hclock, hcases⟩ := timed_cases outcome (c.reading 0) f.budget n c.read.2
  rw [← hstages] at hclock hcases
  have hcomparisons : f.comparisons l c text = m := by
    have hafter : (f.evaluate (some l) c text).2 = c.read.2.after m := by
      rw [← hclock, evaluate]
      show (l.judge text.toList (c.reading 0) f.budget c.read.2).2 = _
      rw [Library.judge]
      split <;> next hjudge => rw [hjudge]
    have hread : c.read.2.readings = c.readings + 1 := rfl
    rw [comparisons, hafter, Clock.readings_after, hread]
    omega
  rw [Overruns, hcomparisons]
  refine hcases.imp_right ?_
  rintro ⟨houtcome, hintime⟩
  refine ⟨fun fault h => hfault fault (houtcome.symm.trans h), ?_⟩
  rintro ⟨k, hk, hover⟩
  exact Nat.not_lt.2 (hintime k hk) hover

end Filter

/-! ### Rejecting rules -/

namespace Rule

/-- Only one rule is the first. -/
theorem Leads.eq_of_leads {r s : Rule} {rules : List Rule} {severity : Severity}
    {text : List Char} (hnodup : (rules.map Rule.id).Nodup) (hr : r.Leads props rules severity text)
    (hs : s.Leads props rules severity text) : r = s := by
  have hrs := hr.noLater s hs.mem hs.severity_eq hs.finds
  have hsr := hs.noLater r hr.mem hr.severity_eq hr.finds
  have hid : r.id = s.id := by
    rcases hrs with hrs | ⟨hcategory, hrs⟩
    · rcases hsr with hsr | ⟨hcategory, -⟩
      · exact absurd (Nat.lt_trans hrs hsr) (Nat.lt_irrefl _)
      · rw [hcategory] at hrs
        exact absurd hrs (Nat.lt_irrefl _)
    · rcases hsr with hsr | ⟨-, hsr⟩
      · rw [hcategory] at hsr
        exact absurd hsr (Nat.lt_irrefl _)
      · exact String.le_antisymm hrs hsr
  exact List.inj_on_of_nodup_map hnodup hr.mem hs.mem hid

/-- No rule for rejecting bears a reason that stands for a fault of the filter. -/
def NoneFeigns (rules : List Rule) : Prop :=
  ∀ r ∈ rules, r.severity = .reject → ∀ reason, r.reason = some reason → reason.isFault = false

/-- By the rules a text is to be rejected for a reason: nothing is at fault, nothing blocks the text,
the time lasts until the rules for rejecting are tried, and the first that finds something bears the
reason. -/
structure Reject (props : Regex.Properties) (rules : List Rule) (text : List Char) (budget : Nat)
    (times : Nat → Nat) (reason : Reason) : Prop where
  usable : AllUsable props rules
  unblocked : ¬SomeFinds props rules .block text
  inTime : times 1 - times 0 ≤ budget
  borne : ∃ r : Rule, r.Leads props rules .reject text ∧ r.reason = some reason

theorem NoneFeigns.not_reject {rules : List Rule} (h : NoneFeigns rules) {text : List Char}
    {budget : Nat} {times : Nat → Nat} (reason : Reason) (hfault : reason.isFault = true) :
    ¬Reject props rules text budget times reason := by
  rintro ⟨-, -, -, r, hleads, hreason⟩
  have hhonest := h r hleads.mem hleads.severity_eq reason hreason
  rw [hfault] at hhonest
  cases hhonest

end Rule

namespace Library

variable {semver : String} {rules : List Rule} {l : Library}
  (hl : ofRules props semver rules = .ok l) {text : List Char} {budget : Nat} {c : Clock}
  {reason : Reason}

include hl

theorem reject_of_stages
    (h : (l.stages text (c.reading 0) budget c.read.2).1 = .ok (.rejected reason)) :
    Rule.Reject props rules text budget c.reading reason := by
  have husable : Rule.AllUsable props rules := by
    by_contra hfaulty
    obtain ⟨_, _, hstages⟩ := stages_of_faulty hl (c.reading 0) budget c.read.2 hfaulty
    rw [h] at hstages
    cases hstages
  have hblock : ¬Rule.SomeFinds props rules .block text := by
    intro hblock
    obtain ⟨_, _, -, -, hstages⟩ :=
      stages_of_blocked hl (c.reading 0) budget c.read.2 husable hblock
    rw [h] at hstages
    cases hstages
  have htime : c.reading 1 - c.reading 0 ≤ budget := by
    by_contra hlate
    rw [stages_of_unblocked hl (c.reading 0) budget c.read.2 husable hblock,
      if_pos (show budget < c.read.2.reading 0 - c.reading 0 from Nat.not_le.1 hlate)] at h
    cases h
  refine ⟨husable, hblock, htime, ?_⟩
  by_cases hreject : Rule.SomeFinds props rules .reject text
  · obtain ⟨r, reason', hleads, hreason, hstages⟩ :=
      stages_of_rejected hl (c.reading 0) budget c.read.2 husable hblock htime hreject
    rw [h] at hstages
    cases hstages
    exact ⟨r, hleads, hreason⟩
  · rw [stages_of_unrejected hl (c.reading 0) budget c.read.2 husable hblock hreject] at h
    split at h <;> cases h

theorem judge_of_reject (h : Rule.Reject props rules text budget c.reading reason) :
    (l.judge text (c.reading 0) budget c.read.2).1 = .rejected reason := by
  obtain ⟨husable, hblock, htime, r, hleads, hreason⟩ := h
  have hreject : Rule.SomeFinds props rules .reject text :=
    ⟨r, hleads.mem, hleads.severity_eq, hleads.finds⟩
  obtain ⟨s, reason', hleads', hreason', hjudge⟩ :=
    judge_of_rejected hl text budget c husable hblock htime hreject
  obtain rfl := hleads.eq_of_leads (ofRules_eq_ok hl).1 hleads'
  rw [hreason] at hreason'
  cases hreason'
  exact hjudge

/-- What stops the stages is a rule that cannot be used, unless the time runs out. -/
theorem faults_ne_nil_of_stages {fault : StageFault}
    (h : (l.stages text (c.reading 0) budget c.read.2).1 = .error fault)
    (hfault : fault.reason = .internalFault) : l.faults ≠ [] := by
  intro hnil
  have husable := (faults_eq_nil_iff hl).1 hnil
  cases fault with
  | malformed rule fault => exact stages_ne_malformed hl _ budget c.read.2 husable rule fault h
  | late => cases hfault

end Library

namespace Filter

section

variable {semver : String} {rules : List Rule} {l : Library}
  (hl : Library.ofRules props semver rules = .ok l) (f : Filter) (c : Clock) (text : String)

include hl

theorem causes_of_rejected {reason : Reason}
    (h : (f.evaluate (some l) c text).1.verdict = .rejected reason) :
    reason = .internalFault ∧ l.faults ≠ [] ∨
      reason = .processingTimeout ∧ f.Overruns l c text ∨
        Rule.Reject props rules text.toList f.budget c.reading reason := by
  have h : (l.judge text.toList (c.reading 0) f.budget c.read.2).1 = .rejected reason := h
  rcases f.stages_cases l c text with ⟨hlate, hover⟩ | ⟨hfault, -⟩
  · rw [Library.judge_of_error hlate] at h
    cases h
    exact .inr (.inl ⟨rfl, hover⟩)
  · cases hstages : (l.stages text.toList (c.reading 0) f.budget c.read.2).1 with
    | error fault =>
        have hinternal := hfault fault hstages
        rw [Library.judge_of_error hstages, hinternal] at h
        cases h
        exact .inl ⟨rfl, Library.faults_ne_nil_of_stages hl hstages hinternal⟩
    | ok v =>
        rw [Library.judge_of_ok hstages] at h
        rw [h] at hstages
        exact .inr (.inr (Library.reject_of_stages hl hstages))

theorem rejected_of_faults (h : l.faults ≠ []) :
    (f.evaluate (some l) c text).1.verdict = .rejected .internalFault :=
  Library.judge_of_faulty hl text.toList f.budget c
    fun husable => h ((Library.faults_eq_nil_iff hl).2 husable)

omit hl in
theorem rejected_of_overruns (h : f.Overruns l c text) :
    (f.evaluate (some l) c text).1.verdict = .rejected .processingTimeout := by
  rcases f.stages_cases l c text with ⟨hlate, -⟩ | ⟨-, hintime⟩
  · exact Library.judge_of_error hlate
  · exact absurd h hintime

end

/-- A message is rejected for a rule that cannot be used, for the time that is overrun or for the
reason that a rule bears, and for nothing else. Unless a rule feigns a fault, the reasons that stand
for faults are given for these faults alone. -/
theorem rejected_for_faults {semver : String} {rules : List Rule} {l : Library}
    (hl : Library.ofRules props semver rules = .ok l) (f : Filter) (c : Clock) (text : String) :
    (∀ reason, (f.evaluate (some l) c text).1.verdict = .rejected reason ↔
      reason = .internalFault ∧ l.faults ≠ [] ∨
        reason = .processingTimeout ∧ f.Overruns l c text ∨
          Rule.Reject props rules text.toList f.budget c.reading reason) ∧
      (Rule.NoneFeigns rules →
        ((f.evaluate (some l) c text).1.verdict = .rejected .internalFault ↔ l.faults ≠ []) ∧
          ((f.evaluate (some l) c text).1.verdict = .rejected .processingTimeout ↔
            f.Overruns l c text)) := by
  have hcauses (reason : Reason) : (f.evaluate (some l) c text).1.verdict = .rejected reason ↔
      reason = .internalFault ∧ l.faults ≠ [] ∨
        reason = .processingTimeout ∧ f.Overruns l c text ∨
          Rule.Reject props rules text.toList f.budget c.reading reason := by
    constructor
    · exact causes_of_rejected hl f c text
    · rintro (⟨rfl, hfaults⟩ | ⟨rfl, hover⟩ | hreject)
      · exact rejected_of_faults hl f c text hfaults
      · exact rejected_of_overruns f c text hover
      · exact Library.judge_of_reject hl hreject
  refine ⟨hcauses, fun hnone => ?_⟩
  constructor
  · rw [hcauses]
    simp [hnone.not_reject .internalFault rfl]
  · rw [hcauses]
    simp [hnone.not_reject .processingTimeout rfl]

/-- The rules against ultimatums and urgency feign nothing, so a text that is rejected for its time has
overrun it, and none of the rules is at fault. -/
theorem rejected_for_faults_of_hurry :
    ∃ l, Library.ofRules .basic Library.builtinVersion Library.ultimatumRules = .ok l ∧
      Rule.NoneFeigns Library.ultimatumRules ∧
      (standard.evaluate (some l) (.showing .epoch (90 * ·)) "URGENT please review").1.verdict =
        .rejected .processingTimeout ∧
      standard.Overruns l (.showing .epoch (90 * ·)) "URGENT please review" ∧ l.faults = [] := by
  have hslow : hurried 200 "URGENT please review" = some (.rejected .processingTimeout) := by
    decide +kernel
  have hnone : Rule.NoneFeigns Library.ultimatumRules := by
    simp [Rule.NoneFeigns, Library.ultimatumRules, Rule.block, Rule.transform]
  obtain ⟨l, hl, hverdict⟩ := exists_of_hurried hslow
  obtain ⟨hinternal, htimeout⟩ :=
    (rejected_for_faults hl standard (.showing .epoch (90 * ·)) "URGENT please review").2 hnone
  have hverdict : (standard.evaluate (some l) (.showing .epoch (90 * ·))
      "URGENT please review").1.verdict = .rejected .processingTimeout := hverdict
  refine ⟨l, hl, hnone, hverdict, htimeout.1 hverdict, ?_⟩
  by_contra hfaults
  have hinternal := hinternal.2 hfaults
  rw [hverdict] at hinternal
  cases hinternal

/-! ### A rule that feigns a fault -/

/-- What comes of "please review" under one rule that rejects "please" for a reason, and whether this
rule can be used. -/
def feigned? (reason : Reason) : Option (Verdict String × Bool) := do
  let l ← (Library.ofRules .basic Library.builtinVersion
    [.reject "rej-001" .demand "please" reason "Politeness"]).toOption
  return ((standard.evaluate (some l) .sample "please review").1.verdict, l.faults.isEmpty)

theorem exists_of_feigned? {reason : Reason} {v : Verdict String}
    (h : feigned? reason = some (v, true)) :
    ∃ l, Library.ofRules .basic Library.builtinVersion
        [.reject "rej-001" .demand "please" reason "Politeness"] = .ok l ∧ l.faults = [] ∧
      (standard.evaluate (some l) .sample "please review").1.verdict = v := by
  rw [feigned?] at h
  cases hl : Library.ofRules .basic Library.builtinVersion
      [.reject "rej-001" .demand "please" reason "Politeness"] with
  | error e =>
      rw [hl] at h
      cases h
  | ok l =>
      rw [hl] at h
      obtain ⟨hverdict, hfaults⟩ := Prod.mk.inj (Option.some.inj h)
      exact ⟨l, rfl, List.isEmpty_iff.1 hfaults, hverdict⟩

theorem not_overruns_sample (l : Library) (text : String) :
    ¬standard.Overruns l .sample text := by
  have hstill (n : Nat) (c : Clock) (hstep : ∀ k, c.step k = 0) : c.reading n = c.elapsed := by
    induction n generalizing c with
    | zero => rfl
    | succ n ih =>
        show c.read.2.reading n = c.elapsed
        rw [ih c.read.2 hstep]
        show c.elapsed + c.step c.readings = c.elapsed
        rw [hstep, Nat.add_zero]
  rintro ⟨n, -, hover⟩
  rw [hstill _ .sample fun _ => rfl, hstill _ .sample fun _ => rfl, Nat.sub_self] at hover
  exact Nat.not_lt_zero _ hover

/-- Rules that can be used and time that is kept do not keep a text from being rejected as if they were
at fault. -/
theorem feigned_faults_reported :
    (∃ l, Library.ofRules .basic Library.builtinVersion
        [.reject "rej-001" .demand "please" .internalFault "Politeness"] = .ok l ∧ l.faults = [] ∧
      (standard.evaluate (some l) .sample "please review").1.verdict =
        .rejected .internalFault) ∧
      ∃ l, Library.ofRules .basic Library.builtinVersion
          [.reject "rej-001" .demand "please" .processingTimeout "Politeness"] = .ok l ∧
        ¬standard.Overruns l .sample "please review" ∧
        (standard.evaluate (some l) .sample "please review").1.verdict =
          .rejected .processingTimeout := by
  have hinternal : feigned? .internalFault = some (.rejected .internalFault, true) := by
    decide +kernel
  have htimeout : feigned? .processingTimeout = some (.rejected .processingTimeout, true) := by
    decide +kernel
  refine ⟨exists_of_feigned? hinternal, ?_⟩
  obtain ⟨l, hl, -, hverdict⟩ := exists_of_feigned? htimeout
  exact ⟨l, hl, not_overruns_sample l _, hverdict⟩

end Filter

end Curia
