import Mathlib.Order.Monotone.Basic
import Curia.Proofs.Filter.Cleanness
import Curia.Proofs.Filter.Rules

/-!
How the filter comes to its verdict. Faults come first, then the rules for blocking, then those for
rejecting, and the time spent is looked at in between; only what none of this stops is accepted.
-/

namespace Curia

variable {props : Regex.Properties}

/-! ### Readings -/

namespace Clock

/-- What the second hand shows when it is read the next time, the time after that, and so on. -/
def reading (c : Clock) : Nat → Nat
  | 0 => c.elapsed
  | n + 1 => c.read.2.reading n

/-- A clock that shows the given times in turn. -/
def showing (wall : Instant) (times : Nat → Nat) : Clock :=
  ⟨wall, times 0, 0, fun n => times (n + 1) - times n⟩

theorem reading_le_succ (c : Clock) (n : Nat) : c.reading n ≤ c.reading (n + 1) := by
  induction n generalizing c with
  | zero => exact Nat.le_add_right ..
  | succ n ih => exact ih c.read.2

theorem monotone_reading (c : Clock) : Monotone c.reading :=
  monotone_nat_of_le_succ c.reading_le_succ

/-- Every sequence of times that never goes back is shown by a clock. -/
theorem reading_showing (wall : Instant) {times : Nat → Nat} (h : Monotone times) :
    (showing wall times).reading = times := by
  have hfrom (k n : Nat) :
      reading ⟨wall, times k, k, fun n => times (n + 1) - times n⟩ n = times (k + n) := by
    induction n generalizing k with
    | zero => rfl
    | succ n ih =>
        have hk : times k + (times (k + 1) - times k) = times (k + 1) :=
          Nat.add_sub_cancel' (h (Nat.le_succ k))
        show reading ⟨wall, times k + (times (k + 1) - times k), k + 1, _⟩ n = _
        rw [hk, ih]
        congr 1
        omega
  funext n
  exact (hfrom 0 n).trans (congrArg times (Nat.zero_add n))

end Clock

@[simp] theorem overBudget_eq (start budget : Nat) (c : Clock) :
    overBudget start budget c = (decide (budget < c.reading 0 - start), c.read.2) := rfl

/-- Compares the time as often as the number says and then comes to the outcome. It ends with the
first comparison that finds the time spent. -/
def timed {α : Type} (outcome : Except StageFault α) (start budget : Nat) :
    Nat → Clock → Except StageFault α × Clock
  | 0, c => (outcome, c)
  | n + 1, c =>
    let (late, c) := overBudget start budget c
    if late then (.error .late, c) else timed outcome start budget n c

/-- Less time does not change the outcome, save that it may run out. -/
theorem timed_of_budget {α : Type} (outcome : Except StageFault α) (start less : Nat) {budget n : Nat}
    {c : Clock} (h : ∀ m < n, c.reading m - start ≤ budget) :
    timed outcome start less n c = timed outcome start budget n c ∨
      (timed outcome start less n c).1 = .error .late := by
  induction n generalizing c with
  | zero => exact .inl rfl
  | succ n ih =>
      have hfirst : ¬budget < c.reading 0 - start := Nat.not_lt.2 (h 0 (Nat.succ_pos n))
      simp only [timed, overBudget_eq, decide_eq_true_eq, if_neg hfirst]
      split
      · exact .inr rfl
      · exact ih fun m hm => h (m + 1) (Nat.succ_lt_succ hm)

/-- What the stages come to, and after how many comparisons, does not depend on the clock. A fault
of theirs is one of a rule. -/
theorem Library.exists_stages_eq (l : Library) (text : List Char) :
    ∃ outcome, (∀ fault, outcome = .error fault → fault.reason = .internalFault) ∧
      ∃ n ≤ 3, ∀ start budget c,
        l.stages text start budget c = timed outcome start budget n c := by
  have hok (v : Verdict String) (fault : StageFault) (h : .ok v = Except.error fault) :
      fault.reason = .internalFault := by
    cases h
  cases hfaults : l.faults.head? with
  | some f =>
      refine ⟨.error (.malformed f.1 f.2), ?_, 0, by omega, fun start budget c => ?_⟩
      · intro fault h
        cases h
        rfl
      · rw [stages, hfaults]
        rfl
  | none =>
      cases hblock : withhold Rule.blocked? text l.blocking with
      | error fault =>
          refine ⟨.error fault, ?_, 0, by omega, fun start budget c => ?_⟩
          · intro fault h
            cases h
            exact reason_of_withhold hblock
          · rw [stages, hfaults, hblock]
            rfl
      | ok found =>
          cases found with
          | some v =>
              refine ⟨.ok v, hok v, 0, by omega, fun start budget c => ?_⟩
              rw [stages, hfaults, hblock]
              rfl
          | none =>
              cases hreject : withhold Rule.rejected? text l.rejecting with
              | error fault =>
                  refine ⟨.error fault, ?_, 1, by omega, fun start budget c => ?_⟩
                  · intro fault h
                    cases h
                    exact reason_of_withhold hreject
                  · rw [stages, hfaults, hblock, hreject]
                    rfl
              | ok found =>
                  cases found with
                  | some v =>
                      refine ⟨.ok v, hok v, 1, by omega, fun start budget c => ?_⟩
                      rw [stages, hfaults, hblock, hreject]
                      rfl
                  | none =>
                      cases hrework : rework text l.transforming with
                      | error fault =>
                          refine ⟨.error fault, ?_, 2, by omega, fun start budget c => ?_⟩
                          · intro fault h
                            cases h
                            exact reason_of_rework hrework
                          · rw [stages, hfaults, hblock, hreject, hrework]
                            rfl
                      | ok v =>
                          refine ⟨.ok v, hok v, 3, by omega, fun start budget c => ?_⟩
                          rw [stages, hfaults, hblock, hreject, hrework]
                          rfl

/-! ### Stages without faults -/

namespace Rule

theorem exists_violation {r : Rule} (h : ¬r.Faulty props) (hseverity : r.severity = .block) :
    ∃ v, r.violation = some v := by
  rw [Faulty, not_or, hasAction, hseverity, Bool.not_eq_false] at h
  exact Option.isSome_iff_exists.1 h.1

theorem exists_reason {r : Rule} (h : ¬r.Faulty props) (hseverity : r.severity = .reject) :
    ∃ reason, r.reason = some reason := by
  rw [Faulty, not_or, hasAction, hseverity, Bool.not_eq_false] at h
  exact Option.isSome_iff_exists.1 h.1

theorem transformFault?_eq_none {r : Rule} (h : ¬r.Faulty props)
    (hseverity : r.severity = .transform) :
    (Matcher.ofRule props r).transformFault? = none := by
  have hfault := Matcher.fault?_ofRule.2 h
  rw [Faulty, not_or, hasAction, hseverity, Bool.not_eq_false] at h
  obtain ⟨replacement, hreplacement⟩ := Option.isSome_iff_exists.1 h.1
  rw [Matcher.fault?] at hfault
  split at hfault
  · next hregex => rw [Matcher.transformFault?, hregex, Matcher.ofRule_rule, hreplacement]
  · cases hfault

end Rule

namespace Library

section

variable {rules : List Rule} (husable : Rule.AllUsable props rules) {text : List Char}

include husable

theorem stage_usable (severity : Severity) :
    ∀ m ∈ stage props severity (sortRules rules), m.fault? = none := by
  intro m hm
  obtain ⟨r, hr, -, rfl⟩ := mem_stage.1 hm
  exact Matcher.fault?_ofRule.2 (husable r hr)

/-- The first rule that finds something has its way. -/
theorem withhold_of_someFinds {severity : Severity} {verdict? : Rule → Option (Verdict String)}
    (hverdict : ∀ r ∈ rules, r.severity = severity → ∃ v, verdict? r = some v)
    (h : Rule.SomeFinds props rules severity text) :
    ∃ r v, r.Leads props rules severity text ∧ verdict? r = some v ∧
      withhold verdict? text (stage props severity (sortRules rules)) = .ok (some v) := by
  obtain ⟨m, hfind⟩ := exists_find? husable h
  have hleads := leads_of_find? husable hfind
  obtain ⟨v, hv⟩ := hverdict m.rule hleads.mem hleads.severity_eq
  exact ⟨m.rule, v, hleads, hv, withhold_of_find? (stage_usable husable severity) hfind hv⟩

theorem withhold_of_not_someFinds {severity : Severity}
    {verdict? : Rule → Option (Verdict String)} (h : ¬Rule.SomeFinds props rules severity text) :
    withhold verdict? text (stage props severity (sortRules rules)) = .ok none :=
  withhold_of_silent (stage_usable husable severity) (silent_of_not_someFinds husable h)

theorem rework_stage (text : List Char) :
    rework text (stage props .transform (sortRules rules)) =
      .ok (reworked (stage props .transform (sortRules rules)) text) := by
  refine rework_of_usable fun m hm => ?_
  obtain ⟨r, hr, hseverity, rfl⟩ := mem_stage.1 hm
  exact Rule.transformFault?_eq_none (husable r hr) hseverity

end

/-! ### All stages -/

/-- What the verdict on a text is, by the rules, the time allowed and the times that the clock shows
at the start and after each of three stages. -/
structure Decided (props : Regex.Properties) (rules : List Rule) (text : List Char) (budget : Nat)
    (times : Nat → Nat) (v : Verdict String) : Prop where
  faulty : ¬Rule.AllUsable props rules → v = .rejected .internalFault
  blocked : Rule.AllUsable props rules → Rule.SomeFinds props rules .block text →
    ∃ (r : Rule) (violation : Violation), r.Leads props rules .block text ∧
      r.violation = some violation ∧ v = .blocked violation s!"{r.description} (rule {r.id})"
  lateUnblocked : Rule.AllUsable props rules → ¬Rule.SomeFinds props rules .block text →
    budget < times 1 - times 0 → v = .rejected .processingTimeout
  rejected : Rule.AllUsable props rules → ¬Rule.SomeFinds props rules .block text →
    times 1 - times 0 ≤ budget → Rule.SomeFinds props rules .reject text →
    ∃ (r : Rule) (reason : Reason), r.Leads props rules .reject text ∧ r.reason = some reason ∧
      v = .rejected reason
  lateUnrejected : Rule.AllUsable props rules → ¬Rule.SomeFinds props rules .block text →
    times 1 - times 0 ≤ budget → ¬Rule.SomeFinds props rules .reject text →
    budget < times 2 - times 0 ∨ budget < times 3 - times 0 → v = .rejected .processingTimeout
  accepted : (∃ content changes, v = .accepted content changes) ↔
    Rule.AllUsable props rules ∧ ¬Rule.SomeFinds props rules .block text ∧
      ¬Rule.SomeFinds props rules .reject text ∧ times 1 - times 0 ≤ budget ∧
      times 2 - times 0 ≤ budget ∧ times 3 - times 0 ≤ budget

section

variable {semver : String} {rules : List Rule} {l : Library}
  (hl : ofRules props semver rules = .ok l) {text : List Char} (start budget : Nat) (c : Clock)

include hl

theorem stages_of_faulty (h : ¬Rule.AllUsable props rules) :
    ∃ rule fault, (l.stages text start budget c).1 = .error (.malformed rule fault) := by
  have hne : l.faults ≠ [] := fun hnil => h ((faults_eq_nil_iff hl).1 hnil)
  obtain ⟨⟨rule, fault⟩, faults, hfaults⟩ := List.exists_cons_of_ne_nil hne
  refine ⟨rule, fault, ?_⟩
  rw [stages, hfaults]
  rfl

section

variable (husable : Rule.AllUsable props rules)

include husable

theorem head?_faults : l.faults.head? = none := by
  rw [(faults_eq_nil_iff hl).2 husable]
  rfl

theorem stages_of_blocked (h : Rule.SomeFinds props rules .block text) :
    ∃ (r : Rule) (violation : Violation), r.Leads props rules .block text ∧
      r.violation = some violation ∧
      (l.stages text start budget c).1 =
        .ok (.blocked violation s!"{r.description} (rule {r.id})") := by
  obtain ⟨-, hblocking, -, -⟩ := ofRules_eq_ok hl
  have hverdict (r : Rule) (hr : r ∈ rules) (hseverity : r.severity = .block) :
      ∃ v, r.blocked? = some v := by
    obtain ⟨violation, hviolation⟩ := Rule.exists_violation (husable r hr) hseverity
    exact ⟨_, congrArg (Option.map _) hviolation⟩
  obtain ⟨r, v, hleads, hv, hwithhold⟩ := withhold_of_someFinds husable hverdict h
  obtain ⟨violation, hviolation, rfl⟩ := Option.map_eq_some_iff.1 hv
  refine ⟨r, violation, hleads, hviolation, ?_⟩
  rw [stages, head?_faults hl husable, hblocking, hwithhold]

section

variable (hblock : ¬Rule.SomeFinds props rules .block text)

include hblock

/-- Past the rules for blocking, the time decides and then the rules for rejecting. -/
theorem stages_of_unblocked :
    l.stages text start budget c =
      if budget < c.reading 0 - start then (.error .late, c.read.2)
      else match withhold Rule.rejected? text l.rejecting with
        | .error fault => (.error fault, c.read.2)
        | .ok (some v) => (.ok v, c.read.2)
        | .ok none =>
          if budget < c.reading 1 - start then (.error .late, c.read.2.read.2)
          else if budget < c.reading 2 - start then (.error .late, c.read.2.read.2.read.2)
          else (.ok (reworked l.transforming text), c.read.2.read.2.read.2) := by
  obtain ⟨-, hblocking, -, htransforming⟩ := ofRules_eq_ok hl
  rw [stages, head?_faults hl husable, hblocking, withhold_of_not_someFinds husable hblock,
    htransforming, rework_stage husable]
  simp only [overBudget_eq, decide_eq_true_eq]
  rfl

theorem stages_of_rejected (htime : c.reading 0 - start ≤ budget)
    (h : Rule.SomeFinds props rules .reject text) :
    ∃ (r : Rule) (reason : Reason), r.Leads props rules .reject text ∧ r.reason = some reason ∧
      (l.stages text start budget c).1 = .ok (.rejected reason) := by
  obtain ⟨-, -, hrejecting, -⟩ := ofRules_eq_ok hl
  have hverdict (r : Rule) (hr : r ∈ rules) (hseverity : r.severity = .reject) :
      ∃ v, r.rejected? = some v := by
    obtain ⟨reason, hreason⟩ := Rule.exists_reason (husable r hr) hseverity
    exact ⟨_, congrArg (Option.map _) hreason⟩
  obtain ⟨r, v, hleads, hv, hwithhold⟩ := withhold_of_someFinds husable hverdict h
  obtain ⟨reason, hreason, rfl⟩ := Option.map_eq_some_iff.1 hv
  refine ⟨r, reason, hleads, hreason, ?_⟩
  rw [stages_of_unblocked hl start budget c husable hblock, if_neg (by omega), hrejecting,
    hwithhold]

/-- A text that no rule withholds is let pass, unless the time is spent after one of the stages. -/
theorem stages_of_unrejected (h : ¬Rule.SomeFinds props rules .reject text) :
    (l.stages text start budget c).1 =
      if c.reading 0 - start ≤ budget ∧ c.reading 1 - start ≤ budget ∧ c.reading 2 - start ≤ budget
      then .ok (reworked l.transforming text) else .error .late := by
  obtain ⟨-, -, hrejecting, -⟩ := ofRules_eq_ok hl
  rw [stages_of_unblocked hl start budget c husable hblock, hrejecting,
    withhold_of_not_someFinds husable h]
  split
  · next hlate => rw [if_neg (by omega)]
  · next hfirst =>
    simp only
    split
    · next hlate => rw [if_neg (by omega)]
    · next hsecond =>
      split
      · next hlate => rw [if_neg (by omega)]
      · next hthird => rw [if_pos (by omega)]

end

/-- Once the rules are known to be usable, no stage finds one that is not. -/
theorem stages_ne_malformed (rule : String) (fault : RuleFault) :
    (l.stages text start budget c).1 ≠ .error (.malformed rule fault) := by
  intro h
  by_cases hblock : Rule.SomeFinds props rules .block text
  · obtain ⟨_, _, -, -, hstages⟩ := stages_of_blocked hl start budget c husable hblock
    rw [h] at hstages
    cases hstages
  · by_cases htime : c.reading 0 - start ≤ budget
    · by_cases hreject : Rule.SomeFinds props rules .reject text
      · obtain ⟨_, _, -, -, hstages⟩ :=
          stages_of_rejected hl start budget c husable hblock htime hreject
        rw [h] at hstages
        cases hstages
      · rw [stages_of_unrejected hl start budget c husable hblock hreject] at h
        split at h <;> cases h
    · rw [stages_of_unblocked hl start budget c husable hblock, if_pos (by omega)] at h
      cases h

end

end

/-! ### The verdict -/

section

variable {l : Library} {text : List Char} {start budget : Nat} {c : Clock}

theorem judge_of_ok {v : Verdict String} (h : (l.stages text start budget c).1 = .ok v) :
    (l.judge text start budget c).1 = v := by
  rw [judge]
  split
  · next hstages =>
    rw [hstages] at h
    exact Except.ok.inj h
  · next hstages =>
    rw [hstages] at h
    cases h

theorem judge_of_error {fault : StageFault}
    (h : (l.stages text start budget c).1 = .error fault) :
    (l.judge text start budget c).1 = .rejected fault.reason := by
  rw [judge]
  split
  · next hstages =>
    rw [hstages] at h
    cases h
  · next hstages =>
    rw [hstages] at h
    cases h
    rfl

/-- Less time does not change what the stages come to, save that it may run out. -/
theorem stages_of_budget (l : Library) (text : List Char) (start less : Nat)
    (h : c.reading 2 - start ≤ budget) :
    l.stages text start less c = l.stages text start budget c ∨
      (l.stages text start less c).1 = .error .late := by
  obtain ⟨outcome, -, n, hn, hstages⟩ := l.exists_stages_eq text
  rw [hstages, hstages]
  refine timed_of_budget outcome start less fun m hm => ?_
  have hlast : c.reading m ≤ c.reading 2 := c.monotone_reading (by omega)
  omega

theorem judge_of_budget (l : Library) (text : List Char) (start less : Nat)
    (h : c.reading 2 - start ≤ budget) :
    l.judge text start less c = l.judge text start budget c ∨
      (l.judge text start less c).1 = .rejected .processingTimeout := by
  rcases stages_of_budget l text start less h with h | h
  · left
    rw [judge, judge, h]
  · exact .inr (judge_of_error h)

end

section

variable {semver : String} {rules : List Rule} {l : Library}
  (hl : ofRules props semver rules = .ok l) (text : List Char) (budget : Nat) (c : Clock)

include hl

theorem judge_of_faulty (h : ¬Rule.AllUsable props rules) :
    (l.judge text (c.reading 0) budget c.read.2).1 = .rejected .internalFault := by
  obtain ⟨rule, fault, hstages⟩ := stages_of_faulty hl (c.reading 0) budget c.read.2 h
  exact judge_of_error hstages

variable (husable : Rule.AllUsable props rules)

include husable

theorem judge_of_blocked (h : Rule.SomeFinds props rules .block text) :
    ∃ (r : Rule) (violation : Violation), r.Leads props rules .block text ∧
      r.violation = some violation ∧ (l.judge text (c.reading 0) budget c.read.2).1 =
        .blocked violation s!"{r.description} (rule {r.id})" := by
  obtain ⟨r, violation, hleads, hviolation, hstages⟩ :=
    stages_of_blocked hl (c.reading 0) budget c.read.2 husable h
  exact ⟨r, violation, hleads, hviolation, judge_of_ok hstages⟩

variable (hblock : ¬Rule.SomeFinds props rules .block text)

include hblock

theorem judge_of_lateUnblocked (h : budget < c.reading 1 - c.reading 0) :
    (l.judge text (c.reading 0) budget c.read.2).1 = .rejected .processingTimeout := by
  have hstages : (l.stages text (c.reading 0) budget c.read.2).1 = .error .late := by
    rw [stages_of_unblocked hl (c.reading 0) budget c.read.2 husable hblock]
    exact congrArg Prod.fst (if_pos h)
  exact judge_of_error hstages

theorem judge_of_rejected (htime : c.reading 1 - c.reading 0 ≤ budget)
    (h : Rule.SomeFinds props rules .reject text) :
    ∃ (r : Rule) (reason : Reason), r.Leads props rules .reject text ∧ r.reason = some reason ∧
      (l.judge text (c.reading 0) budget c.read.2).1 = .rejected reason := by
  obtain ⟨r, reason, hleads, hreason, hstages⟩ :=
    stages_of_rejected hl (c.reading 0) budget c.read.2 husable hblock htime h
  exact ⟨r, reason, hleads, hreason, judge_of_ok hstages⟩

theorem judge_of_unrejected (h : ¬Rule.SomeFinds props rules .reject text) :
    (l.judge text (c.reading 0) budget c.read.2).1 =
      if c.reading 1 - c.reading 0 ≤ budget ∧ c.reading 2 - c.reading 0 ≤ budget ∧
        c.reading 3 - c.reading 0 ≤ budget
      then reworked l.transforming text else .rejected .processingTimeout := by
  have hstages := stages_of_unrejected hl (c.reading 0) budget c.read.2 husable hblock h
  split
  · next hspent => exact judge_of_ok (hstages.trans (if_pos hspent))
  · next hspent => exact judge_of_error (hstages.trans (if_neg hspent))

end

theorem decided_judge {semver : String} {rules : List Rule} {l : Library}
    (hl : ofRules props semver rules = .ok l) (text : List Char) (budget : Nat) (c : Clock) :
    Decided props rules text budget c.reading (l.judge text (c.reading 0) budget c.read.2).1 where
  faulty := judge_of_faulty hl text budget c
  blocked := judge_of_blocked hl text budget c
  lateUnblocked := judge_of_lateUnblocked hl text budget c
  rejected := judge_of_rejected hl text budget c
  lateUnrejected := by
    intro husable hblock htime hreject hspent
    rw [judge_of_unrejected hl text budget c husable hblock hreject]
    refine if_neg ?_
    rintro ⟨-, hsecond, hthird⟩
    exact hspent.elim (Nat.not_lt.2 hsecond) (Nat.not_lt.2 hthird)
  accepted := by
    constructor
    · rintro ⟨content, changes, haccepted⟩
      -- whatever else the rules and the clock may say leads to another verdict
      have husable : Rule.AllUsable props rules := by
        by_contra h
        rw [judge_of_faulty hl text budget c h] at haccepted
        cases haccepted
      have hblock : ¬Rule.SomeFinds props rules .block text := by
        intro h
        obtain ⟨_, _, -, -, hv⟩ := judge_of_blocked hl text budget c husable h
        rw [hv] at haccepted
        cases haccepted
      have htime : c.reading 1 - c.reading 0 ≤ budget := by
        by_contra h
        rw [judge_of_lateUnblocked hl text budget c husable hblock (Nat.not_le.1 h)] at haccepted
        cases haccepted
      have hreject : ¬Rule.SomeFinds props rules .reject text := by
        intro h
        obtain ⟨_, _, -, -, hv⟩ := judge_of_rejected hl text budget c husable hblock htime h
        rw [hv] at haccepted
        cases haccepted
      rw [judge_of_unrejected hl text budget c husable hblock hreject] at haccepted
      split at haccepted
      · next hspent => exact ⟨husable, hblock, hreject, hspent⟩
      · cases haccepted
    · rintro ⟨husable, hblock, hreject, hspent⟩
      rw [judge_of_unrejected hl text budget c husable hblock hreject, if_pos hspent]
      exact ⟨_, _, rfl⟩

end Library

namespace Filter

/-- The verdict is decided by faults, by the rules in their order and by the clock, in this order.
More time changes nothing, save for texts that took too long, and a rule that cannot be used is
noticed at once or not at all. -/
theorem decided_by_stages {semver : String} {rules : List Rule} {l : Library}
    (hl : Library.ofRules props semver rules = .ok l) (f : Filter) (c : Clock) (text : String) :
    Library.Decided props rules text.toList f.budget c.reading
        (f.evaluate (some l) c text).1.verdict ∧
      (∀ budget, c.reading 3 - c.reading 0 ≤ budget →
        f.evaluate (some l) c text = { f with budget }.evaluate (some l) c text ∨
          (f.evaluate (some l) c text).1.verdict = .rejected .processingTimeout) ∧
      (l.faults = [] → ∀ start c' rule fault,
        (l.stages text.toList start f.budget c').1 ≠ .error (.malformed rule fault)) := by
  refine ⟨Library.decided_judge hl text.toList f.budget c, fun budget hbudget => ?_, ?_⟩
  · have hjudge : l.judge text.toList c.read.1 f.budget c.read.2 =
          l.judge text.toList c.read.1 budget c.read.2 ∨
        (l.judge text.toList c.read.1 f.budget c.read.2).1 = .rejected .processingTimeout :=
      Library.judge_of_budget l text.toList c.read.1 f.budget hbudget
    refine hjudge.imp_left fun h => ?_
    simp only [evaluate, h]
  · intro hfaults start c' rule fault
    have husable := (Library.faults_eq_nil_iff hl).1 hfaults
    exact Library.stages_ne_malformed hl start f.budget c' husable rule fault

/-- By a table of capital letters, a rule may block texts that have one. -/
example :
    let capitals : Regex.Properties := fun name =>
      if name = "Lu" then some (.range 'A' 'Z') else none
    let rules := [Rule.block "cap-001" .intimidation "\\p\x7bLu\x7d" .harassment "Shouting"]
    (Library.ofRules capitals Library.builtinVersion rules).toOption.map (fun l =>
      ["ABC", "123"].map fun text =>
        (standard.evaluate (some l) (.start .epoch 0) text).1.verdict.decision) =
      some [.blocked, .accepted] := by
  decide +kernel

/-- The verdict of the two rules against ultimatums and urgency, each stage taking 90 units. -/
def hurried (budget : Nat) (text : String) : Option (Verdict String) := do
  let l ← (Library.ofRules .basic Library.builtinVersion Library.ultimatumRules).toOption
  return ({ standard with budget }.evaluate (some l) (.showing .epoch (90 * ·)) text).1.verdict

theorem exists_of_hurried {budget : Nat} {text : String} {v : Verdict String}
    (h : hurried budget text = some v) :
    ∃ l, Library.ofRules .basic Library.builtinVersion Library.ultimatumRules = .ok l ∧
      ({ standard with budget }.evaluate (some l) (.showing .epoch (90 * ·)) text).1.verdict =
        v := by
  rw [hurried] at h
  cases hl : Library.ofRules .basic Library.builtinVersion Library.ultimatumRules with
  | error e =>
      rw [hl] at h
      cases h
  | ok l =>
      rw [hl] at h
      exact ⟨l, rfl, Option.some.inj h⟩

/-- A text that is clean takes too long in the last stage. -/
theorem decided_by_stages_of_hurry :
    ∃ l, Library.ofRules .basic Library.builtinVersion Library.ultimatumRules = .ok l ∧
      (Clock.showing .epoch (90 * ·)).reading = (90 * ·) ∧
      Library.Decided .basic Library.ultimatumRules "URGENT please review".toList 200
        (Clock.showing .epoch (90 * ·)).reading (.rejected .processingTimeout) ∧
      (standard.evaluate (some l) (.showing .epoch (90 * ·)) "URGENT please review").1.verdict =
        .rejected .processingTimeout ∧
      ∃ content changes, ({ standard with budget := 270 }.evaluate (some l)
        (.showing .epoch (90 * ·)) "URGENT please review").1.verdict =
          .accepted content changes := by
  have hmono : Monotone (90 * · : Nat → Nat) := fun _ _ h => Nat.mul_le_mul_left 90 h
  have hslow : hurried 200 "URGENT please review" = some (.rejected .processingTimeout) := by
    decide +kernel
  have hfast : (hurried 270 "URGENT please review").map Verdict.decision = some .accepted := by
    decide +kernel
  obtain ⟨l, hl, hverdict⟩ := exists_of_hurried hslow
  obtain ⟨v, hv, haccepted⟩ := Option.map_eq_some_iff.1 hfast
  obtain ⟨l', hl', hverdict'⟩ := exists_of_hurried hv
  rw [hl] at hl'
  obtain rfl := Except.ok.inj hl'
  have hdecided := (decided_by_stages hl standard (.showing .epoch (90 * ·))
    "URGENT please review").1
  refine ⟨l, hl, Clock.reading_showing .epoch hmono, hverdict ▸ hdecided, hverdict, ?_⟩
  rw [hverdict']
  cases v with
  | accepted content changes => exact ⟨content, changes, rfl⟩
  | rejected reason => cases haccepted
  | blocked violation details => cases haccepted

end Filter

end Curia
