import Curia.Proofs.Filter.Auditing
import Curia.Proofs.Filter.Stages
import Curia.Proofs.Filter.Transforming
import Curia.Proofs.Regex.Completeness

/-!
How clean the content is that the filter lets pass. The rules that withhold a text are tried on what
has been submitted, before the other rules change it. What they would have found in the content is
therefore nothing that was submitted as such: it has been put together by the changes.
-/

namespace Curia

variable {props : Regex.Properties}

/-! ### What a rule finds -/

/-- A phrase in a text, with the texts before and after it. -/
structure Phrase where
  before : List Char
  piece : List Char
  after : List Char

namespace Phrase

def whole (p : Phrase) : List Char := p.before ++ p.piece ++ p.after

/-- A text has the phrase too, between the same two characters or at the same end. -/
def StandsIn (p : Phrase) (text : List Char) : Prop :=
  ∃ before after, text = before ++ p.piece ++ after ∧
    before.getLast? = p.before.getLast? ∧ after.head? = p.after.head?

end Phrase

namespace Matcher

/-- The expression of the rule matches the phrase where it stands. -/
def Hits (m : Matcher) (p : Phrase) : Prop :=
  ∃ regex, m.regex = .ok regex ∧
    Regex.Matches [regex] p.before.getLast? p.piece p.after.head?

theorem labels_nodup {rule : Rule} {regex : Regex} (h : (ofRule props rule).regex = .ok regex) :
    regex.labels.Nodup := by
  simp only [ofRule] at h
  split at h
  · cases h
  · split at h
    · next read hread =>
      cases h
      rw [Regex.ofText] at hread
      cases hparsed : Regex.Pattern.ofText props (!rule.caseSensitive) rule.pattern with
      | error e =>
          rw [hparsed] at hread
          cases hread
      | ok pattern =>
          rw [hparsed] at hread
          cases hread
          exact pattern.labels_toRegex_nodup
    · cases h

/-- A rule finds something in a text just if it hits a phrase of the text. -/
theorem finds_iff (rule : Rule) (text : List Char) :
    (ofRule props rule).finds text = true ↔
      ∃ p : Phrase, p.whole = text ∧ (ofRule props rule).Hits p := by
  rw [finds]
  split
  · next regex hregex =>
    rw [Regex.isMatch_iff (labels_nodup hregex)]
    constructor
    · rintro ⟨pre, piece, post, rfl, hmatches⟩
      exact ⟨⟨pre, piece, post⟩, rfl, regex, hregex, hmatches⟩
    · rintro ⟨⟨pre, piece, post⟩, rfl, regex', hregex', hmatches⟩
      rw [hregex] at hregex'
      cases hregex'
      exact ⟨pre, piece, post, rfl, hmatches⟩
  · next e he =>
    constructor
    · intro h
      cases h
    · rintro ⟨p, -, regex, hregex, -⟩
      rw [he] at hregex
      cases hregex

/-- What is hit in one text is found in every other one in which it stands. -/
theorem finds_of_standsIn {rule : Rule} {p : Phrase} (h : (ofRule props rule).Hits p)
    {text : List Char} (hstands : p.StandsIn text) : (ofRule props rule).finds text = true := by
  obtain ⟨regex, hregex, hmatches⟩ := h
  obtain ⟨before, after, htext, hbefore, hafter⟩ := hstands
  rw [← hbefore, ← hafter] at hmatches
  exact (finds_iff rule text).2 ⟨⟨before, p.piece, after⟩, htext.symm, regex, hregex, hmatches⟩

end Matcher

/-! ### What passes the stages -/

namespace Library

/-- The rules that keep a text from being released. -/
def withholding (l : Library) : List Matcher := l.blocking ++ l.rejecting

theorem exists_rule_of_mem_stage {severity : Severity} {rules : List Rule} {m : Matcher}
    (h : m ∈ stage props severity rules) : ∃ rule, m = .ofRule props rule := by
  obtain ⟨rule, -, rfl⟩ := List.mem_map.1 h
  exact ⟨rule, rfl⟩

theorem exists_rule_of_mem_withholding {semver : String} {rules : List Rule} {l : Library}
    (hl : ofRules props semver rules = .ok l) {m : Matcher} (hm : m ∈ l.withholding) :
    ∃ rule, m = .ofRule props rule := by
  rw [ofRules] at hl
  split at hl
  · cases hl
  · split at hl
    · cases hl
    · cases hl
      rcases List.mem_append.1 hm with hm | hm
      · exact exists_rule_of_mem_stage hm
      · exact exists_rule_of_mem_stage hm

theorem judge_accepted {l : Library} {text : List Char} {start budget : Nat} {c : Clock}
    {content : String} {changes : List Change}
    (h : (l.judge text start budget c).1 = .accepted content changes) :
    (∀ m ∈ l.withholding, m.finds text = false) ∧
      content = String.ofList (transform l.transforming text).1 ∧
      changes = (transform l.transforming text).2 := by
  rw [judge] at h
  split at h
  · next v _ hstages =>
    obtain rfl : v = .accepted content changes := h
    obtain ⟨hblocking, hrejecting, hrework⟩ := stages_accepted (congrArg Prod.fst hstages)
    obtain ⟨rfl, rfl⟩ := Verdict.accepted.inj (eq_reworked_of_rework hrework)
    refine ⟨fun m hm => ?_, rfl, rfl⟩
    rcases List.mem_append.1 hm with hm | hm
    · exact finds_of_withhold_none hblocking m hm
    · exact finds_of_withhold_none hrejecting m hm
  · cases h

/-- What is known of a text that is let pass and of the content that has been made of it. -/
structure Clears (l : Library) (text content : List Char) (changes : List Change) : Prop where
  /-- No rule for blocking or rejecting finds anything in what has been submitted. -/
  submitted : ∀ m ∈ l.withholding, m.finds text = false
  /-- The content is the text with characters left out and spaces and replacements written. -/
  reworked : Reworked (fun c => c = ' ' ∨ Replaced changes c) text content
  unchanged : changes = [] → content = text
  /-- What such a rule finds in the content is a phrase that it hits. -/
  found : ∀ m ∈ l.withholding,
    (m.finds content = true ↔ ∃ p : Phrase, p.whole = content ∧ m.Hits p)
  /-- A phrase of the content that such a rule hits was not there before the changes. -/
  assembled : ∀ m ∈ l.withholding, ∀ p : Phrase, p.whole = content → m.Hits p → ¬p.StandsIn text

theorem clears_of_judge {semver : String} {rules : List Rule} {l : Library}
    (hl : ofRules props semver rules = .ok l) {text : List Char} {start budget : Nat} {c : Clock}
    {content : String} {changes : List Change}
    (h : (l.judge text start budget c).1 = .accepted content changes) :
    l.Clears text content.toList changes := by
  obtain ⟨hsubmitted, rfl, rfl⟩ := judge_accepted h
  rw [String.toList_ofList]
  refine ⟨hsubmitted, transform_reworked _ _, transform_of_unchanged, ?_, ?_⟩
  · intro m hm
    obtain ⟨rule, rfl⟩ := exists_rule_of_mem_withholding hl hm
    exact Matcher.finds_iff rule _
  · intro m hm p _ hhits hstands
    obtain ⟨rule, rfl⟩ := exists_rule_of_mem_withholding hl hm
    have hfound := Matcher.finds_of_standsIn hhits hstands
    rw [hsubmitted _ hm] at hfound
    cases hfound

end Library

namespace Filter

theorem evaluate_accepted {f : Filter} {l : Library} {c : Clock} {text content : String}
    {changes : List Change}
    (h : (f.evaluate (some l) c text).1.verdict = .accepted content changes) :
    (l.judge text.toList c.read.1 f.budget c.read.2).1 = .accepted content changes := h

end Filter

/-! ### A library of two rules -/

/-- The built-in rules against ultimatums and against marks of urgency. -/
def Library.ultimatumRules : List Rule :=
  [.block "blk-001" .threat "\\bor else\\b" .explicitThreat "Ultimatum with implied consequence",
   .transform "xfm-001" .urgency "\\bURGENT\\b" "" "Urgency marker"]

/-- A clock whose second hand stands still. -/
def Clock.sample : Clock := .start .epoch 0

namespace Filter

def standard : Filter := new standardVersion standardBudget

/-- A new filter commits whatever result it comes to. -/
theorem run_standard (library : Option Library) (c : Clock) (text : String) (kind : MessageKind)
    (submitter : String) (id : DecisionId) :
    (standard.run library c .empty text kind submitter id).1 =
      .ok (release text (standard.evaluate library c text).1) := rfl

/-- The content that a new filter makes of a text under these rules, and whether it is something
that they would withhold. -/
def trial (text : String) : Option (String × Bool) := do
  let l ← (Library.ofRules .basic Library.builtinVersion Library.ultimatumRules).toOption
  let content ← (standard.preview (some l) .sample text).1.verdict.content?
  return (content, l.withholding.any (·.finds content.toList))

theorem exists_of_trial {text content : String} {unclean : Bool}
    (h : trial text = some (content, unclean)) :
    ∃ l changes, Library.ofRules .basic Library.builtinVersion Library.ultimatumRules = .ok l ∧
      (standard.preview (some l) .sample text).1.verdict = .accepted content changes ∧
      l.withholding.any (·.finds content.toList) = unclean := by
  rw [trial] at h
  cases hl : Library.ofRules .basic Library.builtinVersion Library.ultimatumRules with
  | error e =>
      rw [hl] at h
      cases h
  | ok l =>
      rw [hl] at h
      simp only [Except.toOption, Option.bind_eq_bind, Option.bind_some, Option.pure_def] at h
      cases hverdict : (standard.preview (some l) .sample text).1.verdict with
      | accepted content' changes =>
          rw [hverdict] at h
          obtain ⟨rfl, hunclean⟩ := Prod.mk.inj (Option.some.inj h)
          exact ⟨l, changes, rfl, hverdict, hunclean⟩
      | rejected reason =>
          rw [hverdict] at h
          cases h
      | blocked violation details =>
          rw [hverdict] at h
          cases h

/-! ### What is released -/

/-- Whatever is accepted, by a dry run or for delivery, has been clean as it was submitted, and where
the content is not clean the changes have made it so. -/
theorem accepted_clears {semver : String} {rules : List Rule} {l : Library}
    (hl : Library.ofRules props semver rules = .ok l) (f : Filter) (c : Clock) (text : String) :
    (∀ content changes, (f.preview (some l) c text).1.verdict = .accepted content changes →
      l.Clears text.toList content.toList changes) ∧
    ∀ led kind submitter id r, (f.run (some l) c led text kind submitter id).1 = .ok r →
      ∀ released changes, r.verdict = .accepted released changes →
        l.Clears text.toList released.text.toList changes := by
  constructor
  · intro content changes h
    exact Library.clears_of_judge hl (evaluate_accepted h)
  · intro led kind submitter id r hrun released changes h
    obtain ⟨rfl, -, -⟩ := run_eq_ok hrun
    exact Library.clears_of_judge hl (evaluate_accepted (accepted_of_release h))

theorem accepted_clears_of_urgent :
    ∃ l changes, Library.ofRules .basic Library.builtinVersion Library.ultimatumRules = .ok l ∧
      (standard.preview (some l) .sample "URGENT please review").1.verdict =
        .accepted "please review" changes ∧
      l.Clears "URGENT please review".toList "please review".toList changes ∧
      ∃ r released, (standard.run (some l) .sample .empty "URGENT please review" .correspondence
          "a" ⟨.ofNat 1⟩).1 = .ok r ∧
        r.verdict = .accepted released changes ∧ released.text = "please review" ∧
        l.Clears "URGENT please review".toList released.text.toList changes := by
  have htrial : trial "URGENT please review" = some ("please review", false) := by
    decide +kernel
  obtain ⟨l, changes, hl, hverdict, -⟩ := exists_of_trial htrial
  have hcleared := accepted_clears hl standard .sample "URGENT please review"
  have hrun := run_standard (some l) .sample "URGENT please review" .correspondence "a" ⟨.ofNat 1⟩
  have hreleased := release_accepted "URGENT please review" hverdict
  refine ⟨l, changes, hl, hverdict, hcleared.1 _ _ hverdict, _, _, hrun, hreleased, rfl, ?_⟩
  exact hcleared.2 _ _ _ _ _ hrun _ _ hreleased

/-- Where a mark of urgency stands within an ultimatum, the ultimatum is what is released. -/
theorem ultimatum_released :
    ∃ l, Library.ofRules .basic Library.builtinVersion Library.ultimatumRules = .ok l ∧
      (∃ changes, (standard.preview (some l) .sample "or URGENT else").1.verdict =
        .accepted "or else" changes) ∧
      (∃ r released changes, (standard.run (some l) .sample .empty "or URGENT else"
          .correspondence "a" ⟨.ofNat 1⟩).1 = .ok r ∧
        r.verdict = .accepted released changes ∧ released.text = "or else") ∧
      ∃ m ∈ l.withholding, m.finds "or else".toList = true := by
  have htrial : trial "or URGENT else" = some ("or else", true) := by
    decide +kernel
  obtain ⟨l, changes, hl, hverdict, hunclean⟩ := exists_of_trial htrial
  refine ⟨l, hl, ⟨changes, hverdict⟩, ?_, List.any_eq_true.1 hunclean⟩
  exact ⟨_, _, changes, run_standard _ _ _ _ _ _, release_accepted _ hverdict, rfl⟩

end Filter

end Curia
