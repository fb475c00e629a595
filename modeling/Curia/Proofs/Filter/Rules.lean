import Mathlib.Data.List.Sort
import Curia.Filter.Library
import Curia.Proofs.Regex.Reading

/-!
How a library keeps its rules: each in the stage of its severity, and within a stage in the order of
categories and names. Which rules are at fault does not depend on the library that they are in, only
on the properties that are known.
-/

namespace Curia

theorem Category.eq_of_rank_eq {a b : Category} (h : a.rank = b.rank) : a = b := by
  cases a <;> cases b <;> first | rfl | cases h

namespace Rule

section

variable (props : Regex.Properties)

/-- The rule cannot be used: it does not say what its severity needs to be told, or its pattern
cannot be read. -/
def Faulty (r : Rule) : Prop :=
  r.hasAction = false ∨ ∃ e, Regex.ofText props (!r.caseSensitive) r.pattern = .error e

/-- The pattern of the rule is found in the text. -/
def Finds (r : Rule) (text : List Char) : Prop :=
  ∃ regex, Regex.ofText props (!r.caseSensitive) r.pattern = .ok regex ∧ regex.isMatch text = true

/-- Every rule can be used. -/
def AllUsable (rules : List Rule) : Prop := ∀ r ∈ rules, ¬r.Faulty props

/-- A rule of a severity finds something in the text. -/
def SomeFinds (rules : List Rule) (severity : Severity) (text : List Char) : Prop :=
  ∃ r ∈ rules, r.severity = severity ∧ r.Finds props text

/-- The rule is no later than the other in the order of categories and, within one category, of
names. -/
def NoLater (r s : Rule) : Prop :=
  r.category.rank < s.category.rank ∨ r.category = s.category ∧ r.id ≤ s.id

/-- Of the rules of a severity that find something in the text this is the first. -/
structure Leads (r : Rule) (rules : List Rule) (severity : Severity) (text : List Char) : Prop where
  mem : r ∈ rules
  severity_eq : r.severity = severity
  finds : r.Finds props text
  noLater : ∀ s ∈ rules, s.severity = severity → s.Finds props text → r.NoLater s

end

/-! ### The order -/

instance : Std.TransCmp Rule.compare :=
  inferInstanceAs (Std.TransCmp (compareLex (compareOn fun r : Rule => r.severity.rank)
    (compareLex (compareOn fun r : Rule => r.category.rank) (compareOn Rule.id))))

/-- The order in which a library tries rules, as a relation. -/
def Tried (r s : Rule) : Prop := (r.compare s).isLE = true

instance : DecidableRel Tried := fun r s => inferInstanceAs (Decidable ((r.compare s).isLE = true))

instance : IsTrans Rule Tried := ⟨fun _ _ _ => Std.TransCmp.isLE_trans⟩

instance : Std.Total Tried where
  total r s := by
    have hswap : s.compare r = (r.compare s).swap := Std.OrientedCmp.eq_swap
    rw [Tried, Tried, hswap]
    cases r.compare s <;> simp

theorem compare_id_isLE {r s : Rule} : (Ord.compare r.id s.id).isLE = true ↔ r.id ≤ s.id := by
  show (compareOfLessAndEq r.id s.id).isLE = true ↔ r.id ≤ s.id
  exact isLE_compareOfLessAndEq String.le_antisymm String.not_le String.le_total

/-- Among rules of one severity those come first that are no later. -/
theorem Tried.noLater {r s : Rule} (h : r.Tried s) (hseverity : r.severity = s.severity) :
    r.NoLater s := by
  rw [Tried, Rule.compare, hseverity] at h
  simp only [Ordering.isLE_then_iff_or, Nat.compare_eq_lt, Nat.compare_eq_eq, Nat.lt_irrefl,
    true_and, false_or] at h
  rcases h with h | ⟨h, hid⟩
  · exact .inl h
  · exact .inr ⟨Category.eq_of_rank_eq h, compare_id_isLE.1 hid⟩

end Rule

/-! ### A rule made ready for use -/

namespace Matcher

variable {props : Regex.Properties}

@[simp] theorem ofRule_rule (r : Rule) : (ofRule props r).rule = r := rfl

theorem ofRule_regex {r : Rule} (h : r.hasAction = true) {regex : Regex}
    (hread : Regex.ofText props (!r.caseSensitive) r.pattern = .ok regex) :
    (ofRule props r).regex = .ok regex := by
  simp [ofRule, h, hread]

theorem fault?_ofRule {r : Rule} : (ofRule props r).fault? = none ↔ ¬r.Faulty props := by
  rw [Rule.Faulty, fault?, ofRule]
  cases hread : Regex.ofText props (!r.caseSensitive) r.pattern with
  | error e => cases r.hasAction <;> simp
  | ok regex => cases r.hasAction <;> simp

/-- A rule that can be used where no property is known is the same wherever it is used. -/
theorem ofRule_of_none {r : Rule} (h : (ofRule .none r).fault? = none) :
    ofRule props r = ofRule .none r := by
  obtain ⟨haction, hread⟩ := not_or.1 (fault?_ofRule.1 h)
  rw [Bool.not_eq_false] at haction
  cases hregex : Regex.ofText .none (!r.caseSensitive) r.pattern with
  | error e => exact absurd ⟨e, hregex⟩ hread
  | ok regex => simp [ofRule, haction, hregex, Regex.ofText_of_none hregex]

theorem finds_ofRule {r : Rule} (h : ¬r.Faulty props) (text : List Char) :
    (ofRule props r).finds text = true ↔ r.Finds props text := by
  rw [Rule.Faulty, not_or, Bool.not_eq_false] at h
  obtain ⟨haction, hread⟩ := h
  cases hregex : Regex.ofText props (!r.caseSensitive) r.pattern with
  | error e => exact absurd ⟨e, hregex⟩ hread
  | ok regex => simp [finds, ofRule_regex haction hregex, Rule.Finds, hregex]

end Matcher

/-! ### The stages of a library -/

namespace Library

variable {props : Regex.Properties} {rules : List Rule}

theorem sortRules_eq (rules : List Rule) : sortRules rules = rules.insertionSort Rule.Tried := by
  have hinsert (r : Rule) (rules : List Rule) :
      insertRule r rules = rules.orderedInsert Rule.Tried r := by
    induction rules with
    | nil => rfl
    | cons s rules ih => rw [insertRule, List.orderedInsert, ih]; rfl
  induction rules with
  | nil => rfl
  | cons r rules ih =>
      show insertRule r (sortRules rules) = _
      rw [hinsert, ih]
      rfl

theorem mem_sortRules {r : Rule} : r ∈ sortRules rules ↔ r ∈ rules := by
  rw [sortRules_eq]
  exact List.mem_insertionSort _

theorem pairwise_sortRules (rules : List Rule) : (sortRules rules).Pairwise Rule.Tried := by
  rw [sortRules_eq]
  exact List.pairwise_insertionSort _ _

theorem mem_stage {severity : Severity} {m : Matcher} :
    m ∈ stage props severity (sortRules rules) ↔
      ∃ r ∈ rules, r.severity = severity ∧ .ofRule props r = m := by
  simp [stage, mem_sortRules, and_assoc]

/-- In the order of a stage every rule is no later than those behind it. -/
theorem pairwise_stage (props : Regex.Properties) (severity : Severity) (rules : List Rule) :
    (stage props severity (sortRules rules)).Pairwise fun m n => m.rule.NoLater n.rule := by
  rw [stage, List.pairwise_map]
  refine ((pairwise_sortRules rules).filter _).imp_of_mem fun {r s} hr hs h => ?_
  have hr := of_decide_eq_true (List.mem_filter.1 hr).2
  have hs := of_decide_eq_true (List.mem_filter.1 hs).2
  exact h.noLater (hr.trans hs.symm)

theorem ofRules_eq_ok {semver : String} {l : Library} (h : ofRules props semver rules = .ok l) :
    (rules.map Rule.id).Nodup ∧ l.blocking = stage props .block (sortRules rules) ∧
      l.rejecting = stage props .reject (sortRules rules) ∧
      l.transforming = stage props .transform (sortRules rules) := by
  rw [ofRules] at h
  split at h
  · cases h
  · split at h
    · cases h
    · next hrepeated =>
      cases h
      exact ⟨firstRepeated?_eq_none_iff.1 hrepeated, rfl, rfl, rfl⟩

variable {semver : String} {l : Library}

theorem mem_matchers (h : ofRules props semver rules = .ok l) {m : Matcher} :
    m ∈ l.matchers ↔ ∃ r ∈ rules, .ofRule props r = m := by
  obtain ⟨-, hblocking, hrejecting, htransforming⟩ := ofRules_eq_ok h
  rw [matchers, hblocking, hrejecting, htransforming, List.mem_append, List.mem_append]
  simp only [mem_stage]
  constructor
  · rintro ((⟨r, hr, -, hm⟩ | ⟨r, hr, -, hm⟩) | ⟨r, hr, -, hm⟩) <;> exact ⟨r, hr, hm⟩
  · rintro ⟨r, hr, hm⟩
    cases hseverity : r.severity with
    | block => exact .inl (.inl ⟨r, hr, hseverity, hm⟩)
    | reject => exact .inl (.inr ⟨r, hr, hseverity, hm⟩)
    | transform => exact .inr ⟨r, hr, hseverity, hm⟩

/-- A library has faults just if one of its rules cannot be used. -/
theorem faults_eq_nil_iff (h : ofRules props semver rules = .ok l) :
    l.faults = [] ↔ Rule.AllUsable props rules := by
  rw [faults, List.filterMap_eq_nil_iff, Rule.AllUsable]
  simp only [Option.map_eq_none_iff, mem_matchers h, forall_exists_index, and_imp,
    forall_apply_eq_imp_iff₂, Matcher.fault?_ofRule]

/-! ### Which rule is found first -/

section

variable (husable : Rule.AllUsable props rules) {severity : Severity} {text : List Char}

include husable

theorem leads_of_find? {m : Matcher}
    (h : ((stage props severity (sortRules rules)).find? fun m => m.finds text) = some m) :
    m.rule.Leads props rules severity text := by
  obtain ⟨hfinds, before, behind, hsplit, hbefore⟩ := List.find?_eq_some_iff_append.1 h
  have hm : m ∈ stage props severity (sortRules rules) := List.mem_of_find?_eq_some h
  obtain ⟨r, hr, hseverity, rfl⟩ := mem_stage.1 hm
  refine ⟨hr, hseverity, (Matcher.finds_ofRule (husable r hr) text).1 hfinds,
    fun s hs hsseverity hsfinds => ?_⟩
  have hsfinds := (Matcher.finds_ofRule (husable s hs) text).2 hsfinds
  have hpairwise := pairwise_stage props severity rules
  have hs : Matcher.ofRule props s ∈ stage props severity (sortRules rules) :=
    mem_stage.2 ⟨s, hs, hsseverity, rfl⟩
  rw [hsplit] at hpairwise hs
  rcases List.mem_append.1 hs with hs | hs
  · -- what is tried before finds nothing
    have hnot := hbefore _ hs
    rw [hsfinds] at hnot
    cases hnot
  · rcases List.mem_cons.1 hs with hs | hs
    · have hrs : s = r := congrArg Matcher.rule hs
      exact hrs ▸ .inr ⟨rfl, String.le_refl _⟩
    · exact (List.pairwise_cons.1 (List.pairwise_append.1 hpairwise).2.1).1 _ hs

theorem exists_find? (h : Rule.SomeFinds props rules severity text) :
    ∃ m, ((stage props severity (sortRules rules)).find? fun m => m.finds text) = some m := by
  obtain ⟨r, hr, hseverity, hfinds⟩ := h
  refine Option.isSome_iff_exists.1 (List.find?_isSome.2 ⟨.ofRule props r, ?_, ?_⟩)
  · exact mem_stage.2 ⟨r, hr, hseverity, rfl⟩
  · exact (Matcher.finds_ofRule (husable r hr) text).2 hfinds

theorem silent_of_not_someFinds (h : ¬Rule.SomeFinds props rules severity text) :
    ∀ m ∈ stage props severity (sortRules rules), m.finds text = false := by
  intro m hm
  obtain ⟨r, hr, hseverity, rfl⟩ := mem_stage.1 hm
  rw [← Bool.not_eq_true, Matcher.finds_ofRule (husable r hr) text]
  exact fun hfinds => h ⟨r, hr, hseverity, hfinds⟩

end

end Library

end Curia
