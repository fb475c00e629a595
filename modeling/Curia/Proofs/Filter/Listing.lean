import Curia.Proofs.Filter.Rules

/-!
A library depends on its rules and not on the order in which they are listed. It holds every rule
once, in the stage of its severity, and from stage to stage the rules stand in the order of
severities, categories and names. This order leaves no choice because no two rules have one name.
-/

namespace Curia

theorem Severity.eq_of_rank_eq {a b : Severity} (h : a.rank = b.rank) : a = b := by
  cases a <;> cases b <;> first | rfl | cases h

namespace Rule

/-- The order of severities, then of categories, then of names. -/
def Before (r s : Rule) : Prop :=
  r.severity.rank < s.severity.rank ∨ r.severity = s.severity ∧
    (r.category.rank < s.category.rank ∨ r.category = s.category ∧ r.id < s.id)

theorem Before.rank_le {r s : Rule} (h : r.Before s) : r.severity.rank ≤ s.severity.rank := by
  rcases h with h | ⟨h, -⟩
  · exact Nat.le_of_lt h
  · exact Nat.le_of_eq (congrArg _ h)

theorem Before.not_before {r s : Rule} (h : r.Before s) : ¬s.Before r := by
  rcases h with h | ⟨hseverity, h⟩
  · exact fun h' => Nat.not_le_of_lt h h'.rank_le
  · rw [Before, hseverity]
    rcases h with h | ⟨hcategory, h⟩
    · rintro (h' | ⟨-, h' | ⟨h', -⟩⟩)
      · exact Nat.lt_irrefl _ h'
      · exact Nat.lt_asymm h h'
      · exact Nat.lt_irrefl _ (h' ▸ h)
    · rw [hcategory]
      rintro (h' | ⟨-, h' | ⟨-, h'⟩⟩)
      · exact Nat.lt_irrefl _ h'
      · exact Nat.lt_irrefl _ h'
      · exact String.lt_asymm h h'

/-- Names that differ decide where severities and categories do not. -/
theorem Tried.before {r s : Rule} (h : r.Tried s) (hne : r.id ≠ s.id) : r.Before s := by
  by_cases hrank : r.severity.rank < s.severity.rank
  · exact .inl hrank
  · have hseverity : r.severity = s.severity := by
      simp only [Tried, Rule.compare, Ordering.isLE_then_iff_or, Nat.compare_eq_lt,
        Nat.compare_eq_eq] at h
      rcases h with h | ⟨h, -⟩
      · exact absurd h hrank
      · exact Severity.eq_of_rank_eq h
    refine .inr ⟨hseverity, (h.noLater hseverity).imp_right fun hlater => ?_⟩
    obtain ⟨hcategory, hle⟩ := hlater
    exact ⟨hcategory, String.not_le.1 fun hge => hne (String.le_antisymm hle hge)⟩

end Rule

namespace Library

variable {rules rules' : List Rule}

theorem sortRules_perm (rules : List Rule) : (sortRules rules).Perm rules := by
  rw [sortRules_eq]
  exact List.perm_insertionSort _ _

theorem pairwise_before (h : (rules.map Rule.id).Nodup) :
    (sortRules rules).Pairwise Rule.Before := by
  have hnodup : ((sortRules rules).map Rule.id).Nodup :=
    ((sortRules_perm rules).map Rule.id).nodup_iff.2 h
  refine ((pairwise_sortRules rules).and (List.pairwise_map.1 hnodup)).imp ?_
  exact fun ⟨htried, hne⟩ => htried.before hne

/-- There is one way to put rules with different names in order. -/
theorem sortRules_eq_of_perm (h : rules.Perm rules') (hnodup : (rules.map Rule.id).Nodup) :
    sortRules rules = sortRules rules' := by
  have hnodup' : (rules'.map Rule.id).Nodup := (h.map Rule.id).nodup_iff.1 hnodup
  refine List.Perm.eq_of_pairwise ?_ (pairwise_before hnodup) (pairwise_before hnodup') ?_
  · exact fun r s _ _ hrs hsr => absurd hsr hrs.not_before
  · exact (sortRules_perm rules).trans (h.trans (sortRules_perm rules').symm)

variable {props : Regex.Properties}

/-- The stages one after another are the rules in their order. -/
theorem stages_append {sorted : List Rule} (h : sorted.Pairwise Rule.Before) :
    stage props .block sorted ++ stage props .reject sorted ++ stage props .transform sorted =
      sorted.map (.ofRule props) := by
  have hnone {severity : Severity} {r : Rule} {rest : List Rule} (hr : ∀ s ∈ rest, r.Before s)
      (hlt : severity.rank < r.severity.rank) : stage props severity rest = [] := by
    refine List.map_eq_nil_iff.2 (List.filter_eq_nil_iff.2 fun s hs heq => ?_)
    have hle := (hr s hs).rank_le
    rw [of_decide_eq_true heq] at hle
    omega
  induction sorted with
  | nil => rfl
  | cons r rest ih =>
      obtain ⟨hr, hrest⟩ := List.pairwise_cons.1 h
      rw [List.map_cons, ← ih hrest]
      -- no stage before that of the first rule has any rule
      cases hseverity : r.severity with
      | block => simp [stage, hseverity]
      | reject =>
          have hblock : stage props .block rest = [] := hnone hr (by rw [hseverity]; decide)
          simp only [stage] at hblock
          simp [stage, hseverity, hblock]
      | transform =>
          have hblock : stage props .block rest = [] := hnone hr (by rw [hseverity]; decide)
          have hreject : stage props .reject rest = [] := hnone hr (by rw [hseverity]; decide)
          simp only [stage] at hblock hreject
          simp [stage, hseverity, hblock, hreject]

/-- The library has the rules of a list, each once: in order over all stages, and each in the stage
of its severity. -/
structure Holds (props : Regex.Properties) (l : Library) (rules : List Rule) : Prop where
  sorted : ∃ sorted : List Rule, sorted.Perm rules ∧ sorted.Pairwise Rule.Before ∧
    l.matchers = sorted.map (.ofRule props)
  blocking : ∀ m ∈ l.blocking, m.rule.severity = .block
  rejecting : ∀ m ∈ l.rejecting, m.rule.severity = .reject
  transforming : ∀ m ∈ l.transforming, m.rule.severity = .transform
  ruleCount : l.version.ruleCount = rules.length

theorem ofRules_of_nodup {semver : String} (hsemver : isBlankText semver = false)
    (hnodup : (rules.map Rule.id).Nodup) :
    ofRules props semver rules = .ok
      { version := ⟨semver, integrity (sortRules rules), (sortRules rules).length⟩
        blocking := stage props .block (sortRules rules)
        rejecting := stage props .reject (sortRules rules)
        transforming := stage props .transform (sortRules rules) } := by
  simp [ofRules, hsemver, firstRepeated?_eq_none_iff.2 hnodup]

theorem exists_ofRules_iff {semver : String} : (∃ l, ofRules props semver rules = .ok l) ↔
    isBlankText semver = false ∧ (rules.map Rule.id).Nodup := by
  constructor
  · rintro ⟨l, hl⟩
    refine ⟨?_, (ofRules_eq_ok hl).1⟩
    rw [ofRules] at hl
    split at hl
    · cases hl
    · next hsemver => simpa using hsemver
  · rintro ⟨hsemver, hnodup⟩
    exact ⟨_, ofRules_of_nodup hsemver hnodup⟩

theorem holds_of_ofRules {semver : String} {l : Library} (h : ofRules props semver rules = .ok l) :
    l.Holds props rules := by
  obtain ⟨hsemver, hnodup⟩ := exists_ofRules_iff.1 ⟨l, h⟩
  have hseverity {severity : Severity} {m : Matcher}
      (hm : m ∈ stage props severity (sortRules rules)) : m.rule.severity = severity := by
    obtain ⟨r, -, hr, rfl⟩ := mem_stage.1 hm
    exact hr
  rw [ofRules_of_nodup hsemver hnodup] at h
  cases h
  refine ⟨⟨sortRules rules, sortRules_perm rules, pairwise_before hnodup, ?_⟩, fun m => hseverity,
    fun m => hseverity, fun m => hseverity, (sortRules_perm rules).length_eq⟩
  exact stages_append (pairwise_before hnodup)

/-- Rules make up a library just if the version is not blank and no two of them have one name. Listed
in another order they make up the very same library or, again, none: version, stages and so all
faults and verdicts are the same. -/
theorem alike_however_listed (props : Regex.Properties) (semver : String)
    (h : rules.Perm rules') :
    ((∃ l, ofRules props semver rules = .ok l) ↔
        isBlankText semver = false ∧ (rules.map Rule.id).Nodup) ∧
      (∀ l, ofRules props semver rules = .ok l ↔ ofRules props semver rules' = .ok l) ∧
      ∀ l, ofRules props semver rules = .ok l → l.Holds props rules := by
  refine ⟨exists_ofRules_iff, fun l => ?_, fun l => holds_of_ofRules⟩
  have hiff : (rules.map Rule.id).Nodup ↔ (rules'.map Rule.id).Nodup :=
    (h.map Rule.id).nodup_iff
  by_cases hmade : isBlankText semver = false ∧ (rules.map Rule.id).Nodup
  · obtain ⟨hsemver, hnodup⟩ := hmade
    rw [ofRules_of_nodup hsemver hnodup, ofRules_of_nodup hsemver (hiff.1 hnodup),
      sortRules_eq_of_perm h hnodup]
  · have hnone : ¬∃ l, ofRules props semver rules = .ok l :=
      fun hl => hmade (exists_ofRules_iff.1 hl)
    have hnone' : ¬∃ l, ofRules props semver rules' = .ok l :=
      fun hl => hmade ((exists_ofRules_iff.1 hl).imp_right hiff.2)
    exact ⟨fun hl => absurd ⟨l, hl⟩ hnone, fun hl => absurd ⟨l, hl⟩ hnone'⟩

/-- The built-in rules, listed backwards. -/
theorem alike_however_listed_backwards :
    builtinRules.Perm builtinRules.reverse ∧ ∃ l, builtin .basic = .ok l ∧
      ofRules .basic builtinVersion builtinRules.reverse = .ok l ∧
        l.Holds .basic builtinRules := by
  have hperm : builtinRules.Perm builtinRules.reverse := (List.reverse_perm _).symm
  obtain ⟨hmade, hsame, hholds⟩ := alike_however_listed .basic builtinVersion hperm
  obtain ⟨l, hl⟩ := hmade.2 (by decide +kernel)
  exact ⟨hperm, l, hl, (hsame l).1 hl, hholds l hl⟩

end Library

end Curia
