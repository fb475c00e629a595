import Curia.Proofs.Filter.Faults
import Curia.Proofs.Filter.Replaying

/-!
Filtering again what has been filtered, where the rules delete what they find. Each round leaves the
text as it is or makes it shorter, so the rounds come to an end. One round may not be enough: a
deletion can bring together what a rule finds in the next round.
-/

namespace Curia

variable {props : Regex.Properties}

/-! ### Rules that find nothing -/

theorem applyRule_of_not_finds {m : Matcher} {text : List Char} (h : m.finds text = false) :
    applyRule m text = (text, []) := by
  rw [applyRule]
  split
  · next regex replacement hregex _ =>
    rw [Matcher.finds, hregex] at h
    simp only [Regex.matchesIn_eq_nil_iff.2 h, replaceSpans, changesAt, List.map_nil]
  · rfl

theorem applyRules_of_not_finds {ms : List Matcher} {text : List Char}
    (h : ∀ m ∈ ms, m.finds text = false) : applyRules text ms = (text, []) := by
  induction ms with
  | nil => rfl
  | cons m ms ih =>
      rw [applyRules, applyRule_of_not_finds (h m List.mem_cons_self)]
      simp only [ih fun n hn => h n (List.mem_cons_of_mem m hn), List.append_nil]

theorem transform_of_not_finds {ms : List Matcher} {text : List Char}
    (h : ∀ m ∈ ms, m.finds text = false) : transform ms text = (text, []) := by
  rw [transform, applyRules_of_not_finds h]
  rfl

namespace Rule

theorem Changing.not_finds {r : Rule} (hr : r.Changing props) {text : List Char}
    (h : (applyRule (.ofRule props r) text).2 = []) :
    (Matcher.ofRule props r).finds text = false := by
  have husable := transformFault?_eq_none hr.2 hr.1
  rw [Matcher.transformFault?] at husable
  rw [applyRule] at h
  rw [Matcher.finds]
  cases hregex : (Matcher.ofRule props r).regex with
  | error fault => rfl
  | ok regex =>
      cases hreplacement : (Matcher.ofRule props r).rule.replacement with
      | none =>
          have hreplacement : r.replacement = none := hreplacement
          simp [hregex, hreplacement] at husable
      | some replacement =>
          simp only [hregex, hreplacement, changesAt, List.map_eq_nil_iff] at h
          exact Regex.matchesIn_eq_nil_iff.1 h

/-- The rule takes out what it finds. -/
structure Deleting (props : Regex.Properties) (r : Rule) : Prop where
  changing : r.Changing props
  replacement : r.replacement = some ""

end Rule

/-- Nothing is recorded just if none of the rules finds anything. -/
theorem applyRules_eq_nil_iff {ms : List Matcher}
    (hms : ∀ m ∈ ms, ∃ r : Rule, r.Changing props ∧ .ofRule props r = m) {text : List Char} :
    (applyRules text ms).2 = [] ↔ ∀ m ∈ ms, m.finds text = false := by
  constructor
  · intro h
    induction ms with
    | nil =>
        intro m hm
        cases hm
    | cons m ms ih =>
        rw [applyRules] at h
        obtain ⟨hfirst, hrest⟩ := List.append_eq_nil_iff.1 h
        simp only [applyRule_of_unchanged hfirst] at hrest
        obtain ⟨r, hr, rfl⟩ := hms m List.mem_cons_self
        intro n hn
        rcases List.mem_cons.1 hn with rfl | hn
        · exact hr.not_finds hfirst
        · exact ih (fun n hn => hms n (List.mem_cons_of_mem _ hn)) hrest n hn
  · intro h
    rw [applyRules_of_not_finds h]

/-! ### Deleting -/

/-- The text has been left as it is, where only empty pieces have been found, or it is shorter. -/
def Shrinks (text : List Char) (changes : List Change) (after : List Char) : Prop :=
  after = text ∧ (∀ c ∈ changes, c.found = "") ∨ after.length < text.length

namespace Shrinks

variable {text after content : List Char} {changes more : List Change}

theorem refl (text : List Char) : Shrinks text [] text := .inl ⟨rfl, fun c hc => by cases hc⟩

theorem length_le (h : Shrinks text changes after) : after.length ≤ text.length := by
  rcases h with ⟨rfl, -⟩ | h
  · exact Nat.le_refl _
  · exact Nat.le_of_lt h

theorem trans (h : Shrinks text changes after) (h' : Shrinks after more content) :
    Shrinks text (changes ++ more) content := by
  rcases h with ⟨rfl, hempty⟩ | h
  · rcases h' with ⟨rfl, hempty'⟩ | h'
    · refine .inl ⟨rfl, fun c hc => ?_⟩
      exact (List.mem_append.1 hc).elim (hempty c) (hempty' c)
    · exact .inr h'
  · exact .inr (Nat.lt_of_le_of_lt h'.length_le h)

theorem of_replay {pos : Nat} (h : Replay pos text changes after)
    (hchanges : ∀ c ∈ changes, c.replacement = "") : Shrinks text changes after := by
  induction h with
  | done pos text => exact refl text
  | @next pos rest after changes kept c hpos h ih =>
      have hc := hchanges c List.mem_cons_self
      have hrest := ih fun d hd => hchanges d (List.mem_cons_of_mem c hd)
      by_cases hfound : c.found = ""
      · rcases hrest with ⟨rfl, hempty⟩ | hshorter
        · refine .inl ⟨by rw [hc, hfound], fun d hd => ?_⟩
          rcases List.mem_cons.1 hd with rfl | hd
          · exact hfound
          · exact hempty d hd
        · right
          simp only [hc, List.length_append, String.length_toList, String.length_empty]
          omega
      · have hpositive : 0 < c.found.length := by
          apply Nat.pos_of_ne_zero
          rwa [← String.length_toList, ne_eq, List.length_eq_zero_iff, String.toList_eq_nil_iff]
        have hlength := hrest.length_le
        right
        simp only [hc, List.length_append, String.length_toList, String.length_empty]
        omega

end Shrinks

/-- What one round of the rules leaves of a text. -/
def contentOf (ms : List Matcher) (text : List Char) : List Char := (transform ms text).1

section

variable {ms : List Matcher} (hms : ∀ m ∈ ms, ∃ r : Rule, r.Deleting props ∧ .ofRule props r = m)

include hms

theorem shrinks_applyRules (text : List Char) :
    Shrinks text (applyRules text ms).2 (applyRules text ms).1 := by
  induction ms generalizing text with
  | nil => exact .refl text
  | cons m ms ih =>
      obtain ⟨r, hr, rfl⟩ := hms m List.mem_cons_self
      have hfirst : Shrinks text (applyRule (.ofRule props r) text).2
          (applyRule (.ofRule props r) text).1 := by
        have haccounts := r.accounts_applyRule props text
        refine .of_replay haccounts.replay fun c hc => ?_
        have hreplacement := (haccounts.madeBy c hc).replacement
        rw [hr.replacement] at hreplacement
        exact (Option.some.inj hreplacement).symm
      exact hfirst.trans (ih (fun n hn => hms n (List.mem_cons_of_mem _ hn)) _)

/-- A round over a text whose gaps are tidy leaves it as it is or makes it shorter. -/
theorem shrinks_transform {text : List Char} (htidy : normalizeGaps text = text) :
    Shrinks text (transform ms text).2 (contentOf ms text) := by
  have hrules := shrinks_applyRules hms text
  rw [contentOf, transform]
  simp only
  split
  · exact hrules
  · rcases hrules with ⟨hkept, hempty⟩ | hshorter
    · exact .inl ⟨by rw [hkept, htidy], hempty⟩
    · exact .inr (Nat.lt_of_le_of_lt (length_normalizeGaps_le _) hshorter)

/-- A second round leaves the content of the first as it is or makes it shorter. -/
theorem shrinks_again (text : List Char) :
    Shrinks (contentOf ms text) (transform ms (contentOf ms text)).2
      (contentOf ms (contentOf ms text)) := by
  by_cases hnone : (transform ms text).2 = []
  · have hsame : transform ms text = (text, []) :=
      Prod.ext (transform_of_unchanged hnone) hnone
    have hkept : contentOf ms text = text := congrArg Prod.fst hsame
    rw [hkept, hkept, hsame]
    exact .refl text
  · apply shrinks_transform hms
    have hsome : (applyRules text ms).2 ≠ [] := hnone
    rw [contentOf, transform]
    simp only
    rw [if_neg (by simpa using hsome), normalizeGaps_normalizeGaps]

theorem length_contentOf_le (text : List Char) : (contentOf ms text).length ≤ text.length := by
  have hrules := (shrinks_applyRules hms text).length_le
  rw [contentOf, transform]
  simp only
  split
  · exact hrules
  · exact Nat.le_trans (length_normalizeGaps_le _) hrules

/-- After more rounds than the text has characters the content stays as it is. -/
theorem contentOf_iterate {text : List Char} {n : Nat} (hn : text.length < n) :
    contentOf ms ((contentOf ms)^[n] text) = (contentOf ms)^[n] text := by
  -- what the first round leaves can be made shorter as many times as it has characters
  have hsettled (k : Nat) (text : List Char) (hlength : (contentOf ms text).length ≤ k) :
      contentOf ms ((contentOf ms)^[k + 1] text) = (contentOf ms)^[k + 1] text := by
    induction k generalizing text with
    | zero =>
        rcases shrinks_again hms text with ⟨hkept, -⟩ | hshorter
        · exact hkept
        · omega
    | succ k ih =>
        rw [Function.iterate_succ_apply]
        rcases shrinks_again hms text with ⟨hkept, -⟩ | hshorter
        · rw [Function.iterate_fixed hkept]
          exact hkept
        · exact ih (contentOf ms text) (by omega)
  obtain ⟨k, rfl⟩ := Nat.exists_eq_add_one_of_ne_zero (Nat.ne_zero_of_lt hn)
  exact hsettled k text (Nat.le_trans (length_contentOf_le hms text) (Nat.le_of_lt_succ hn))

end

/-! ### Filtering again -/

namespace Library

variable {semver : String} {rules : List Rule} {l : Library}
  (hl : ofRules props semver rules = .ok l)

include hl

theorem mem_transforming {m : Matcher} :
    m ∈ l.transforming ↔ ∃ r ∈ rules, r.severity = .transform ∧ .ofRule props r = m := by
  obtain ⟨-, -, -, htransforming⟩ := ofRules_eq_ok hl
  rw [htransforming]
  exact mem_stage

theorem mem_transforming_of_changing (hrules : ∀ r ∈ rules, r.Changing props) {m : Matcher} :
    m ∈ l.transforming ↔ ∃ r ∈ rules, .ofRule props r = m := by
  rw [mem_transforming hl]
  constructor
  · rintro ⟨r, hr, -, hm⟩
    exact ⟨r, hr, hm⟩
  · rintro ⟨r, hr, hm⟩
    exact ⟨r, hr, (hrules r hr).1, hm⟩

/-- Nothing is recorded just if none of the rules finds anything. -/
theorem changes_eq_nil_iff (hrules : ∀ r ∈ rules, r.Changing props) (text : List Char) :
    (transform l.transforming text).2 = [] ↔ ∀ r ∈ rules, ¬r.Finds props text := by
  have hms : ∀ m ∈ l.transforming, ∃ r : Rule, r.Changing props ∧ .ofRule props r = m := by
    intro m hm
    obtain ⟨r, hr, rfl⟩ := (mem_transforming_of_changing hl hrules).1 hm
    exact ⟨r, hrules r hr, rfl⟩
  rw [show (transform l.transforming text).2 = (applyRules text l.transforming).2 from rfl,
    applyRules_eq_nil_iff hms]
  constructor
  · intro h r hr hfinds
    have := h _ ((mem_transforming_of_changing hl hrules).2 ⟨r, hr, rfl⟩)
    rw [(Matcher.finds_ofRule (hrules r hr).2 text).2 hfinds] at this
    cases this
  · intro h m hm
    obtain ⟨r, hr, rfl⟩ := (mem_transforming_of_changing hl hrules).1 hm
    have := h r hr
    rwa [← Matcher.finds_ofRule (hrules r hr).2 text, Bool.not_eq_true] at this

end Library

namespace Filter

/-- Where all rules are for transforming and can be used, whatever is judged in time is accepted. -/
theorem accepts_in_time {semver : String} {rules : List Rule} {l : Library}
    (hl : Library.ofRules props semver rules = .ok l) (hrules : ∀ r ∈ rules, r.Changing props)
    (f : Filter) (c : Clock) (text : String) (htime : ¬f.Overruns l c text) :
    (f.evaluate (some l) c text).1.verdict = reworked l.transforming text.toList := by
  have hnone (severity : Severity) (h : severity ≠ .transform) :
      ¬Rule.SomeFinds props rules severity text.toList := by
    rintro ⟨r, hr, hseverity, -⟩
    exact h (hseverity.symm.trans (hrules r hr).1)
  have hstages := Library.stages_of_unrejected hl (c.reading 0) f.budget c.read.2
    (fun r hr => (hrules r hr).2) (hnone .block (by decide)) (hnone .reject (by decide))
  show (l.judge text.toList (c.reading 0) f.budget c.read.2).1 = _
  rcases f.stages_cases l c text with ⟨-, hover⟩ | ⟨hfault, -⟩
  · exact absurd hover htime
  · split at hstages
    · exact Library.judge_of_ok hstages
    · cases hfault _ hstages

/-- So many rounds of filtering lead from one text to another. -/
inductive Rounds (l : Library) : Nat → String → String → Prop
  | none (text : String) : Rounds l 0 text text
  | next {n : Nat} {f : Filter} {c : Clock} {text content last : String} {changes : List Change}
      (h : (f.evaluate (some l) c text).1.verdict = .accepted content changes)
      (hrest : Rounds l n content last) : Rounds l (n + 1) text last

theorem Rounds.toList_eq {l : Library} {n : Nat} {text last : String} (h : Rounds l n text last) :
    last.toList = (contentOf l.transforming)^[n] text.toList := by
  induction h with
  | none text => rfl
  | next h hrest ih =>
      obtain ⟨-, rfl, -⟩ := Library.judge_accepted (evaluate_accepted h)
      rw [ih, String.toList_ofList]
      rfl

theorem Rounds.stay {l : Library} {f : Filter} {c : Clock} {text : String} {changes : List Change}
    (h : (f.evaluate (some l) c text).1.verdict = .accepted text changes) (n : Nat) :
    Rounds l n text text := by
  induction n with
  | zero => exact .none text
  | succ n ih => exact .next h ih

/-- Under rules that delete what they find, filtering again leaves a text that has been filtered as it
is, without any change, just if none of the rules finds anything in it; otherwise only empty pieces
are found, or the text gets shorter. After more rounds than the text has characters it stays as it
is. -/
theorem refiltering_settles {semver : String} {rules : List Rule} {l : Library}
    (hl : Library.ofRules props semver rules = .ok l) (hrules : ∀ r ∈ rules, r.Deleting props)
    (f : Filter) (c : Clock) (text : String) (htime : ¬f.Overruns l c text) :
    (∃ content changes, (f.evaluate (some l) c text).1.verdict = .accepted content changes ∧
      ∀ (g : Filter) (d : Clock), ¬g.Overruns l d content → ∃ content' changes',
        (g.evaluate (some l) d content).1.verdict = .accepted content' changes' ∧
        (content' = content ∧ changes' = [] ↔ ∀ r ∈ rules, ¬r.Finds props content.toList) ∧
        Shrinks content.toList changes' content'.toList) ∧
      ∀ n settled, text.length < n → Rounds l n text settled →
        ∀ (g : Filter) (d : Clock), ¬g.Overruns l d settled → ∃ changes',
          (g.evaluate (some l) d settled).1.verdict = .accepted settled changes' ∧
          ∀ e ∈ changes', e.found = "" := by
  have hchanging : ∀ r ∈ rules, r.Changing props := fun r hr => (hrules r hr).changing
  have hms : ∀ m ∈ l.transforming, ∃ r : Rule, r.Deleting props ∧ .ofRule props r = m := by
    intro m hm
    obtain ⟨r, hr, rfl⟩ := (Library.mem_transforming_of_changing hl hchanging).1 hm
    exact ⟨r, hrules r hr, rfl⟩
  constructor
  · refine ⟨_, _, accepts_in_time hl hchanging f c text htime, fun g d hagain => ?_⟩
    refine ⟨_, _, accepts_in_time hl hchanging g d _ hagain, ?_, ?_⟩
    · rw [← Library.changes_eq_nil_iff hl hchanging]
      constructor
      · exact fun h => h.2
      · intro h
        refine ⟨?_, h⟩
        rw [transform_of_unchanged h, String.ofList_toList]
    · rw [String.toList_ofList, String.toList_ofList]
      exact shrinks_again hms text.toList
  · intro n settled hn hrounds g d hagain
    have hsettled := hrounds.toList_eq
    have hlength : text.toList.length < n := by
      rwa [String.length_toList]
    have hfixed := contentOf_iterate hms hlength
    rw [← hsettled] at hfixed
    obtain ⟨k, rfl⟩ := Nat.exists_eq_add_one_of_ne_zero (Nat.ne_zero_of_lt hn)
    rw [Function.iterate_succ_apply'] at hsettled
    have hshrinks := shrinks_again hms ((contentOf l.transforming)^[k] text.toList)
    rw [← hsettled, hfixed] at hshrinks
    refine ⟨_, ?_, (hshrinks.resolve_right (Nat.lt_irrefl _)).2⟩
    rw [accepts_in_time hl hchanging g d settled hagain, reworked]
    rw [show (transform l.transforming settled.toList).1 = settled.toList from hfixed,
      String.ofList_toList]

/-- A rule that deletes a word wherever it stands, also within other words. -/
def hasteRules : List Rule := [.transform "xfm-005" .urgency "asap" "" "Urgency abbreviation"]

theorem hasteRules_deleting : ∀ r ∈ hasteRules, r.Deleting .basic := by
  have husable : (Matcher.ofRule .basic
      (.transform "xfm-005" .urgency "asap" "" "Urgency abbreviation")).fault? = none := by
    decide +kernel
  intro r hr
  obtain rfl := List.mem_singleton.1 hr
  exact ⟨⟨rfl, Matcher.fault?_ofRule.1 husable⟩, rfl⟩

/-- What a new filter makes of a text under this rule, with the pieces that the rule has found. -/
def haste? (text : String) : Option (String × List String) :=
  (passed? (Library.ofRules .basic Library.builtinVersion hasteRules) text).map
    fun x => (x.1, x.2.map Change.found)

theorem exists_of_haste? {text content : String} {found : List String}
    (h : haste? text = some (content, found)) :
    ∃ l changes, Library.ofRules .basic Library.builtinVersion hasteRules = .ok l ∧
      (standard.evaluate (some l) .sample text).1.verdict = .accepted content changes ∧
      changes.map Change.found = found := by
  obtain ⟨⟨content, changes⟩, hpassed, hshown⟩ := Option.map_eq_some_iff.1 h
  obtain ⟨rfl, hfound⟩ := Prod.mk.inj hshown
  obtain ⟨l, hl, hverdict⟩ := exists_of_passed? hpassed
  exact ⟨l, changes, hl, hverdict, hfound⟩

/-- A word within the word: two rounds are needed, and what they leave settles. -/
theorem refiltering_settles_of_haste :
    ∃ l, Library.ofRules .basic Library.builtinVersion hasteRules = .ok l ∧
      (∀ r ∈ hasteRules, r.Deleting .basic) ∧ ¬standard.Overruns l .sample "asASAPap, please" ∧
      (∃ content changes, (standard.evaluate (some l) .sample "asASAPap, please").1.verdict =
          .accepted content changes ∧
        ∃ content' changes', (standard.evaluate (some l) .sample content).1.verdict =
            .accepted content' changes' ∧
          (content' = content ∧ changes' = [] ↔ ∀ r ∈ hasteRules, ¬r.Finds .basic content.toList) ∧
          Shrinks content.toList changes' content'.toList) ∧
      "asASAPap, please".length < 17 ∧ Rounds l 17 "asASAPap, please" ", please" ∧
      ∃ changes, (standard.evaluate (some l) .sample ", please").1.verdict =
        .accepted ", please" changes ∧ ∀ e ∈ changes, e.found = "" := by
  have hfirst : haste? "asASAPap, please" = some ("asap, please", ["ASAP"]) := by
    decide +kernel
  have hsecond : haste? "asap, please" = some (", please", ["asap"]) := by
    decide +kernel
  have hthird : haste? ", please" = some (", please", []) := by
    decide +kernel
  obtain ⟨l, changes, hl, hverdict, -⟩ := exists_of_haste? hfirst
  obtain ⟨l₂, changes₂, hl₂, hverdict₂, -⟩ := exists_of_haste? hsecond
  obtain ⟨l₃, changes₃, hl₃, hverdict₃, -⟩ := exists_of_haste? hthird
  obtain rfl : l = l₂ := Except.ok.inj (hl.symm.trans hl₂)
  obtain rfl : l = l₃ := Except.ok.inj (hl.symm.trans hl₃)
  have hrounds : Rounds l 17 "asASAPap, please" ", please" :=
    .next hverdict (.next hverdict₂ (.stay hverdict₃ 15))
  have hlength : "asASAPap, please".length < 17 := by
    decide
  obtain ⟨⟨content, changes, hfiltered, hagain⟩, hsettled⟩ :=
    refiltering_settles hl hasteRules_deleting standard .sample "asASAPap, please"
      (not_overruns_sample l _)
  exact ⟨l, hl, hasteRules_deleting, not_overruns_sample l _,
    ⟨content, changes, hfiltered, hagain standard .sample (not_overruns_sample l _)⟩, hlength, hrounds,
    hsettled 17 ", please" hlength hrounds standard .sample (not_overruns_sample l _)⟩

/-- A deletion brings together a word that the next round finds and deletes. -/
theorem deleted_when_refiltered :
    ∃ l, Library.ofRules .basic Library.builtinVersion hasteRules = .ok l ∧
      (∀ r ∈ hasteRules, r.Deleting .basic) ∧ (∀ text, ¬standard.Overruns l .sample text) ∧
      (∃ changes, (standard.evaluate (some l) .sample "asASAPap, please").1.verdict =
        .accepted "asap, please" changes) ∧
      ∃ changes, (standard.evaluate (some l) .sample "asap, please").1.verdict =
        .accepted ", please" changes ∧ changes.map Change.found = ["asap"] := by
  have hfirst : haste? "asASAPap, please" = some ("asap, please", ["ASAP"]) := by
    decide +kernel
  have hsecond : haste? "asap, please" = some (", please", ["asap"]) := by
    decide +kernel
  obtain ⟨l, changes, hl, hverdict, -⟩ := exists_of_haste? hfirst
  obtain ⟨l', changes', hl', hverdict', hfound⟩ := exists_of_haste? hsecond
  rw [hl] at hl'
  obtain rfl := Except.ok.inj hl'
  exact ⟨l, hl, hasteRules_deleting, not_overruns_sample l, ⟨changes, hverdict⟩, changes', hverdict',
    hfound⟩

end Filter

end Curia
