import Curia.Proofs.Filter.Listing
import Curia.Proofs.Filter.Secrecy
import Curia.Proofs.Filter.Verdicts
import Curia.Proofs.Regex.Leftmost

/-!
The record of the changes. From the text as it was submitted the record leads to the content that was
accepted: the changes of each rule, put in where they say, make the text that the next rule is given.
-/

namespace Curia

variable {props : Regex.Properties}

/-! ### Replaying changes -/

/-- One text becomes another as the changes say. At the position of each stands what it has found,
which gives way to its replacement; what lies between is kept. The number is the position of the
texts. -/
inductive Replay : Nat → List Char → List Change → List Char → Prop
  | done (pos : Nat) (text : List Char) : Replay pos text [] text
  | next {pos : Nat} {rest after : List Char} {changes : List Change} (kept : List Char) (c : Change)
      (hpos : c.position = pos + kept.length)
      (h : Replay (c.position + c.found.length) rest changes after) :
      Replay pos (kept ++ c.found.toList ++ rest) (c :: changes)
        (kept ++ c.replacement.toList ++ after)

namespace Replay

variable {pos : Nat} {text after : List Char} {changes : List Change}

theorem le_position (h : Replay pos text changes after) : ∀ c ∈ changes, pos ≤ c.position := by
  induction h with
  | done pos text =>
      intro c hc
      cases hc
  | next kept c hpos h ih =>
      intro d hd
      rcases List.mem_cons.1 hd with rfl | hd
      · omega
      · have := ih d hd
        omega

/-- The pieces are found from left to right, and they do not overlap. -/
theorem ordered (h : Replay pos text changes after) :
    changes.Pairwise fun c d => c.position + c.found.length ≤ d.position := by
  induction h with
  | done pos text => exact .nil
  | next kept c hpos h ih => exact List.pairwise_cons.2 ⟨h.le_position, ih⟩

/-- Each piece stands in the text, behind as many characters as the position says. -/
theorem exists_found (h : Replay pos text changes after) :
    ∀ c ∈ changes, ∃ before behind, text = before ++ c.found.toList ++ behind ∧
      c.position = pos + before.length := by
  induction h with
  | done pos text =>
      intro c hc
      cases hc
  | @next pos rest after changes kept c hpos h ih =>
      intro d hd
      rcases List.mem_cons.1 hd with rfl | hd
      · exact ⟨kept, rest, rfl, hpos⟩
      · obtain ⟨before, behind, rfl, hd⟩ := ih d hd
        refine ⟨kept ++ c.found.toList ++ before, behind, by simp, ?_⟩
        simp only [List.length_append, String.length_toList]
        omega

end Replay

/-- The changes at spans in their order lead to the text in which the spans are replaced. -/
theorem replay_changesAt (rule : Rule) (replacement : String) (text : List Char)
    {spans : List Regex.Span} (hordered : spans.Pairwise Regex.Span.Before) {pos : Nat}
    (hspans : ∀ s ∈ spans, pos ≤ s.start ∧ s.start ≤ s.stop ∧ s.stop ≤ text.length) :
    Replay pos (text.drop pos) (changesAt rule replacement text spans)
      (replaceSpans replacement.toList pos (text.drop pos) spans) := by
  induction spans generalizing pos with
  | nil => exact .done pos _
  | cons s spans ih =>
      obtain ⟨hs, hordered⟩ := List.pairwise_cons.1 hordered
      obtain ⟨hpos, hstart, hstop⟩ := hspans s List.mem_cons_self
      have hrest := ih hordered fun t ht => by
        obtain ⟨-, hspan⟩ := hspans t (List.mem_cons_of_mem _ ht)
        exact ⟨(hs t ht).1, hspan⟩
      have hsplit : text.drop pos = (text.drop pos).take (s.start - pos) ++
          (text.drop s.start).take (s.stop - s.start) ++ text.drop s.stop := by
        rw [List.append_assoc, ← Regex.drop_drop_of_le hstart, List.take_append_drop,
          ← Regex.drop_drop_of_le hpos, List.take_append_drop]
      have hkept : ((text.drop pos).take (s.start - pos)).length = s.start - pos := by
        rw [List.length_take, List.length_drop]
        omega
      let c : Change := ⟨rule.id, rule.pattern,
        String.ofList ((text.drop s.start).take (s.stop - s.start)), replacement, s.start⟩
      have hfound : c.found.toList = (text.drop s.start).take (s.stop - s.start) :=
        String.toList_ofList
      have hlength : c.found.length = s.stop - s.start := by
        rw [← String.length_toList, hfound, List.length_take, List.length_drop]
        omega
      have hposition : c.position = pos + ((text.drop pos).take (s.start - pos)).length := by
        rw [hkept]
        exact (Nat.add_sub_cancel' hpos).symm
      have hend : c.position + c.found.length = s.stop := by
        rw [hlength]
        exact Nat.add_sub_cancel' hstart
      rw [← hend] at hrest
      have hnext := Replay.next _ c hposition hrest
      rw [hend] at hnext
      rw [hfound, ← hsplit] at hnext
      rw [replaceSpans, Regex.drop_drop_of_le (Nat.le_trans hpos hstart)]
      exact hnext

/-! ### Rule after rule -/

namespace Rule

/-- What the record has of a rule. -/
def recorded (r : Rule) (changes : List Change) : List Change :=
  changes.filter fun c => c.rule = r.id

/-- The changes account for what the rule has made of a text. -/
structure Accounts (r : Rule) (before : List Char) (changes : List Change) (after : List Char) :
    Prop where
  madeBy : ∀ c ∈ changes, c.MadeBy r
  /-- Their pieces come from left to right and do not overlap. -/
  ordered : changes.Pairwise fun c d => c.position + c.found.length ≤ d.position
  /-- Each piece stands in the text at its position. -/
  found : ∀ c ∈ changes, (before.drop c.position).take c.found.length = c.found.toList
  replay : Replay 0 before changes after

theorem accounts_applyRule (props : Regex.Properties) (r : Rule) (text : List Char) :
    r.Accounts text (applyRule (.ofRule props r) text).2 (applyRule (.ofRule props r) text).1 := by
  have hreplay : Replay 0 text (applyRule (.ofRule props r) text).2
      (applyRule (.ofRule props r) text).1 := by
    rw [applyRule]
    split
    · next regex replacement _ _ =>
      have hspans : ∀ s ∈ regex.matchesIn text, 0 ≤ s.start ∧ s.start ≤ s.stop ∧
          s.stop ≤ text.length := by
        intro s hs
        have hmatches := Regex.matchesIn_matchesAt hs
        exact ⟨Nat.zero_le _, hmatches.start_le_stop, hmatches.stop_le_length⟩
      exact replay_changesAt r replacement text (regex.matchesIn_ordered text) hspans
    · exact .done 0 text
  refine ⟨fun c hc => madeBy_of_mem_applyRule hc, hreplay.ordered, fun c hc => ?_, hreplay⟩
  obtain ⟨before, behind, htext, hposition⟩ := hreplay.exists_found c hc
  rw [Nat.zero_add] at hposition
  rw [htext, hposition, List.append_assoc, List.drop_left, ← String.length_toList, List.take_left]

end Rule

/-- Rule after rule, the record accounts for what the rule makes of the text that it is given. -/
def Retold (props : Regex.Properties) (changes : List Change) :
    List Rule → List Char → List Char → Prop
  | [], before, after => after = before
  | r :: rs, before, after =>
    r.Accounts before (r.recorded changes) (applyRule (.ofRule props r) before).1 ∧
      Retold props changes rs (applyRule (.ofRule props r) before).1 after

/-- The record leads from a text to the content that rules make of it. -/
structure Replays (props : Regex.Properties) (rules : List Rule) (text : List Char)
    (changes : List Change) (content : List Char) : Prop where
  /-- The changes stand in the order of the rules. -/
  grouped : changes = rules.flatMap fun r => r.recorded changes
  retold : ∃ after, Retold props changes rules text after ∧
    content = if changes = [] then text else normalizeGaps after

theorem Rule.recorded_eq_self {r : Rule} {changes : List Change}
    (h : ∀ c ∈ changes, c.rule = r.id) : r.recorded changes = changes :=
  List.filter_eq_self.2 fun c hc => decide_eq_true (h c hc)

theorem Rule.recorded_eq_nil {r : Rule} {changes : List Change}
    (h : ∀ c ∈ changes, c.rule ≠ r.id) : r.recorded changes = [] :=
  List.filter_eq_nil_iff.2 fun c hc => by simpa using h c hc

theorem rule_of_mem_applyRules {rules : List Rule} {text : List Char} {c : Change}
    (h : c ∈ (applyRules text (rules.map (.ofRule props))).2) : ∃ r ∈ rules, c.rule = r.id := by
  obtain ⟨m, hm, hmade⟩ := exists_of_mem_applyRules h
  obtain ⟨r, hr, rfl⟩ := List.mem_map.1 hm
  exact ⟨r, hr, hmade.rule⟩

/-- Whatever other rules have recorded before, the changes that rules make are found again by the
names of the rules. -/
theorem retold_applyRules {rules : List Rule} (hnodup : (rules.map Rule.id).Nodup)
    (text : List Char) {prior : List Change} (hprior : ∀ c ∈ prior, ∀ r ∈ rules, c.rule ≠ r.id) :
    Retold props (prior ++ (applyRules text (rules.map (.ofRule props))).2) rules text
        (applyRules text (rules.map (.ofRule props))).1 ∧
      (applyRules text (rules.map (.ofRule props))).2 =
        rules.flatMap fun r =>
          r.recorded (prior ++ (applyRules text (rules.map (.ofRule props))).2) := by
  induction rules generalizing text prior with
  | nil => exact ⟨rfl, rfl⟩
  | cons r rs ih =>
      obtain ⟨hr, hnodup⟩ := List.nodup_cons.1 hnodup
      have hne : ∀ s ∈ rs, s.id ≠ r.id := fun s hs hid => hr (hid ▸ List.mem_map_of_mem hs)
      have hown : ∀ c ∈ (applyRule (.ofRule props r) text).2, c.rule = r.id :=
        fun c hc => (madeBy_of_mem_applyRule hc).rule
      have hothers : ∀ c ∈ prior ++ (applyRule (.ofRule props r) text).2,
          ∀ s ∈ rs, c.rule ≠ s.id := by
        intro c hc s hs
        rcases List.mem_append.1 hc with hc | hc
        · exact hprior c hc s (List.mem_cons_of_mem _ hs)
        · exact fun hid => hne s hs (hid.symm.trans (hown c hc))
      obtain ⟨hretold, hgrouped⟩ := ih hnodup (applyRule (.ofRule props r) text).1 hothers
      rw [List.append_assoc] at hretold hgrouped
      -- of all that is recorded the changes of the first rule are its own
      have hrecorded : r.recorded (prior ++ (applyRules text ((r :: rs).map (.ofRule props))).2) =
          (applyRule (.ofRule props r) text).2 := by
        have hbefore : r.recorded prior = [] :=
          Rule.recorded_eq_nil fun c hc => hprior c hc r List.mem_cons_self
        have hafter : r.recorded
            (applyRules (applyRule (.ofRule props r) text).1 (rs.map (.ofRule props))).2 = [] := by
          apply Rule.recorded_eq_nil
          intro c hc hid
          obtain ⟨s, hs, hcs⟩ := rule_of_mem_applyRules hc
          exact hne s hs (hcs.symm.trans hid)
        rw [List.map_cons, applyRules, Rule.recorded, List.filter_append, List.filter_append]
        simp only [Rule.recorded] at hbefore hafter
        rw [hbefore, hafter, List.nil_append, List.append_nil]
        exact Rule.recorded_eq_self hown
      constructor
      · refine ⟨?_, hretold⟩
        rw [hrecorded]
        exact r.accounts_applyRule props text
      · rw [List.flatMap_cons, hrecorded]
        exact congrArg _ hgrouped

theorem replays_transform {rules : List Rule} (hnodup : (rules.map Rule.id).Nodup)
    (text : List Char) :
    Replays props rules text (transform (rules.map (.ofRule props)) text).2
      (transform (rules.map (.ofRule props)) text).1 := by
  have hnone : ∀ c ∈ ([] : List Change), ∀ r ∈ rules, c.rule ≠ r.id := fun c hc => by cases hc
  obtain ⟨hretold, hgrouped⟩ := retold_applyRules hnodup text hnone
  refine ⟨hgrouped, (applyRules text (rules.map (.ofRule props))).1, hretold, ?_⟩
  split
  · next hnone => exact transform_of_unchanged hnone
  · next hsome =>
    have hsome : (applyRules text (rules.map (.ofRule props))).2 ≠ [] := hsome
    rw [transform]
    simp only
    rw [if_neg (by simpa using hsome)]

/-! ### The content that is accepted -/

/-- The rule is one for transforming, and it can be used. -/
def Rule.Changing (props : Regex.Properties) (r : Rule) : Prop :=
  r.severity = .transform ∧ ¬r.Faulty props

namespace Library

variable {rules : List Rule}

theorem rework_changing (h : ∀ r ∈ rules, r.Changing props) (text : List Char) :
    rework text (rules.map (.ofRule props)) = .ok (reworked (rules.map (.ofRule props)) text) := by
  apply rework_of_usable
  intro m hm
  obtain ⟨r, hr, rfl⟩ := List.mem_map.1 hm
  obtain ⟨hseverity, husable⟩ := h r hr
  exact Rule.transformFault?_eq_none husable hseverity

/-- The stage for transforming is made of rules with different names. -/
theorem exists_transforming {semver : String} {l : Library}
    (hl : ofRules props semver rules = .ok l) :
    ∃ changing : List Rule, l.transforming = changing.map (.ofRule props) ∧
      (changing.map Rule.id).Nodup := by
  obtain ⟨hnodup, -, -, htransforming⟩ := ofRules_eq_ok hl
  refine ⟨(sortRules rules).filter fun r => r.severity = .transform, htransforming, ?_⟩
  have hsorted : ((sortRules rules).map Rule.id).Nodup :=
    ((sortRules_perm rules).map Rule.id).nodup_iff.2 hnodup
  exact hsorted.sublist (List.filter_sublist.map Rule.id)

end Library

namespace Filter

/-- Rules for transforming that can be used and have different names let every text pass, and the
record of the changes replays to the content. So does the record of whatever a library lets pass. -/
theorem record_replays :
    (∀ rules : List Rule, (∀ r ∈ rules, r.Changing props) → (rules.map Rule.id).Nodup →
      ∀ text : String, ∃ content changes,
        rework text.toList (rules.map (.ofRule props)) = .ok (.accepted content changes) ∧
          Replays props rules text.toList changes content.toList) ∧
      ∀ semver rules l, Library.ofRules props semver rules = .ok l →
        ∀ (f : Filter) c text content changes,
          (f.evaluate (some l) c text).1.verdict = .accepted content changes →
            Replays props (l.transforming.map Matcher.rule) text.toList changes content.toList := by
  constructor
  · intro rules hrules hnodup text
    refine ⟨_, _, Library.rework_changing hrules text.toList, ?_⟩
    rw [String.toList_ofList]
    exact replays_transform hnodup text.toList
  · intro semver rules l hl f c text content changes h
    obtain ⟨changing, htransforming, hnodup⟩ := Library.exists_transforming hl
    obtain ⟨-, rfl, rfl⟩ := Library.judge_accepted (evaluate_accepted h)
    have hrules : l.transforming.map Matcher.rule = changing := by
      rw [htransforming, List.map_map]
      exact List.map_id changing
    rw [String.toList_ofList, hrules, htransforming]
    exact replays_transform hnodup text.toList

/-- What a new filter makes of a text that it lets pass, with the record of the changes. -/
def passed? (library : Except FilterError Library) (text : String) :
    Option (String × List Change) := do
  let l ← library.toOption
  match (standard.evaluate (some l) .sample text).1.verdict with
  | .accepted content changes => some (content, changes)
  | _ => none

theorem exists_of_passed? {library : Except FilterError Library} {text content : String}
    {changes : List Change} (h : passed? library text = some (content, changes)) :
    ∃ l, library = .ok l ∧
      (standard.evaluate (some l) .sample text).1.verdict = .accepted content changes := by
  cases library with
  | error e => cases h
  | ok l =>
      refine ⟨l, rfl, ?_⟩
      simp only [passed?, Except.toOption, Option.bind_eq_bind, Option.bind_some] at h
      split at h
      · next hverdict =>
        cases h
        exact hverdict
      · cases h

/-- The built-in rules against marks of urgency. -/
def urgencyRules : List Rule :=
  Library.builtinRules.filter fun r => r.severity = .transform

theorem urgencyRules_changing : ∀ r ∈ urgencyRules, r.Changing props := by
  have husable : ∀ r ∈ urgencyRules, (Matcher.ofRule .none r).fault? = none := by
    decide +kernel
  intro r hr
  refine ⟨of_decide_eq_true (List.mem_filter.1 hr).2, Matcher.fault?_ofRule.1 ?_⟩
  rw [Matcher.ofRule_of_none (husable r hr)]
  exact husable r hr

/-- Two marks of one kind, one of another and a run of exclamation marks. -/
theorem record_replays_of_urgency :
    (∀ r ∈ urgencyRules, r.Changing .basic) ∧ (urgencyRules.map Rule.id).Nodup ∧
      (∃ content changes, rework "URGENT: reply ASAP!!! (urgent!)".toList
          (urgencyRules.map (.ofRule .basic)) = .ok (.accepted content changes) ∧
        Replays .basic urgencyRules "URGENT: reply ASAP!!! (urgent!)".toList changes
          content.toList) ∧
      ∃ l changes, Library.ofRules .basic Library.builtinVersion urgencyRules = .ok l ∧
        (standard.evaluate (some l) .sample "URGENT: reply ASAP!!! (urgent!)").1.verdict =
          .accepted ": reply when you are able! (!)" changes ∧
        changes.map Change.position = [0, 23, 8, 25] ∧
        Replays .basic (l.transforming.map Matcher.rule) "URGENT: reply ASAP!!! (urgent!)".toList
          changes ": reply when you are able! (!)".toList := by
  have hnodup : (urgencyRules.map Rule.id).Nodup := by
    decide +kernel
  have hpassed : (passed? (Library.ofRules .basic Library.builtinVersion urgencyRules)
      "URGENT: reply ASAP!!! (urgent!)").map (fun x => (x.1, x.2.map Change.position)) =
        some (": reply when you are able! (!)", [0, 23, 8, 25]) := by
    decide +kernel
  obtain ⟨⟨content, changes⟩, hpassed, hshown⟩ := Option.map_eq_some_iff.1 hpassed
  obtain ⟨rfl, hpositions⟩ := Prod.mk.inj hshown
  obtain ⟨l, hl, hverdict⟩ := exists_of_passed? hpassed
  exact ⟨urgencyRules_changing, hnodup,
    record_replays.1 urgencyRules urgencyRules_changing hnodup _, l, changes, hl, hverdict,
    hpositions, record_replays.2 _ _ l hl standard .sample _ _ _ hverdict⟩

end Filter

end Curia
