import Curia.Proofs.Filter.Refiltering
import Curia.Proofs.Regex.Shapes

/-!
Rules of which one round is enough. What such a rule finds are whole runs of a class of characters, and
neither what it puts in their place nor the tidying of gaps brings a new match together, for the rule
itself or for one before it. The built-in rules against urgency are of this kind.
-/

namespace Curia

open Regex

/-! ### Gaps -/

theorem isWord_of_isSpace {c : Char} (h : isSpace c = true) : isWord c = false := by
  have hspaces : ∀ n ∈ [9, 10, 11, 12, 13, 0x20, 0x85, 0xa0, 0x1680, 0x2000, 0x2001, 0x2002, 0x2003,
      0x2004, 0x2005, 0x2006, 0x2007, 0x2008, 0x2009, 0x200a, 0x2028, 0x2029, 0x202f, 0x205f, 0x3000],
      isWord (Char.ofNat n) = false := by
    decide +kernel
  rw [← Char.ofNat_toNat c]
  apply hspaces
  simp only [isSpace, Bool.or_eq_true, Bool.and_eq_true, decide_eq_true_eq] at h
  simp only [List.mem_cons, List.not_mem_nil, or_false]
  omega

section

variable {K : Char → Bool} {r : Regex} (hr : Confined K r)
  (hblank : ∀ c, isSpace c = true → K c = false)

include hr hblank

theorem isMatch_gap {c : Char} (hc : isGap c = true) (kept cs : List Char) :
    r.isMatch (kept ++ c :: cs) = (r.isMatch kept || r.isMatch cs) := by
  have hgap : ∀ d ∈ [c], K d = false := by
    intro d hd
    obtain rfl := List.mem_singleton.1 hd
    exact hblank d (isSpace_of_isGap hc)
  have hsplit : kept ++ c :: cs = kept ++ [c] ++ cs := by
    simp
  rw [hsplit, hr.isMatch_append_append (List.cons_ne_nil c []) hgap]

/-- The flag tells that what is kept in front ends with a gap, or that nothing is kept. -/
theorem isMatch_collapse (inRun : Bool) (kept cs : List Char)
    (hrun : inRun = true → kept.getLast?.any K = false) :
    r.isMatch (kept ++ collapse inRun cs) = r.isMatch (kept ++ cs) := by
  have hempty : r.isMatch [] = false := hr.isMatch_of_outside fun c hc => by cases hc
  induction cs generalizing inRun kept with
  | nil => rfl
  | cons c cs ih =>
      have hafter : r.isMatch (collapse true cs) = r.isMatch cs := ih true [] fun _ => rfl
      rw [collapse]
      split
      · next hgap =>
        rw [isMatch_gap hr hblank hgap]
        split
        · next hin => rw [hr.isMatch_append (.inl (hrun hin)), hafter]
        · rw [isMatch_gap hr hblank rfl, hafter]
      · have hsplit (cs : List Char) : kept ++ c :: cs = kept ++ [c] ++ cs := by
          simp
        rw [hsplit cs, hsplit (collapse false cs)]
        exact ih false (kept ++ [c]) fun h => by cases h

/-- Tidying up gaps neither makes a match nor breaks one. -/
theorem isMatch_normalizeGaps (text : List Char) :
    r.isMatch (normalizeGaps text) = r.isMatch text := by
  have hoff {piece : List Char} (h : ∀ c ∈ piece, isSpace c = true) : ∀ c ∈ piece, K c = false :=
    fun c hc => hblank c (h c hc)
  obtain ⟨before, behind, htext, hbefore, hbehind⟩ := exists_eq_trim (collapse false text)
  have hcollapse := isMatch_collapse hr hblank false [] text fun h => by cases h
  rw [List.nil_append, List.nil_append, htext,
    hr.isMatch_append (.inr (any_head?_of_outside (hoff hbehind))),
    hr.isMatch_append (.inl (any_getLast?_of_outside (hoff hbefore))),
    hr.isMatch_of_outside (hoff hbefore), hr.isMatch_of_outside (hoff hbehind), Bool.false_or,
    Bool.or_false] at hcollapse
  exact hcollapse

end

/-! ### Replacing whole runs -/

/-- A text in which whole runs of a class have been replaced. There is no match in what is kept. -/
inductive Cut (K : Char → Bool) (r : Regex) (replacement : List Char) : List Char → List Char → Prop
  | done {text : List Char} (h : r.isMatch text = false) : Cut K r replacement text text
  | next {kept found rest after : List Char} (hkept : r.isMatch kept = false)
      (hlast : kept.getLast?.any K = false) (hne : found ≠ []) (hfound : ∀ c ∈ found, K c = true)
      (hhead : rest.head?.any K = false) (h : Cut K r replacement rest after) :
      Cut K r replacement (kept ++ found ++ rest) (kept ++ replacement ++ after)

namespace Cut

variable {K : Char → Bool} {r q : Regex} {replacement text after : List Char}

theorem head (h : Cut K r replacement text after) (hhead : text.head?.any K = false) :
    after.head?.any K = false := by
  cases h with
  | done h => exact hhead
  | @next kept found rest after hkept hlast hne hfound hrest h =>
      cases kept with
      | cons c kept => exact hhead
      | nil =>
          have hmeet : ([] ++ found ++ rest).head?.any K = true := by
            rw [List.nil_append, List.head?_append_of_ne_nil found hne]
            exact any_head?_of_inside hne hfound
          rw [hmeet] at hhead
          cases hhead

/-- For an expression of the same class no match comes up, if there was none or if it is what has been
searched for. -/
theorem isMatch_of_same (h : Cut K r replacement text after) (hq : Confined K q)
    (hreplacement : q.isMatch replacement = false) (hbefore : q = r ∨ q.isMatch text = false) :
    q.isMatch after = false := by
  induction h with
  | done h =>
      rcases hbefore with rfl | hbefore
      · exact h
      · exact hbefore
  | @next kept found rest after hkept hlast hne hfound hhead h ih =>
      have hparts : q.isMatch kept = false ∧ (q = r ∨ q.isMatch rest = false) := by
        rcases hbefore with rfl | hbefore
        · exact ⟨hkept, .inl rfl⟩
        · rw [hq.isMatch_append (.inr hhead), hq.isMatch_append (.inl hlast), Bool.or_eq_false_iff,
            Bool.or_eq_false_iff] at hbefore
          exact ⟨hbefore.1.1, .inr hbefore.2⟩
      rw [hq.isMatch_append (.inr (h.head hhead)), hq.isMatch_append (.inl hlast), hparts.1,
        hreplacement, ih hparts.2]
      rfl

/-- For an expression of another class there is a match just if there was one. -/
theorem isMatch_of_other {K' : Char → Bool} (h : Cut K r replacement text after)
    (hq : Confined K' q) (hother : ∀ c, K c = true → K' c = false) (hne : replacement ≠ [])
    (hreplacement : ∀ c ∈ replacement, K' c = false) : q.isMatch after = q.isMatch text := by
  induction h with
  | done h => rfl
  | @next kept found rest after hkept hlast hfne hfound hhead h ih =>
      rw [hq.isMatch_append_append hne hreplacement,
        hq.isMatch_append_append hfne fun c hc => hother c (hfound c hc), ih]

end Cut

/-- Where all that matches has been found, and what is found are whole runs, replacing it leaves no match
in what is kept. The number is the position from which on the text is replaced. -/
theorem cut_replaceSpans {K : Char → Bool} {r : Regex} (hr : Confined K r) (replacement : List Char)
    {text : List Char} {spans : List Span} (hordered : spans.Pairwise Span.Before)
    (hwhole : ∀ s ∈ spans, WholeAt K text s) {pos : Nat} (hpos : pos ≤ text.length)
    (hspans : ∀ s ∈ spans, pos ≤ s.start) (hstart : Apart K (text.take pos) (text.drop pos))
    (hall : ∀ m, MatchesAt r text m → pos ≤ m.start →
      ∃ t ∈ spans, t.start ≤ m.start ∧ m.start ≤ t.stop) :
    Cut K r replacement (text.drop pos) (replaceSpans replacement pos (text.drop pos) spans) := by
  induction spans generalizing pos with
  | nil =>
      apply Cut.done
      by_contra hmatch
      obtain ⟨m, hm⟩ := (isMatch_iff_matchesAt hr.labels).1 (Bool.not_eq_false _ ▸ hmatch)
      obtain ⟨t, ht, -⟩ := hall _ (hr.matchesAt_drop hpos hstart hm) (Nat.le_add_right pos _)
      cases ht
  | cons s spans ih =>
      obtain ⟨hs, hordered⟩ := List.pairwise_cons.1 hordered
      obtain ⟨kept, piece, h⟩ :=
        (hwhole s List.mem_cons_self).exists_parted (hspans s List.mem_cons_self)
      have hlength := h.length_kept
      have hreach : pos ≤ s.stop := Nat.le_trans (hspans s List.mem_cons_self) h.start_le_stop
      have hkept : r.isMatch kept = false := by
        by_contra hmatch
        obtain ⟨m, hm⟩ := (isMatch_iff_matchesAt hr.labels).1 (Bool.not_eq_false _ ▸ hmatch)
        have hin : MatchesAt r (text.drop pos) m := by
          rw [h.drop_eq, List.append_assoc]
          exact hr.matchesAt_left (.inl h.last) hm
        obtain ⟨t, ht, hle, -⟩ := hall _ (hr.matchesAt_drop hpos hstart hin) (Nat.le_add_right pos _)
        have hfirst : s.start ≤ t.start := by
          rcases List.mem_cons.1 ht with rfl | ht
          · exact Nat.le_refl _
          · exact Nat.le_trans h.start_le_stop (hs t ht).1
        have hlt := hr.start_lt_length hm
        simp only [Span.shift] at hle
        omega
      have hrest : Cut K r replacement (text.drop s.stop)
          (replaceSpans replacement s.stop (text.drop s.stop) spans) := by
        apply ih hordered (fun t ht => hwhole t (List.mem_cons_of_mem s ht)) h.stop_le_length
        · exact fun t ht => (hs t ht).1
        · exact .inr h.head
        · intro m hm hle
          obtain ⟨t, ht, hfirst, hlater⟩ := hall m hm (Nat.le_trans hreach hle)
          rcases List.mem_cons.1 ht with rfl | ht
          · -- a match that began where the run ends would go on with the run
            have hat : m.start = t.stop := Nat.le_antisymm hlater hle
            have hhead := hr.any_head?_drop hm
            rw [hat, h.head] at hhead
            cases hhead
          · exact ⟨t, ht, hfirst, hlater⟩
      have htake : (text.drop pos).take (s.start - pos) = kept := by
        rw [h.drop_eq, List.append_assoc]
        exact List.take_left' (by omega)
      rw [replaceSpans, htake, drop_drop_of_le hreach, h.drop_eq]
      exact .next hkept h.last h.ne_nil h.inside h.head hrest

/-! ### Rules of which one round is enough -/

/-- The rule puts a text in place of whole runs of a class, among which there is no white space, and
finds nothing in what it puts there. -/
structure Matcher.Sweeping (K : Char → Bool) (r : Regex) (replacement : String) (m : Matcher) :
    Prop where
  regex : m.regex = .ok r
  puts : m.rule.replacement = some replacement
  confined : Confined K r
  whole : FindsWhole K r
  blank : ∀ c, isSpace c = true → K c = false
  clean : r.isMatch replacement.toList = false

/-- Where another rule finds nothing, it finds nothing either after this rule. -/
def Matcher.Spares (m n : Matcher) : Prop :=
  ∀ text, n.finds text = false → n.finds (applyRule m text).1 = false

namespace Matcher.Sweeping

variable {K K' : Char → Bool} {r q : Regex} {replacement other : String} {m n : Matcher}

theorem finds_eq (hm : Sweeping K r replacement m) (text : List Char) :
    m.finds text = r.isMatch text := by
  rw [finds, hm.regex]

theorem cut (hm : Sweeping K r replacement m) (text : List Char) :
    Cut K r replacement.toList text (applyRule m text).1 := by
  have hr := hm.confined
  have hcut : Cut K r replacement.toList (text.drop 0)
      (replaceSpans replacement.toList 0 (text.drop 0) (r.matchesIn text)) := by
    apply cut_replaceSpans hr _ (matchesIn_ordered r text) (hm.whole text) (Nat.zero_le _)
    · exact fun s _ => Nat.zero_le _
    · exact .inl rfl
    · exact fun m hmatch _ => exists_matchesIn_around hr.labels hmatch
  rw [applyRule, hm.regex, hm.puts]
  exact hcut

/-- After it has been applied the rule finds nothing. -/
theorem not_finds (hm : Sweeping K r replacement m) (text : List Char) :
    m.finds (applyRule m text).1 = false := by
  rw [hm.finds_eq]
  exact (hm.cut text).isMatch_of_same hm.confined hm.clean (.inl rfl)

theorem spares_same (hm : Sweeping K r replacement m) (hn : Sweeping K q other n)
    (hclean : q.isMatch replacement.toList = false) : m.Spares n := by
  intro text h
  rw [hn.finds_eq] at h ⊢
  exact (hm.cut text).isMatch_of_same hn.confined hclean (.inr h)

theorem spares_other (hm : Sweeping K r replacement m) (hn : Sweeping K' q other n)
    (hother : ∀ c, K c = true → K' c = false) (hne : replacement.toList ≠ [])
    (hreplacement : ∀ c ∈ replacement.toList, K' c = false) : m.Spares n := by
  intro text h
  rw [hn.finds_eq] at h ⊢
  rw [(hm.cut text).isMatch_of_other hn.confined hother hne hreplacement]
  exact h

theorem finds_normalizeGaps (hm : Sweeping K r replacement m) (text : List Char) :
    m.finds (normalizeGaps text) = m.finds text := by
  rw [hm.finds_eq, hm.finds_eq]
  exact isMatch_normalizeGaps hm.confined hm.blank text

end Matcher.Sweeping

/-- Rules that each spare those before them leave nothing that any of them finds. -/
theorem not_finds_applyRules {ms : List Matcher}
    (hown : ∀ m ∈ ms, ∀ text, m.finds (applyRule m text).1 = false)
    (hspares : ms.Pairwise fun n m => m.Spares n) (text : List Char) :
    ∀ m ∈ ms, m.finds (applyRules text ms).1 = false := by
  have hkept {n : Matcher} {ms : List Matcher} (hspares : ∀ m ∈ ms, m.Spares n) {text : List Char}
      (h : n.finds text = false) : n.finds (applyRules text ms).1 = false := by
    induction ms generalizing text with
    | nil => exact h
    | cons m ms ih =>
        rw [applyRules]
        exact ih (fun k hk => hspares k (List.mem_cons_of_mem m hk))
          (hspares m List.mem_cons_self text h)
  induction ms generalizing text with
  | nil =>
      intro m hm
      cases hm
  | cons m ms ih =>
      obtain ⟨hfirst, hspares⟩ := List.pairwise_cons.1 hspares
      intro n hn
      rw [applyRules]
      rcases List.mem_cons.1 hn with rfl | hn
      · exact hkept hfirst (hown n List.mem_cons_self text)
      · exact ih (fun m hm => hown m (List.mem_cons_of_mem _ hm)) hspares _ n hn

theorem transform_transform {ms : List Matcher}
    (hown : ∀ m ∈ ms, ∀ text, m.finds (applyRule m text).1 = false)
    (hspares : ms.Pairwise fun n m => m.Spares n)
    (hgaps : ∀ m ∈ ms, ∀ text, m.finds (normalizeGaps text) = m.finds text) (text : List Char) :
    transform ms (transform ms text).1 = ((transform ms text).1, []) := by
  have hrules := not_finds_applyRules hown hspares text
  apply transform_of_not_finds
  intro m hm
  rw [transform]
  simp only
  split
  · exact hrules m hm
  · rw [hgaps m hm]
    exact hrules m hm

/-! ### The built-in rules -/

/-- The rule puts a text in place of a word. -/
theorem Matcher.sweeping_lone {m : Matcher} {word : List Char} {replacement : String}
    (hregex : m.regex = .ok (lone word)) (hreplacement : m.rule.replacement = some replacement)
    (hne : word ≠ [])
    (hword : word.all (fun c => (CharSet.forms c).allWord) = true)
    (hclean : (lone word).isMatch replacement.toList = false) :
    m.Sweeping isWord (lone word) replacement := by
  have hletters : ∀ c ∈ word, ∀ d, (CharSet.forms c).contains d = true → isWord d = true := by
    intro c hc d hd
    exact CharSet.isWord_of_contains (List.all_eq_true.1 hword c hc) hd
  exact ⟨hregex, hreplacement, confined_lone hne hletters, findsWhole_lone hne hletters,
    fun c => isWord_of_isSpace, hclean⟩

def urgentRule : Rule := .transform "xfm-001" .urgency "\\bURGENT\\b" "" "Urgency marker"

def asapRule : Rule :=
  .transform "xfm-002" .urgency "\\bASAP\\b" "when you are able" "Urgency abbreviation"

def immediatelyRule : Rule :=
  .transform "xfm-003" .urgency "\\bimmediately\\b" "when you are able" "Immediacy pressure"

def exclamationRule : Rule :=
  .transform "xfm-004" .urgency "!\x7b2,\x7d" "!" "Repeated exclamation"

theorem sweeping_urgent :
    (Matcher.ofRule .none urgentRule).Sweeping isWord (lone "URGENT".toList) "" := by
  apply Matcher.sweeping_lone <;> decide +kernel

theorem sweeping_asap :
    (Matcher.ofRule .none asapRule).Sweeping isWord (lone "ASAP".toList) "when you are able" := by
  apply Matcher.sweeping_lone <;> decide +kernel

theorem sweeping_immediately : (Matcher.ofRule .none immediatelyRule).Sweeping isWord
    (lone "immediately".toList) "when you are able" := by
  apply Matcher.sweeping_lone <;> decide +kernel

theorem sweeping_exclamation :
    (Matcher.ofRule .none exclamationRule).Sweeping (· == '!') (repeated '!') "!" := by
  have hregex : (Matcher.ofRule .none exclamationRule).regex = .ok (repeated '!') := by
    decide +kernel
  refine ⟨hregex, rfl, confined_repeated, findsWhole_repeated, fun c hc => ?_, by decide +kernel⟩
  rw [beq_eq_false_iff_ne]
  rintro rfl
  cases hc

/-- Where a word stands alone, exclamation marks on either side of it are no part of it. -/
theorem exclamation_spares {m : Matcher} {r : Regex} {replacement : String}
    (hm : m.Sweeping isWord r replacement) : (Matcher.ofRule .none exclamationRule).Spares m := by
  have hmark : isWord '!' = false := by
    decide +kernel
  apply sweeping_exclamation.spares_other hm
  · intro c hc
    rw [beq_iff_eq.1 hc, hmark]
  · decide
  · intro c hc
    obtain rfl := List.mem_singleton.1 hc
    exact hmark

namespace Filter

theorem urgencyRules_eq :
    urgencyRules = [urgentRule, asapRule, immediatelyRule, exclamationRule] := rfl

theorem urgencyRules_settle (text : List Char) :
    transform (urgencyRules.map (.ofRule .none))
        (transform (urgencyRules.map (.ofRule .none)) text).1 =
      ((transform (urgencyRules.map (.ofRule .none)) text).1, []) := by
  have hurgent : (lone "URGENT".toList).isMatch "when you are able".toList = false := by
    decide +kernel
  rw [urgencyRules_eq]
  apply transform_transform
  · simp only [List.map_cons, List.map_nil, List.forall_mem_cons]
    exact ⟨sweeping_urgent.not_finds, sweeping_asap.not_finds, sweeping_immediately.not_finds,
      sweeping_exclamation.not_finds, List.forall_mem_nil _⟩
  · simp only [List.map_cons, List.map_nil, List.pairwise_cons, List.forall_mem_cons,
      List.not_mem_nil, false_imp_iff, implies_true, and_true, List.Pairwise.nil]
    refine ⟨⟨?_, ?_, exclamation_spares sweeping_urgent⟩, ⟨?_, exclamation_spares sweeping_asap⟩,
      exclamation_spares sweeping_immediately⟩
    · exact sweeping_asap.spares_same sweeping_urgent hurgent
    · exact sweeping_immediately.spares_same sweeping_urgent hurgent
    · exact sweeping_immediately.spares_same sweeping_asap sweeping_asap.clean
  · simp only [List.map_cons, List.map_nil, List.forall_mem_cons]
    exact ⟨sweeping_urgent.finds_normalizeGaps, sweeping_asap.finds_normalizeGaps,
      sweeping_immediately.finds_normalizeGaps, sweeping_exclamation.finds_normalizeGaps,
      List.forall_mem_nil _⟩

/-- The built-in library has a stage for transforming, made of four rules that can be used, and this
stage changes nothing more in what it has made of any text. -/
theorem builtin_settles (props : Properties) : ∃ l, Library.builtin props = .ok l ∧
    l.transforming.map (fun m => (m.rule.id, m.fault?)) =
      [("xfm-001", none), ("xfm-002", none), ("xfm-003", none), ("xfm-004", none)] ∧
    ∀ text, transform l.transforming (transform l.transforming text).1 =
      ((transform l.transforming text).1, []) := by
  have hnodup : (Library.builtinRules.map Rule.id).Nodup := by
    decide +kernel
  have hsorted : (Library.sortRules Library.builtinRules).filter (fun r => r.severity = .transform) =
      urgencyRules := by
    decide +kernel
  have husable : (urgencyRules.map (Matcher.ofRule .none)).map (fun m => (m.rule.id, m.fault?)) =
      [("xfm-001", none), ("xfm-002", none), ("xfm-003", none), ("xfm-004", none)] := by
    decide +kernel
  -- none of the rules names a property
  have hstage : Library.stage props .transform (Library.sortRules Library.builtinRules) =
      urgencyRules.map (.ofRule .none) := by
    rw [Library.stage, hsorted]
    exact List.map_congr_left fun r hr =>
      Matcher.ofRule_of_none (Matcher.fault?_ofRule.2 (urgencyRules_changing r hr).2)
  refine ⟨_, Library.ofRules_of_nodup (by decide +kernel) hnodup, ?_⟩
  simp only [hstage]
  exact ⟨husable, urgencyRules_settle⟩

end Filter

end Curia
