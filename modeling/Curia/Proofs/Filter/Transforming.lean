import Mathlib.Data.List.Chain
import Curia.Filter.Stages
import Curia.Proofs.Regex.Matching
import Curia.Proofs.Text.Trimming

/-!
What becomes of a text that is transformed. Its characters keep their order; some are left out, and
those that are written anew come from the replacements that are recorded, or are the spaces of gaps
that have been tidied up.
-/

namespace Curia

/-- One text becomes another when some of its characters are left out and some characters of which
`new` holds are written. -/
inductive Reworked (new : Char → Prop) : List Char → List Char → Prop
  | done : Reworked new [] []
  | keep {s t : List Char} (c : Char) (h : Reworked new s t) : Reworked new (c :: s) (c :: t)
  | drop {s t : List Char} (c : Char) (h : Reworked new s t) : Reworked new (c :: s) t
  | write {s t : List Char} {c : Char} (hc : new c) (h : Reworked new s t) : Reworked new s (c :: t)

namespace Reworked

theorem of_sublist {new : Char → Prop} {s t : List Char} (h : t.Sublist s) : Reworked new s t := by
  induction h with
  | slnil => exact .done
  | cons c _ ih => exact .drop c ih
  | cons_cons c _ ih => exact .keep c ih

theorem refl (new : Char → Prop) (s : List Char) : Reworked new s s := of_sublist (.refl s)

theorem of_new {new : Char → Prop} {t : List Char} (h : ∀ c ∈ t, new c) : Reworked new [] t := by
  induction t with
  | nil => exact .done
  | cons c t ih =>
      have hrest : ∀ d ∈ t, new d := fun d hd => h d (List.mem_cons_of_mem c hd)
      exact .write (h c List.mem_cons_self) (ih hrest)

theorem append {new : Char → Prop} {s t s' t' : List Char} (h : Reworked new s t)
    (h' : Reworked new s' t') : Reworked new (s ++ s') (t ++ t') := by
  induction h with
  | done => exact h'
  | keep c _ ih => exact .keep c ih
  | drop c _ ih => exact .drop c ih
  | write hc _ ih => exact .write hc ih

theorem mono {new new' : Char → Prop} (hnew : ∀ c, new c → new' c) {s t : List Char}
    (h : Reworked new s t) : Reworked new' s t := by
  induction h with
  | done => exact .done
  | keep c _ ih => exact .keep c ih
  | drop c _ ih => exact .drop c ih
  | write hc _ ih => exact .write (hnew _ hc) ih

theorem trans {new : Char → Prop} {s t u : List Char} (h : Reworked new s t)
    (h' : Reworked new t u) : Reworked new s u := by
  induction h' generalizing s with
  | done => exact h
  | write hc _ ih => exact .write hc (ih h)
  | keep c h' ih =>
      -- the character that is kept has been kept before, or has been written before
      generalize ht : c :: _ = t at h
      induction h with
      | done => cases ht
      | keep d h =>
          cases ht
          exact .keep c (ih h)
      | drop d _ ihdrop => exact .drop d (ihdrop ht)
      | write hc h =>
          cases ht
          exact .write hc (ih h)
  | drop c h' ih =>
      generalize ht : c :: _ = t at h
      induction h with
      | done => cases ht
      | keep d h =>
          cases ht
          exact .drop c (ih h)
      | drop d _ ihdrop => exact .drop d (ihdrop ht)
      | write hc h =>
          cases ht
          exact ih h

end Reworked

/-! ### Replacing -/

theorem replaceSpans_reworked (replacement : List Char) {spans : List Regex.Span}
    (hspans : ∀ s ∈ spans, s.start ≤ s.stop) (pos : Nat) (text : List Char) :
    Reworked (· ∈ replacement) text (replaceSpans replacement pos text spans) := by
  induction spans generalizing pos text with
  | nil => exact .refl _ text
  | cons s rest ih =>
      have hle : s.start - pos ≤ s.stop - pos :=
        Nat.sub_le_sub_right (hspans s List.mem_cons_self) pos
      have hleft : Reworked (· ∈ replacement) (text.drop (s.start - pos))
          (text.drop (s.stop - pos)) :=
        .of_sublist (List.drop_sublist_drop_left text hle)
      have hrest := ih (fun s hs => hspans s (List.mem_cons_of_mem _ hs)) s.stop
        (text.drop (s.stop - pos))
      have hwritten : Reworked (· ∈ replacement) [] replacement := .of_new fun _ hc => hc
      -- up to the span the text is kept, and after it the rest is replaced
      rw [replaceSpans, List.append_assoc]
      conv => arg 2; rw [← List.take_append_drop (s.start - pos) text]
      exact (Reworked.refl _ _).append (hwritten.append (hleft.trans hrest))

/-- The characters of the replacements that are recorded. -/
def Replaced (changes : List Change) (c : Char) : Prop :=
  ∃ change ∈ changes, c ∈ change.replacement.toList

theorem applyRule_reworked (m : Matcher) (text : List Char) :
    Reworked (Replaced (applyRule m text).2) text (applyRule m text).1 := by
  rw [applyRule]
  split
  · next regex replacement _ _ =>
    have hle : ∀ s ∈ regex.matchesIn text, s.start ≤ s.stop :=
      fun s hs => (Regex.matchesIn_matchesAt hs).start_le_stop
    cases hspans : regex.matchesIn text with
    | nil => exact .refl _ text
    | cons s rest =>
        rw [hspans] at hle
        exact (replaceSpans_reworked _ hle 0 text).mono fun c hc => ⟨_, List.mem_cons_self, hc⟩
  · exact .refl _ text

theorem applyRules_reworked (text : List Char) (ms : List Matcher) :
    Reworked (Replaced (applyRules text ms).2) text (applyRules text ms).1 := by
  induction ms generalizing text with
  | nil => exact .refl _ text
  | cons m ms ih =>
      rw [applyRules]
      have hfirst : ∀ c, Replaced (applyRule m text).2 c →
          Replaced ((applyRule m text).2 ++ (applyRules (applyRule m text).1 ms).2) c :=
        fun c ⟨change, hchange, hc⟩ => ⟨change, List.mem_append_left _ hchange, hc⟩
      have hrest : ∀ c, Replaced (applyRules (applyRule m text).1 ms).2 c →
          Replaced ((applyRule m text).2 ++ (applyRules (applyRule m text).1 ms).2) c :=
        fun c ⟨change, hchange, hc⟩ => ⟨change, List.mem_append_right _ hchange, hc⟩
      exact ((applyRule_reworked m text).mono hfirst).trans ((ih _).mono hrest)

/-- A rule that records no change makes none. -/
theorem applyRule_of_unchanged {m : Matcher} {text : List Char} (h : (applyRule m text).2 = []) :
    (applyRule m text).1 = text := by
  rw [applyRule] at h ⊢
  split at h
  · next regex replacement _ _ =>
    simp only [changesAt, List.map_eq_nil_iff] at h
    simp only [h, replaceSpans]
  · rfl

theorem applyRules_of_unchanged {ms : List Matcher} {text : List Char}
    (h : (applyRules text ms).2 = []) : (applyRules text ms).1 = text := by
  induction ms generalizing text with
  | nil => rfl
  | cons m ms ih =>
      rw [applyRules] at h ⊢
      obtain ⟨hfirst, hrest⟩ := List.append_eq_nil_iff.1 h
      have hkept := applyRule_of_unchanged hfirst
      simp only [hkept] at hrest ⊢
      exact ih hrest

/-! ### Gaps -/

theorem isSpace_of_isGap {c : Char} (h : isGap c = true) : isSpace c = true := by
  rw [isGap, Bool.or_eq_true, decide_eq_true_eq, decide_eq_true_eq] at h
  rcases h with rfl | rfl <;> rfl

theorem collapse_reworked (inRun : Bool) (text : List Char) :
    Reworked (· = ' ') text (collapse inRun text) := by
  induction text generalizing inRun with
  | nil => exact .done
  | cons c cs ih =>
      rw [collapse]
      split
      · split
        · exact .drop c (ih true)
        · exact .write rfl (.drop c (ih true))
      · exact .keep c (ih false)

theorem normalizeGaps_reworked (text : List Char) :
    Reworked (· = ' ') text (normalizeGaps text) :=
  (collapse_reworked false text).trans (.of_sublist (trim_isInfix _).sublist)

theorem length_normalizeGaps_le (text : List Char) :
    (normalizeGaps text).length ≤ text.length := by
  have hcollapse (inRun : Bool) (text : List Char) : (collapse inRun text).length ≤ text.length := by
    induction text generalizing inRun with
    | nil => exact Nat.le_refl 0
    | cons c cs ih =>
        have hrun := ih true
        have hrest := ih false
        rw [collapse]
        split
        · split <;> simp only [List.length_cons] <;> omega
        · simp only [List.length_cons]
          omega
  exact Nat.le_trans (trim_isInfix _).length_le (hcollapse false text)

/-- The gaps of a text are single spaces. -/
structure Spaced (text : List Char) : Prop where
  space : ∀ c ∈ text, isGap c = true → c = ' '
  single : text.IsChain fun c d => isGap c = false ∨ isGap d = false

theorem Spaced.within {text piece : List Char} (h : Spaced text) (hpiece : piece <:+: text) :
    Spaced piece :=
  ⟨fun c hc => h.space c (hpiece.subset hc), List.IsChain.infix h.single hpiece⟩

theorem spaced_collapse (inRun : Bool) (text : List Char) : Spaced (collapse inRun text) ∧
    (inRun = true → ∀ c ∈ (collapse inRun text).head?, isGap c = false) := by
  induction text generalizing inRun with
  | nil => exact ⟨⟨fun c hc => (by cases hc), .nil⟩, fun _ c hc => by cases hc⟩
  | cons c cs ih =>
      obtain ⟨hrun, hhead⟩ := ih true
      obtain ⟨hrest, -⟩ := ih false
      rw [collapse]
      split
      · split
        · exact ⟨hrun, fun _ => hhead rfl⟩
        · next hfirst =>
          refine ⟨⟨?_, List.isChain_cons.2 ⟨fun d hd => .inr (hhead rfl d hd), hrun.single⟩⟩,
            fun h => absurd h hfirst⟩
          intro d hd hgap
          rcases List.mem_cons.1 hd with rfl | hd
          · rfl
          · exact hrun.space d hd hgap
      · next hgap =>
        rw [Bool.not_eq_true] at hgap
        refine ⟨⟨?_, List.isChain_cons.2 ⟨fun d _ => .inl hgap, hrest.single⟩⟩, ?_⟩
        · intro d hd hd'
          rcases List.mem_cons.1 hd with rfl | hd
          · rw [hgap] at hd'
            cases hd'
          · exact hrest.space d hd hd'
        · intro _ d hd
          obtain rfl : c = d := Option.some.inj hd
          exact hgap

theorem Spaced.collapse_eq {text : List Char} (h : Spaced text) {inRun : Bool}
    (hhead : inRun = true → ∀ c ∈ text.head?, isGap c = false) : collapse inRun text = text := by
  induction text generalizing inRun with
  | nil => rfl
  | cons c cs ih =>
      obtain ⟨hnext, -⟩ := List.isChain_cons.1 h.single
      have hspaced : Spaced cs := h.within (List.suffix_cons c cs).isInfix
      rw [collapse]
      split
      · next hgap =>
        have hrun : collapse true cs = cs := by
          apply ih hspaced
          intro _ d hd
          exact (hnext d hd).resolve_left (by simp [hgap])
        split
        · next hfirst =>
          have := hhead hfirst c rfl
          rw [hgap] at this
          cases this
        · rw [hrun, h.space c List.mem_cons_self hgap]
      · rw [ih hspaced fun h => by cases h]

theorem spaced_normalizeGaps (text : List Char) : Spaced (normalizeGaps text) :=
  (spaced_collapse false text).1.within (trim_isInfix _)

/-- Gaps that have been tidied up are left as they are. -/
theorem normalizeGaps_normalizeGaps (text : List Char) :
    normalizeGaps (normalizeGaps text) = normalizeGaps text := by
  calc normalizeGaps (normalizeGaps text) = trim (collapse false (normalizeGaps text)) := rfl
    _ = trim (normalizeGaps text) := by
      rw [(spaced_normalizeGaps text).collapse_eq fun h => by cases h]
    _ = normalizeGaps text := trim_trim _

/-! ### The stage -/

theorem transform_of_unchanged {ms : List Matcher} {text : List Char}
    (h : (transform ms text).2 = []) : (transform ms text).1 = text := by
  have hchanges : (applyRules text ms).2 = [] := h
  rw [transform]
  simp only [hchanges, List.isEmpty_nil, if_true]
  exact applyRules_of_unchanged hchanges

theorem transform_reworked (ms : List Matcher) (text : List Char) :
    Reworked (fun c => c = ' ' ∨ Replaced (transform ms text).2 c) text (transform ms text).1 := by
  have hrules : Reworked (fun c => c = ' ' ∨ Replaced (transform ms text).2 c) text
      (applyRules text ms).1 :=
    (applyRules_reworked text ms).mono fun _ => .inr
  rw [transform] at hrules ⊢
  simp only at hrules ⊢
  split
  · exact hrules
  · exact hrules.trans ((normalizeGaps_reworked _).mono fun _ => .inl)

end Curia
