import Curia.Proofs.Filter.Transforming

/-!
What a text is like when its gaps have been tidied up, and what has not become of it. The words stay
as they are, with a single space between them, and there is no white space at the ends. Texts with
the same words are tidied up to the same text.
-/

namespace Curia

/-! ### Words and gaps -/

/-- The text with its spaces and tabs deleted. -/
def withoutGaps (text : List Char) : List Char := text.filter fun c => !isGap c

/-- Two characters that are neither spaces nor tabs stand side by side, and `n` such characters come
before them. -/
structure SideBySide (text : List Char) (n : Nat) (c d : Char) : Prop where
  left : isGap c = false
  right : isGap d = false
  exists_eq : ∃ before behind, text = before ++ c :: d :: behind ∧ (withoutGaps before).length = n

/-- The pieces of a text between its gaps. -/
def words (text : List Char) : List (List Char) :=
  (text.splitOnP isGap).filter fun w => !w.isEmpty

variable {text rest : List Char} {a b c d : Char} {n : Nat}

theorem withoutGaps_cons_gap (h : isGap a = true) :
    withoutGaps (a :: rest) = withoutGaps rest := by
  simp [withoutGaps, h]

theorem withoutGaps_cons (h : isGap a = false) :
    withoutGaps (a :: rest) = a :: withoutGaps rest := by
  simp [withoutGaps, h]

theorem sideBySide_cons_gap (h : isGap a = true) :
    SideBySide (a :: rest) n c d ↔ SideBySide rest n c d := by
  constructor
  · rintro ⟨hc, hd, before, behind, heq, hn⟩
    cases before with
    | nil =>
        obtain ⟨rfl, -⟩ := List.cons.inj heq
        rw [h] at hc
        cases hc
    | cons b before =>
        obtain ⟨rfl, hrest⟩ := List.cons.inj heq
        rw [withoutGaps_cons_gap h] at hn
        exact ⟨hc, hd, before, behind, hrest, hn⟩
  · rintro ⟨hc, hd, before, behind, rfl, hn⟩
    exact ⟨hc, hd, a :: before, behind, rfl, by rw [withoutGaps_cons_gap h, hn]⟩

theorem sideBySide_cons (h : isGap a = false) : SideBySide (a :: rest) n c d ↔
    (n = 0 ∧ c = a ∧ isGap d = false ∧ rest.head? = some d) ∨
      ∃ m, n = m + 1 ∧ SideBySide rest m c d := by
  constructor
  · rintro ⟨hc, hd, before, behind, heq, rfl⟩
    cases before with
    | nil =>
        obtain ⟨rfl, rfl⟩ := List.cons.inj heq
        exact .inl ⟨rfl, rfl, hd, rfl⟩
    | cons b before =>
        obtain ⟨rfl, hrest⟩ := List.cons.inj heq
        rw [withoutGaps_cons h]
        exact .inr ⟨_, rfl, hc, hd, before, behind, hrest, rfl⟩
  · rintro (⟨rfl, rfl, hd, hhead⟩ | ⟨m, rfl, hc, hd, before, behind, rfl, rfl⟩)
    · obtain ⟨behind, rfl⟩ := List.head?_eq_some_iff.1 hhead
      exact ⟨h, hd, [], behind, rfl, rfl⟩
    · exact ⟨hc, hd, a :: before, behind, rfl, by rw [withoutGaps_cons h]; rfl⟩

theorem words_cons_gap (h : isGap a = true) : words (a :: rest) = words rest := by
  simp [words, List.splitOnP_cons_eq_if_modifyHead, h]

theorem words_singleton (h : isGap a = false) : words [a] = [[a]] := by
  simp [words, List.splitOnP_cons_eq_if_modifyHead, h]

theorem words_cons_cons_gap (ha : isGap a = false) (hb : isGap b = true) :
    words (a :: b :: rest) = [a] :: words rest := by
  simp [words, List.splitOnP_cons_eq_if_modifyHead, ha, hb]

/-- A character in front of a word belongs to the word. -/
theorem exists_words_cons (hb : isGap b = false) (rest : List Char) :
    ∃ w ws, words (b :: rest) = w :: ws ∧
      ∀ a, isGap a = false → words (a :: b :: rest) = (a :: w) :: ws := by
  obtain ⟨w, ws, hsplit⟩ := List.exists_cons_of_ne_nil (List.splitOnP_ne_nil isGap rest)
  refine ⟨b :: w, ws.filter fun w => !w.isEmpty, ?_, fun a ha => ?_⟩
  · simp [words, List.splitOnP_cons_eq_if_modifyHead, hb, hsplit]
  · simp [words, List.splitOnP_cons_eq_if_modifyHead, ha, hb, hsplit]

theorem flatten_words (text : List Char) : (words text).flatten = withoutGaps text := by
  induction text with
  | nil => rfl
  | cons a rest ih =>
      by_cases ha : isGap a = true
      · rw [words_cons_gap ha, withoutGaps_cons_gap ha, ih]
      · rw [Bool.not_eq_true] at ha
        rw [withoutGaps_cons ha, ← ih]
        cases rest with
        | nil => rw [words_singleton ha]; rfl
        | cons b rest =>
            by_cases hb : isGap b = true
            · rw [words_cons_cons_gap ha hb, words_cons_gap hb]
              rfl
            · rw [Bool.not_eq_true] at hb
              obtain ⟨w, ws, hwords, hcons⟩ := exists_words_cons hb rest
              rw [hwords, hcons a ha]
              rfl

theorem words_ne_nil (hne : text ≠ []) (h : ∀ c ∈ text.getLast?, isGap c = false) :
    words text ≠ [] := by
  intro hwords
  have hlast : isGap (text.getLast hne) = false := h _ (List.getLast?_eq_some_getLast hne)
  have hmem : text.getLast hne ∈ withoutGaps text :=
    List.mem_filter.2 ⟨List.getLast_mem hne, by rw [hlast]; rfl⟩
  rw [← flatten_words, hwords] at hmem
  cases hmem

/-! ### Collapsing gaps -/

theorem head?_collapse (hd : isGap d = false) :
    (collapse false text).head? = some d ↔ text.head? = some d := by
  cases text with
  | nil => rfl
  | cons a rest =>
      by_cases ha : isGap a = true
      · have hne : a ≠ d := fun h => by simp [h, hd] at ha
        have hspace : ' ' ≠ d := fun h => by simp [← h, isGap] at hd
        simp [collapse, ha, hne, hspace]
      · simp [collapse, ha]

theorem sideBySide_collapse (inRun : Bool) (text : List Char) (n : Nat) (c d : Char) :
    SideBySide (collapse inRun text) n c d ↔ SideBySide text n c d := by
  induction text generalizing inRun n with
  | nil => rfl
  | cons a rest ih =>
      rw [collapse]
      split
      · next ha =>
        rw [sideBySide_cons_gap ha]
        split
        · exact ih true n
        · exact (sideBySide_cons_gap rfl).trans (ih true n)
      · next ha =>
        rw [Bool.not_eq_true] at ha
        rw [sideBySide_cons ha, sideBySide_cons ha]
        refine or_congr ?_ (exists_congr fun m => and_congr_right fun _ => ih false m)
        exact and_congr_right fun _ => and_congr_right fun _ => and_congr_right head?_collapse

theorem words_collapse (inRun : Bool) (text : List Char) :
    words (collapse inRun text) = words text := by
  induction text generalizing inRun with
  | nil => rfl
  | cons a rest ih =>
      rw [collapse]
      split
      · next ha =>
        rw [words_cons_gap ha]
        split
        · exact ih true
        · exact (words_cons_gap rfl).trans (ih true)
      · next ha =>
        rw [Bool.not_eq_true] at ha
        -- whether the word of `a` goes on is told by the next character
        cases rest with
        | nil => rfl
        | cons b rest =>
            have ih := ih false
            rw [collapse] at ih ⊢
            split at ih
            · next hb =>
              rw [words_cons_gap hb] at ih
              rw [if_pos hb, words_cons_cons_gap ha hb, ← ih]
              exact words_cons_cons_gap ha rfl
            · next hb =>
              rw [if_neg hb]
              rw [Bool.not_eq_true] at hb
              obtain ⟨w, ws, hwords, hcons⟩ := exists_words_cons hb rest
              obtain ⟨w', ws', hwords', hcons'⟩ := exists_words_cons hb (collapse false rest)
              rw [hwords, hwords'] at ih
              obtain ⟨rfl, rfl⟩ := List.cons.inj ih
              rw [hcons a ha, hcons' a ha]

theorem withoutGaps_collapse (inRun : Bool) (text : List Char) :
    withoutGaps (collapse inRun text) = withoutGaps text := by
  rw [← flatten_words, words_collapse, flatten_words]

theorem mem_collapse {inRun : Bool} (h : c ∈ collapse inRun text) : c = ' ' ∨ c ∈ text := by
  induction text generalizing inRun with
  | nil => cases h
  | cons a rest ih =>
      rw [collapse] at h
      split at h
      · split at h
        · exact (ih h).imp_right (List.mem_cons_of_mem a)
        · rcases List.mem_cons.1 h with rfl | h
          · exact .inl rfl
          · exact (ih h).imp_right (List.mem_cons_of_mem a)
      · rcases List.mem_cons.1 h with rfl | h
        · exact .inr List.mem_cons_self
        · exact (ih h).imp_right (List.mem_cons_of_mem a)

/-- What a piece of a text is collapsed to does not depend on what follows. -/
theorem exists_collapse_append (inRun : Bool) (text : List Char) : ∃ after, ∀ rest,
    collapse inRun (text ++ rest) = collapse inRun text ++ collapse after rest := by
  induction text generalizing inRun with
  | nil => exact ⟨inRun, fun rest => rfl⟩
  | cons a text ih =>
      simp only [List.cons_append, collapse]
      split
      · obtain ⟨after, hafter⟩ := ih true
        refine ⟨after, fun rest => ?_⟩
        rw [hafter]
        split <;> rfl
      · obtain ⟨after, hafter⟩ := ih false
        exact ⟨after, fun rest => by rw [hafter]; rfl⟩

theorem collapse_eq_of_head? (h : ∀ c ∈ text.head?, isGap c = false) (inRun : Bool) :
    collapse inRun text = collapse false text := by
  cases text with
  | nil => rfl
  | cons a rest =>
      have ha : isGap a = false := h a rfl
      simp [collapse, ha]

/-- A text that does not end with a gap is collapsed to its words with a space between them. -/
theorem collapse_eq_intercalate (h : ∀ c ∈ text.getLast?, isGap c = false) :
    collapse true text = [' '].intercalate (words text) := by
  induction text with
  | nil => rfl
  | cons a rest ih =>
      have hrest : ∀ c ∈ rest.getLast?, isGap c = false := fun c hc => h c (by
        rw [List.getLast?_cons, Option.mem_def.1 hc]
        rfl)
      have ih := ih hrest
      rw [collapse]
      split
      · next ha => rw [if_pos rfl, ih, words_cons_gap ha]
      · next ha =>
        rw [Bool.not_eq_true] at ha
        cases rest with
        | nil => rw [words_singleton ha, List.intercalate_singleton]; rfl
        | cons b rest =>
            by_cases hb : isGap b = true
            · -- a word follows the gap, as the text does not end with one
              have hne : words rest ≠ [] := by
                rw [← words_cons_gap hb]
                exact words_ne_nil (List.cons_ne_nil b rest) hrest
              rw [words_cons_cons_gap ha hb, List.intercalate_cons_of_ne_nil hne,
                ← words_cons_gap hb, ← ih]
              simp [collapse, hb]
            · rw [Bool.not_eq_true] at hb
              obtain ⟨w, ws, hwords, hcons⟩ := exists_words_cons hb rest
              have hhead : ∀ c ∈ (b :: rest).head?, isGap c = false := by
                rintro c hc
                obtain rfl := Option.some.inj hc
                exact hb
              rw [hcons a ha, List.intercalate_cons_cons_left, ← hwords, ← ih,
                collapse_eq_of_head? hhead true]

/-! ### Trimmed texts -/

theorem isGap_of_not_isSpace (h : isSpace c = false) : isGap c = false := by
  rw [← Bool.not_eq_true] at h ⊢
  exact mt isSpace_of_isGap h

theorem Flush.collapse_eq (h : Flush text) (inRun : Bool) :
    collapse inRun text = collapse false text :=
  collapse_eq_of_head? (fun c hc => isGap_of_not_isSpace (h.head c hc)) inRun

theorem flush_collapse (h : Flush text) (inRun : Bool) : Flush (collapse inRun text) := by
  constructor
  · cases text with
    | nil => exact h.head
    | cons a rest =>
        have ha : isGap a = false := isGap_of_not_isSpace (h.head a rfl)
        rw [collapse, ha]
        exact h.head
  · rcases List.eq_nil_or_concat' text with rfl | ⟨text, a, rfl⟩
    · exact h.last
    · have ha : isSpace a = false := h.last a List.getLast?_concat
      obtain ⟨after, hafter⟩ := exists_collapse_append inRun text
      rw [hafter, collapse, isGap_of_not_isSpace ha]
      intro c hc
      obtain rfl : a = c := by simpa [collapse] using hc
      exact ha

/-- Collapsing the gaps and trimming the text can be done in either order. -/
theorem trims_collapse (text : List Char) :
    Trims (collapse false text) (collapse false (trim text)) := by
  obtain ⟨hflush, before, behind, htext, hbefore, hbehind⟩ := trims_trim text
  obtain ⟨inRun, hinRun⟩ := exists_collapse_append false before
  obtain ⟨after, hafter⟩ := exists_collapse_append inRun (trim text)
  have hblank {inRun : Bool} {piece : List Char} (h : ∀ c ∈ piece, isSpace c = true) :
      ∀ c ∈ collapse inRun piece, isSpace c = true := by
    intro c hc
    rcases mem_collapse hc with rfl | hc
    · rfl
    · exact h c hc
  refine ⟨flush_collapse hflush false, collapse false before, collapse after behind, ?_,
    hblank hbefore, hblank hbehind⟩
  calc collapse false text = collapse false (before ++ (trim text ++ behind)) := by
        rw [← List.append_assoc, ← htext]
    _ = collapse false before ++ (collapse inRun (trim text) ++ collapse after behind) := by
        rw [hinRun, hafter]
    _ = collapse false before ++ collapse false (trim text) ++ collapse after behind := by
        rw [hflush.collapse_eq inRun, List.append_assoc]

theorem normalizeGaps_eq_collapse (text : List Char) :
    normalizeGaps text = collapse false (trim text) :=
  (trims_collapse text).trim_eq

theorem words_normalizeGaps (text : List Char) :
    words (normalizeGaps text) = words (trim text) := by
  rw [normalizeGaps_eq_collapse, words_collapse]

/-- A text that has been tidied up is written with a space between its words. -/
theorem normalizeGaps_eq_intercalate (text : List Char) :
    normalizeGaps text = [' '].intercalate (words (trim text)) := by
  have hflush := flush_trim text
  calc normalizeGaps text = collapse false (trim text) := normalizeGaps_eq_collapse text
    _ = collapse true (trim text) := (hflush.collapse_eq true).symm
    _ = [' '].intercalate (words (trim text)) :=
      collapse_eq_intercalate fun c hc => isGap_of_not_isSpace (hflush.last c hc)

/-! ### Tidying up -/

/-- The only gaps are single spaces within the text. -/
structure Neat (text : List Char) : Prop extends Flush text where
  no_tab : '\t' ∉ text
  single : ¬[' ', ' '] <:+: text

theorem neat_normalizeGaps (text : List Char) : Neat (normalizeGaps text) := by
  have hspaced := spaced_normalizeGaps text
  refine ⟨flush_trim _, fun htab => ?_, fun hdouble => ?_⟩
  · exact absurd (hspaced.space _ htab rfl) (by decide)
  · have hpair := List.IsChain.infix hspaced.single hdouble
    exact absurd hpair (by decide)

/-- Tidying up gives a text its normal form: no tab, no two spaces side by side, no white space at
the ends, and nothing that could be tidied up again. Spaces and tabs apart, all characters of the
trimmed text are there, and the same of them stand side by side. Two texts have the same normal form
just if they have the same words when they are trimmed. -/
theorem normal_form_of_words (text : List Char) :
    Neat (normalizeGaps text) ∧
      normalizeGaps (normalizeGaps text) = normalizeGaps text ∧
      Trims text (trim text) ∧
      withoutGaps (normalizeGaps text) = withoutGaps (trim text) ∧
      (∀ n c d, SideBySide (normalizeGaps text) n c d ↔ SideBySide (trim text) n c d) ∧
      words (normalizeGaps text) = words (trim text) ∧
      ∀ other,
        normalizeGaps other = normalizeGaps text ↔ words (trim other) = words (trim text) := by
  refine ⟨neat_normalizeGaps text, normalizeGaps_normalizeGaps text, trims_trim text, ?_,
    fun n c d => ?_, words_normalizeGaps text, fun other => ⟨fun h => ?_, fun h => ?_⟩⟩
  · rw [normalizeGaps_eq_collapse, withoutGaps_collapse]
  · rw [normalizeGaps_eq_collapse, sideBySide_collapse]
  · rw [← words_normalizeGaps, h, words_normalizeGaps]
  · rw [normalizeGaps_eq_intercalate, h, normalizeGaps_eq_intercalate]

example : normalizeGaps "  a \t b  ".toList = "a b".toList := by decide
example : normalizeGaps "\ta \n\t\tb\u00a0 \t".toList = "a \n b".toList := by decide

end Curia
