import Curia.Proofs.Regex.Leftmost

/-!
Expressions whose matches stay within a class of characters. Such a match cannot reach across a place
where the class is left, so a text may be searched piece by piece.
-/

namespace Curia.Regex

/-- Where the texts meet, the one ends without the class, or the other begins without it. -/
def Apart (K : Char → Bool) (a b : List Char) : Prop :=
  a.getLast?.any K = false ∨ b.head?.any K = false

theorem Apart.head {K : Char → Bool} {a b : List Char} (h : Apart K a b)
    (ha : a.getLast?.any K = true) : b.head?.any K = false := by
  rcases h with h | h
  · rw [ha] at h
    cases h
  · exact h

theorem Apart.last {K : Char → Bool} {a b : List Char} (h : Apart K a b)
    (hb : b.head?.any K = true) : a.getLast?.any K = false := by
  rcases h with h | h
  · exact h
  · rw [hb] at h
    cases h

/-- Every match is a piece of characters of the class, and all that matters of the characters on either
side is whether they are of the class. -/
structure Confined (K : Char → Bool) (r : Regex) : Prop where
  labels : r.labels.Nodup
  ne_nil : ∀ {before piece after}, Matches [r] before piece after → piece ≠ []
  inside : ∀ {before piece after}, Matches [r] before piece after → ∀ c ∈ piece, K c = true
  beside : ∀ {before piece after before' after'}, Matches [r] before piece after →
    before.any K = before'.any K → after.any K = after'.any K → Matches [r] before' piece after'

/-- The span that many characters further on. -/
def Span.shift (s : Span) (n : Nat) : Span := ⟨n + s.start, n + s.stop⟩

theorem isMatch_iff_matchesAt {r : Regex} (hr : r.labels.Nodup) {text : List Char} :
    r.isMatch text = true ↔ ∃ span, MatchesAt r text span := by
  rw [isMatch_iff hr]
  constructor
  · rintro ⟨pre, piece, post, htext, hm⟩
    exact ⟨_, pre, piece, post, htext, rfl, hm⟩
  · rintro ⟨span, pre, piece, post, htext, -, hm⟩
    exact ⟨pre, piece, post, htext, hm⟩

section

variable {K : Char → Bool}

theorem any_head?_of_inside {piece : List Char} (hne : piece ≠ []) (h : ∀ c ∈ piece, K c = true) :
    piece.head?.any K = true := by
  cases piece with
  | nil => exact absurd rfl hne
  | cons c cs => exact h c List.mem_cons_self

theorem any_getLast?_of_inside {piece : List Char} (hne : piece ≠ [])
    (h : ∀ c ∈ piece, K c = true) : piece.getLast?.any K = true := by
  rw [List.getLast?_eq_some_getLast hne]
  exact h _ (List.getLast_mem hne)

theorem any_getLast?_of_outside {piece : List Char} (h : ∀ c ∈ piece, K c = false) :
    piece.getLast?.any K = false := by
  cases hlast : piece.getLast? with
  | none => rfl
  | some c => exact h c (List.mem_of_getLast? hlast)

theorem any_head?_of_outside {piece : List Char} (h : ∀ c ∈ piece, K c = false) :
    piece.head?.any K = false := by
  cases piece with
  | nil => rfl
  | cons c cs => exact h c List.mem_cons_self

end

namespace Confined

variable {K : Char → Bool} {r : Regex} (hr : Confined K r) {a b : List Char}

include hr

theorem matchesAt_left (h : Apart K a b) {span : Span} (hspan : MatchesAt r a span) :
    MatchesAt r (a ++ b) span := by
  obtain ⟨pre, piece, post, rfl, rfl, hm⟩ := hspan
  refine ⟨pre, piece, post ++ b, by simp, rfl, hr.beside hm rfl ?_⟩
  cases post with
  | cons c post => rfl
  | nil =>
      -- the match ends where the texts meet
      have hlast := any_getLast?_of_inside (hr.ne_nil hm) (hr.inside hm)
      have hmeet : (pre ++ piece ++ []).getLast?.any K = true := by
        rw [List.append_nil, List.getLast?_append_of_ne_nil pre (hr.ne_nil hm)]
        exact hlast
      exact (h.head hmeet).symm

theorem matchesAt_right (h : Apart K a b) {span : Span} (hspan : MatchesAt r b span) :
    MatchesAt r (a ++ b) (span.shift a.length) := by
  obtain ⟨pre, piece, post, rfl, rfl, hm⟩ := hspan
  refine ⟨a ++ pre, piece, post, by simp, ?_, hr.beside hm ?_ rfl⟩
  · simp only [Span.shift, List.length_append, Nat.add_assoc]
  · cases pre with
    | cons c pre => rw [List.getLast?_append_of_ne_nil a (by simp)]
    | nil =>
        -- the match begins where the texts meet
        have hhead := any_head?_of_inside (hr.ne_nil hm) (hr.inside hm)
        have hmeet : ([] ++ piece ++ post).head?.any K = true := by
          rw [List.nil_append, List.head?_append_of_ne_nil piece (hr.ne_nil hm)]
          exact hhead
        rw [List.append_nil]
        exact (h.last hmeet).symm

theorem matchesAt_drop {text : List Char} {pos : Nat} (hpos : pos ≤ text.length)
    (h : Apart K (text.take pos) (text.drop pos)) {span : Span}
    (hspan : MatchesAt r (text.drop pos) span) : MatchesAt r text (span.shift pos) := by
  have hshifted := hr.matchesAt_right h hspan
  rwa [List.take_append_drop, List.length_take_of_le hpos] at hshifted

theorem start_lt_length {text : List Char} {span : Span} (h : MatchesAt r text span) :
    span.start < text.length := by
  obtain ⟨pre, piece, post, rfl, rfl, hm⟩ := h
  have := List.length_pos_of_ne_nil (hr.ne_nil hm)
  simp only [List.length_append]
  omega

theorem any_head?_drop {text : List Char} {span : Span} (h : MatchesAt r text span) :
    (text.drop span.start).head?.any K = true := by
  obtain ⟨pre, piece, post, rfl, rfl, hm⟩ := h
  rw [List.append_assoc, List.drop_left, List.head?_append_of_ne_nil piece (hr.ne_nil hm)]
  exact any_head?_of_inside (hr.ne_nil hm) (hr.inside hm)

theorem exists_of_matchesAt_append (h : Apart K a b) {span : Span}
    (hspan : MatchesAt r (a ++ b) span) : (∃ s, MatchesAt r a s) ∨ ∃ s, MatchesAt r b s := by
  obtain ⟨pre, piece, post, htext, -, hm⟩ := hspan
  have hne := hr.ne_nil hm
  -- a match that ends where the texts meet, or before, and one that begins there or behind
  have hleft (more : List Char) (ha : a = pre ++ piece ++ more) (hpost : post = more ++ b) :
      ∃ s, MatchesAt r a s := by
    refine ⟨_, pre, piece, more, ha, rfl, hr.beside hm rfl ?_⟩
    cases more with
    | cons c more => rw [hpost, List.cons_append, List.head?_cons, List.head?_cons]
    | nil =>
        have hmeet : a.getLast?.any K = true := by
          rw [ha, List.append_nil, List.getLast?_append_of_ne_nil pre hne]
          exact any_getLast?_of_inside hne (hr.inside hm)
        rw [hpost, List.nil_append]
        exact h.head hmeet
  have hright (skipped : List Char) (hpre : pre = a ++ skipped) (hb : b = skipped ++ piece ++ post) :
      ∃ s, MatchesAt r b s := by
    refine ⟨_, skipped, piece, post, hb, rfl, hr.beside hm ?_ rfl⟩
    cases skipped with
    | cons c skipped => rw [hpre, List.getLast?_append_of_ne_nil a (by simp)]
    | nil =>
        have hmeet : b.head?.any K = true := by
          rw [hb, List.nil_append, List.head?_append_of_ne_nil piece hne]
          exact any_head?_of_inside hne (hr.inside hm)
        rw [hpre, List.append_nil]
        exact h.last hmeet
  rcases List.append_eq_append_iff.1 htext with ⟨more, hmore, hb⟩ | ⟨more, ha, hpost⟩
  · rcases List.append_eq_append_iff.1 hmore with ⟨part, ha, hpiece⟩ | ⟨skipped, hpre, hpiece⟩
    · by_cases hpart : part = []
      · subst hpart
        exact .inr (hright [] (by rw [ha]; simp) (by rw [hb, hpiece]; simp))
      by_cases hrest : more = []
      · subst hrest
        exact .inl (hleft [] (by rw [ha, hpiece]; simp) (by rw [hb]; simp))
      -- on either side the match goes on
      have hinside := hr.inside hm
      rw [hpiece] at hinside
      have hlast : a.getLast?.any K = true := by
        rw [ha, List.getLast?_append_of_ne_nil pre hpart]
        exact any_getLast?_of_inside hpart fun c hc => hinside c (List.mem_append_left _ hc)
      have hhead : b.head?.any K = true := by
        rw [hb, List.head?_append_of_ne_nil more hrest]
        exact any_head?_of_inside hrest fun c hc => hinside c (List.mem_append_right _ hc)
      rw [h.head hlast] at hhead
      cases hhead
    · exact .inr (hright skipped hpre (by rw [hb, hpiece]))
  · exact .inl (hleft more ha hpost)

/-- A text that is put together where the class is left has a match just if one of its parts has. -/
theorem isMatch_append (h : Apart K a b) : r.isMatch (a ++ b) = (r.isMatch a || r.isMatch b) := by
  rw [Bool.eq_iff_iff, Bool.or_eq_true, isMatch_iff_matchesAt hr.labels,
    isMatch_iff_matchesAt hr.labels, isMatch_iff_matchesAt hr.labels]
  constructor
  · rintro ⟨span, hspan⟩
    exact hr.exists_of_matchesAt_append h hspan
  · rintro (⟨span, hspan⟩ | ⟨span, hspan⟩)
    · exact ⟨_, hr.matchesAt_left h hspan⟩
    · exact ⟨_, hr.matchesAt_right h hspan⟩

theorem isMatch_of_outside (h : ∀ c ∈ a, K c = false) : r.isMatch a = false := by
  rw [Bool.eq_false_iff, ne_eq, isMatch_iff hr.labels]
  rintro ⟨pre, piece, post, rfl, hm⟩
  obtain ⟨c, hc⟩ := List.exists_mem_of_ne_nil piece (hr.ne_nil hm)
  have hinside := hr.inside hm c hc
  rw [h c (by simp [hc])] at hinside
  cases hinside

/-- A piece without a character of the class parts a text. -/
theorem isMatch_append_append {gap : List Char} (hne : gap ≠ []) (h : ∀ c ∈ gap, K c = false) :
    r.isMatch (a ++ gap ++ b) = (r.isMatch a || r.isMatch b) := by
  have hhead : Apart K a gap := .inr (any_head?_of_outside h)
  have hlast : Apart K (a ++ gap) b := by
    left
    rw [List.getLast?_append_of_ne_nil a hne]
    exact any_getLast?_of_outside h
  rw [hr.isMatch_append hlast, hr.isMatch_append hhead, hr.isMatch_of_outside h, Bool.or_false]

end Confined

/-! ### Whole runs -/

/-- The span holds characters of the class, and the class is left on either side. -/
def WholeAt (K : Char → Bool) (text : List Char) (span : Span) : Prop :=
  ∃ pre piece post, text = pre ++ piece ++ post ∧ span = ⟨pre.length, pre.length + piece.length⟩ ∧
    piece ≠ [] ∧ (∀ c ∈ piece, K c = true) ∧ pre.getLast?.any K = false ∧ post.head?.any K = false

/-- What a whole run leaves of a text from a position on: the piece in front of it, where the class is
left, and the rest behind it, which begins without the class. -/
structure Parted (K : Char → Bool) (text : List Char) (pos : Nat) (span : Span)
    (kept piece : List Char) : Prop where
  drop_eq : text.drop pos = kept ++ piece ++ text.drop span.stop
  length_kept : pos + kept.length = span.start
  last : kept.getLast?.any K = false
  ne_nil : piece ≠ []
  inside : ∀ c ∈ piece, K c = true
  head : (text.drop span.stop).head?.any K = false
  start_le_stop : span.start ≤ span.stop
  stop_le_length : span.stop ≤ text.length

theorem WholeAt.exists_parted {K : Char → Bool} {text : List Char} {span : Span}
    (h : WholeAt K text span) {pos : Nat} (hpos : pos ≤ span.start) :
    ∃ kept piece, Parted K text pos span kept piece := by
  obtain ⟨pre, piece, post, rfl, rfl, hne, hinside, hlast, hhead⟩ := h
  have hpos : pos ≤ pre.length := hpos
  have hpost : (pre ++ piece ++ post).drop (pre.length + piece.length) = post :=
    List.drop_left' List.length_append
  refine ⟨pre.drop pos, piece, ?_, ?_, ?_, hne, hinside, ?_, Nat.le_add_right _ _, ?_⟩
  · rw [hpost, List.append_assoc, List.drop_append_of_le_length hpos, ← List.append_assoc]
  · rw [List.length_drop]
    exact Nat.add_sub_cancel' hpos
  · rw [List.getLast?_drop]
    split
    · rfl
    · exact hlast
  · rw [hpost]
    exact hhead
  · simp only [List.length_append]
    omega

/-- Whatever is found in a text is a whole run of characters of the class. -/
def FindsWhole (K : Char → Bool) (r : Regex) : Prop :=
  ∀ text, ∀ span ∈ r.matchesIn text, WholeAt K text span

end Curia.Regex
