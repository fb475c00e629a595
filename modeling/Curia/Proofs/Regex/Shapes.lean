import Curia.Proofs.Regex.Confined
import Curia.Proofs.Regex.Labels

/-!
Two shapes of expressions: a word in upper or lower case that stands alone, and a character that is
repeated. What they find are whole runs, the one of word characters, the other of the character.
-/

namespace Curia

/-! ### Members of sets -/

namespace Runs

/-- How many bounds are at most a point, if those before `lo` are and those from `hi` on are not. -/
theorem countUpTo_spec (bounds : Array Nat) (n : Nat) {fuel lo hi : Nat} (hle : lo ≤ hi)
    (hsize : hi ≤ bounds.size) (hfuel : hi - lo < Nat.pow 2 fuel)
    (hlo : lo = 0 ∨ bounds.getD (lo - 1) 0 ≤ n) (hhi : hi = bounds.size ∨ n < bounds.getD hi 0) :
    countUpTo bounds n fuel lo hi ≤ bounds.size ∧
      (countUpTo bounds n fuel lo hi = 0 ∨
        bounds.getD (countUpTo bounds n fuel lo hi - 1) 0 ≤ n) ∧
      (countUpTo bounds n fuel lo hi = bounds.size ∨
        n < bounds.getD (countUpTo bounds n fuel lo hi) 0) := by
  induction fuel generalizing lo hi with
  | zero =>
      have hfuel : hi - lo < 1 := hfuel
      obtain rfl : lo = hi := by omega
      exact ⟨hsize, hlo, hhi⟩
  | succ fuel ih =>
      have hfuel : hi - lo < Nat.pow 2 fuel * 2 := hfuel
      rw [countUpTo]
      split
      · simp only
        split
        · next hmid =>
          exact ih (by omega) hsize (by omega) (.inr (by simpa using hmid)) hhi
        · next hmid =>
          exact ih (by omega) (by omega) (by omega) hlo (.inr (Nat.not_le.1 hmid))
      · next hdone =>
        obtain rfl : lo = hi := by omega
        exact ⟨hsize, hlo, hhi⟩

/-- The points of all runs. -/
def members (s : Runs) : List Nat := s.toList.flatMap fun p => List.range' p.1 (p.2 + 1 - p.1)

theorem mem_pairs {bounds : List Nat} {i : Nat} (h : 2 * i + 1 < bounds.length) :
    (bounds[2 * i], bounds[2 * i + 1] - 1) ∈ pairs bounds := by
  induction i generalizing bounds with
  | zero =>
      match bounds, h with
      | a :: b :: rest, _ => exact List.mem_cons_self
  | succ i ih =>
      match bounds, h with
      | a :: b :: rest, h =>
        simp only [List.length_cons] at h
        have hi : 2 * i + 1 < rest.length := by omega
        exact List.mem_cons_of_mem _ (ih hi)

/-- Where runs have both ends, what belongs to them is one of their points. -/
theorem mem_members_of_contains {s : Runs} (heven : s.bounds.size % 2 = 0) {n : Nat}
    (h : s.contains n = true) : n ∈ s.members := by
  have hodd := of_decide_eq_true h
  have hlog : s.bounds.size < Nat.pow 2 (Nat.log2 s.bounds.size + 1) := Nat.lt_log2_self
  have hfuel : s.bounds.size - 0 < Nat.pow 2 (Nat.log2 s.bounds.size + 2) := by
    show s.bounds.size - 0 < Nat.pow 2 (Nat.log2 s.bounds.size + 1) * 2
    omega
  obtain ⟨hle, hlo, hhi⟩ := countUpTo_spec s.bounds n (Nat.zero_le _) (Nat.le_refl _) hfuel
    (.inl rfl) (.inl rfl)
  generalize countUpTo s.bounds n (Nat.log2 s.bounds.size + 2) 0 s.bounds.size = k at *
  obtain ⟨i, rfl⟩ : ∃ i, k = 2 * i + 1 := ⟨k / 2, by omega⟩
  have hlt : 2 * i + 1 < s.bounds.size := by omega
  have hlower : s.bounds[2 * i] ≤ n := by
    have := hlo.resolve_left (by omega)
    rwa [Nat.add_sub_cancel, Array.getD_eq_getD_getElem?, Array.getElem?_eq_getElem (by omega),
      Option.getD_some] at this
  have hupper : n < s.bounds[2 * i + 1] := by
    have := hhi.resolve_left (by omega)
    rwa [Array.getD_eq_getD_getElem?, Array.getElem?_eq_getElem hlt, Option.getD_some] at this
  have hlist : 2 * i + 1 < s.bounds.toList.length := by simpa using hlt
  have hpair := mem_pairs hlist
  refine List.mem_flatMap.2 ⟨_, hpair, List.mem_range'_1.2 ?_⟩
  simp only [Array.getElem_toList]
  omega

end Runs

namespace Regex

theorem CharSet.contains_single {c d : Char} : (CharSet.single c).contains d = true ↔ d = c := by
  have hfuel : Nat.log2 2 = 1 := by
    decide
  rw [single, range, contains, Runs.contains, Runs.span, decide_eq_true_eq, ← Char.toNat_inj]
  simp only [List.size_toArray, List.length_cons, List.length_nil, Nat.zero_add, Nat.reduceAdd, hfuel]
  by_cases hupper : c.toNat + 1 ≤ d.toNat
  · simp [Runs.countUpTo, hupper]
    omega
  · by_cases hlower : c.toNat ≤ d.toNat
    · simp [Runs.countUpTo, hupper, hlower]
      omega
    · simp [Runs.countUpTo, hupper, hlower]
      omega

/-- Whether a set is made of word characters. -/
def CharSet.allWord (set : CharSet) : Bool :=
  set.points.bounds.size % 2 == 0 && set.points.members.all fun n => isWord (Char.ofNat n)

theorem CharSet.isWord_of_contains {set : CharSet} (hset : set.allWord = true) {c : Char}
    (h : set.contains c = true) : isWord c = true := by
  rw [allWord, Bool.and_eq_true, beq_iff_eq, List.all_eq_true] at hset
  have hc := hset.2 c.toNat (Runs.mem_members_of_contains hset.1 h)
  rwa [Char.ofNat_toNat] at hc

/-! ### Reading off a match -/

section

variable {next : List Regex} {before after : Option Char} {piece : List Char}

theorem matches_nil_iff : Matches [] before piece after ↔ piece = [] := by
  constructor
  · intro h
    cases h with
    | nil => rfl
    | opens hopens _ => cases hopens
  · rintro rfl
    exact .nil before after

theorem matches_chars_iff {label : Nat} {set : CharSet} :
    Matches (chars label set :: next) before piece after ↔
      ∃ c rest, piece = c :: rest ∧ set.contains c = true ∧ Matches next (some c) rest after := by
  constructor
  · intro h
    cases h with
    | chars hc h => exact ⟨_, _, rfl, hc, h⟩
    | opens hopens _ => cases hopens
  · rintro ⟨c, rest, rfl, hc, h⟩
    exact .chars hc h

theorem matches_look_iff {a : Assertion} :
    Matches (look a :: next) before piece after ↔
      a.holds ⟨before, piece.head?.or after⟩ = true ∧ Matches next before piece after := by
  constructor
  · intro h
    cases h with
    | opens hopens h =>
        cases hopens with
        | look a next ha => exact ⟨ha, h⟩
  · rintro ⟨ha, h⟩
    exact .opens (.look a next ha) h

theorem matches_seq_iff {r s : Regex} :
    Matches (seq r s :: next) before piece after ↔ Matches (r :: s :: next) before piece after := by
  constructor
  · intro h
    cases h with
    | opens hopens h =>
        cases hopens
        exact h
  · exact .opens (.seq r s next)

theorem matches_plus_iff {label : Nat} {greedy : Bool} {r : Regex} :
    Matches (plus label greedy r :: next) before piece after ↔
      Matches (r :: again label greedy r :: next) before piece after := by
  constructor
  · intro h
    cases h with
    | opens hopens h =>
        cases hopens
        exact h
  · exact .opens (.plus label greedy r next)

theorem matches_again_iff {label : Nat} {greedy : Bool} {r : Regex} :
    Matches (again label greedy r :: next) before piece after ↔
      Matches (r :: again label greedy r :: next) before piece after ∨
        Matches next before piece after := by
  constructor
  · intro h
    cases h with
    | opens hopens h =>
        cases hopens with
        | more => exact .inl h
        | enough => exact .inr h
  · rintro (h | h)
    · exact .opens (.more label greedy r next) h
    · exact .opens (.enough label greedy r next) h

end

/-! ### A word that stands alone -/

/-- The letters of a word in all their forms, and then a word boundary. -/
def letters : Nat → List Char → Regex
  | _, [] => look (.word false .boundary)
  | label, c :: cs => seq (chars label (.forms c)) (letters (label + 1) cs)

/-- A word in upper or lower case between word boundaries. -/
def lone (word : List Char) : Regex := seq (look (.word false .boundary)) (letters 0 word)

/-- The piece is the word, each letter in one of its forms. -/
def Spells (word piece : List Char) : Prop :=
  List.Forall₂ (fun c d => (CharSet.forms c).contains d = true) word piece

theorem matches_letters_iff {label : Nat} {word : List Char} {before after : Option Char}
    {piece : List Char} : Matches [letters label word] before piece after ↔
      Spells word piece ∧
        (Assertion.word false .boundary).holds ⟨piece.getLast?.or before, after⟩ = true := by
  induction word generalizing label before piece with
  | nil =>
      rw [letters, matches_look_iff, matches_nil_iff, Spells, List.forall₂_nil_left_iff]
      constructor
      · rintro ⟨hboundary, rfl⟩
        exact ⟨rfl, hboundary⟩
      · rintro ⟨rfl, hboundary⟩
        exact ⟨hboundary, rfl⟩
  | cons c cs ih =>
      rw [letters, matches_seq_iff, matches_chars_iff, Spells, List.forall₂_cons_left_iff]
      constructor
      · rintro ⟨d, rest, rfl, hd, h⟩
        obtain ⟨hspells, hboundary⟩ := ih.1 h
        refine ⟨⟨d, rest, hd, hspells, rfl⟩, ?_⟩
        rw [List.getLast?_cons]
        cases hlast : rest.getLast? <;> simpa [hlast] using hboundary
      · rintro ⟨⟨d, rest, hd, hspells, rfl⟩, hboundary⟩
        refine ⟨d, rest, rfl, hd, ih.2 ⟨hspells, ?_⟩⟩
        rw [List.getLast?_cons] at hboundary
        cases hlast : rest.getLast? <;> simpa [hlast] using hboundary

theorem labels_letters (label : Nat) (word : List Char) :
    (letters label word).labels = List.range' label word.length := by
  induction word generalizing label with
  | nil => rfl
  | cons c cs ih =>
      rw [letters, labels, ih, labels, List.length_cons, List.range'_succ]
      rfl

section

variable {word : List Char} (hne : word ≠ [])
  (hword : ∀ c ∈ word, ∀ d, (CharSet.forms c).contains d = true → isWord d = true)

include hword in
theorem Spells.isWord {piece : List Char} (h : Spells word piece) :
    ∀ d ∈ piece, isWord d = true := by
  induction h with
  | nil =>
      intro d hd
      cases hd
  | cons hc h ih =>
      intro d hd
      rcases List.mem_cons.1 hd with rfl | hd
      · exact hword _ List.mem_cons_self _ hc
      · exact ih (fun c hc => hword c (List.mem_cons_of_mem _ hc)) d hd

include hne in
theorem Spells.ne_nil {piece : List Char} (h : Spells word piece) : piece ≠ [] := by
  rintro rfl
  exact hne (List.forall₂_nil_right_iff.1 h)

include hne hword in
theorem matches_lone_iff {before after : Option Char} {piece : List Char} :
    Matches [lone word] before piece after ↔
      Spells word piece ∧ before.any isWord = false ∧ after.any isWord = false := by
  rw [lone, matches_seq_iff, matches_look_iff, matches_letters_iff]
  by_cases hspells : Spells word piece
  · have hinside := hspells.isWord hword
    have hhead := any_head?_of_inside (hspells.ne_nil hne) hinside
    have hlast := any_getLast?_of_inside (hspells.ne_nil hne) hinside
    have hfirst : (piece.head?.or after).any isWord = true := Option.any_or_of_any_left hhead
    have hend : (piece.getLast?.or before).any isWord = true := Option.any_or_of_any_left hlast
    simp [Assertion.holds, WordEdge.holds, hfirst, hend, hspells]
  · simp [hspells]

include hne hword in
theorem confined_lone : Confined isWord (lone word) where
  labels := by
    rw [lone, labels, labels_letters]
    exact List.nodup_range'
  ne_nil := by
    intro before piece after h
    exact ((matches_lone_iff hne hword).1 h).1.ne_nil hne
  inside := by
    intro before piece after h
    exact ((matches_lone_iff hne hword).1 h).1.isWord hword
  beside := by
    intro before piece after before' after' h hbefore hafter
    rw [matches_lone_iff hne hword] at h ⊢
    rwa [← hbefore, ← hafter]

include hne hword in
theorem findsWhole_lone : FindsWhole isWord (lone word) := by
  intro text span hspan
  obtain ⟨pre, piece, post, htext, hspan, hm⟩ := matchesIn_matchesAt hspan
  obtain ⟨hspells, hbefore, hafter⟩ := (matches_lone_iff hne hword).1 hm
  exact ⟨pre, piece, post, htext, hspan, hspells.ne_nil hne, hspells.isWord hword, hbefore, hafter⟩

end

/-! ### A character that is repeated -/

section

variable (c : Char)

/-- A character any number of times. -/
def runOn : Regex := again 1 true (chars 2 (.single c))

/-- A character once or more. -/
def runOf : Regex := plus 1 true (chars 2 (.single c))

/-- A character twice or more. -/
def repeated : Regex := seq (chars 0 (.single c)) (runOf c)

variable {c}

theorem matches_runOn_iff {before after : Option Char} {piece : List Char} :
    Matches [runOn c] before piece after ↔ ∀ d ∈ piece, d = c := by
  induction piece generalizing before with
  | nil =>
      rw [runOn, matches_again_iff, matches_nil_iff]
      simp
  | cons d rest ih =>
      rw [runOn, matches_again_iff, matches_chars_iff, matches_nil_iff, List.forall_mem_cons]
      constructor
      · rintro (⟨_, _, hpiece, hd, h⟩ | h)
        · obtain ⟨rfl, rfl⟩ := List.cons.inj hpiece
          exact ⟨CharSet.contains_single.1 hd, ih.1 h⟩
        · cases h
      · rintro ⟨hd, hrest⟩
        exact .inl ⟨d, rest, rfl, CharSet.contains_single.2 hd, ih.2 hrest⟩

theorem matches_repeated_iff {before after : Option Char} {piece : List Char} :
    Matches [repeated c] before piece after ↔ 2 ≤ piece.length ∧ ∀ d ∈ piece, d = c := by
  rw [repeated, matches_seq_iff, matches_chars_iff]
  constructor
  · rintro ⟨d, rest, rfl, hd, h⟩
    rw [runOf, matches_plus_iff, matches_chars_iff] at h
    obtain ⟨e, more, rfl, he, h⟩ := h
    have hmore := matches_runOn_iff.1 h
    have hd := CharSet.contains_single.1 hd
    have he := CharSet.contains_single.1 he
    refine ⟨by simp, ?_⟩
    simp only [List.forall_mem_cons]
    exact ⟨hd, he, hmore⟩
  · rintro ⟨hlength, hpiece⟩
    match piece, hlength with
    | d :: e :: more, _ =>
      simp only [List.forall_mem_cons] at hpiece
      obtain ⟨hd, he, hmore⟩ := hpiece
      refine ⟨d, e :: more, rfl, CharSet.contains_single.2 hd, ?_⟩
      rw [runOf, matches_plus_iff, matches_chars_iff]
      exact ⟨e, more, rfl, CharSet.contains_single.2 he, matches_runOn_iff.2 hmore⟩

theorem confined_repeated : Confined (· == c) (repeated c) where
  labels := by
    show [0, 1, 2].Nodup
    decide
  ne_nil := by
    rintro before piece after h rfl
    have hlength := (matches_repeated_iff.1 h).1
    cases hlength
  inside := by
    intro before piece after h d hd
    exact beq_iff_eq.2 ((matches_repeated_iff.1 h).2 d hd)
  beside := by
    intro before piece after before' after' h _ _
    rw [matches_repeated_iff] at h ⊢
    exact h

/-- The ways of a search and what it has found: nothing yet, one of the characters, two, or more than
two, of which the first is where the match begins. -/
inductive Going (c : Char) : List Way → Option Span → Prop
  | none : Going c [] none
  | one (start : Nat) : Going c [⟨start, [runOf c]⟩] none
  | two (start other : Nat) : Going c [⟨start, [runOn c]⟩, ⟨other, [runOf c]⟩] none
  | more (start : Nat) (found : Span) : Going c [⟨start, [runOn c]⟩] (some found)

section

variable (p : Place) (pos start : Nat)

theorem arrive_none : arrive (repeated c) p pos [] none =
    ([⟨pos, [chars 0 (.single c), runOf c]⟩], none) := rfl

theorem arrive_one : arrive (repeated c) p pos [⟨start, [runOf c]⟩] none =
    ([⟨start, [chars 2 (.single c), runOn c]⟩, ⟨pos, [chars 0 (.single c), runOf c]⟩], none) := by
  simp [arrive, follow, repeated, runOf, runOn, exploreAll, explore, Front.once]

theorem arrive_two (other : Nat) :
    arrive (repeated c) p pos [⟨start, [runOn c]⟩, ⟨other, [runOf c]⟩] none =
      ([⟨start, [chars 2 (.single c), runOn c]⟩, ⟨start, []⟩], some ⟨start, pos⟩) := rfl

theorem arrive_more (found : Span) : arrive (repeated c) p pos [⟨start, [runOn c]⟩] (some found) =
    ([⟨start, [chars 2 (.single c), runOn c]⟩, ⟨start, []⟩], some ⟨start, pos⟩) := rfl

end

@[simp] theorem Way.take?_self (start label : Nat) (next : List Regex) :
    Way.take? c ⟨start, chars label (.single c) :: next⟩ = some ⟨start, next⟩ := by
  show (if (CharSet.single c).contains c = true then some _ else none) = _
  exact if_pos (CharSet.contains_single.2 rfl)

theorem Way.take?_other {d : Char} (hd : d ≠ c) (start label : Nat) (next : List Regex) :
    Way.take? d ⟨start, chars label (.single c) :: next⟩ = none := by
  show (if (CharSet.single c).contains d = true then some _ else none) = _
  exact if_neg fun h => hd (CharSet.contains_single.1 h)

@[simp] theorem Way.take?_nil (d : Char) (start : Nat) : Way.take? d ⟨start, []⟩ = none := rfl

/-- What comes of a place: a match that is known ends there, the search goes on with the character
again, and nothing is left with any other. -/
theorem Going.arrive {ways : List Way} {found : Option Span} (h : Going c ways found) (p : Place)
    (pos : Nat) : ∃ ways' found', Regex.arrive (repeated c) p pos ways found = (ways', found') ∧
      (∀ span ∈ found', span.stop = pos) ∧
      (ways'.filterMap (Way.take? c) ≠ [] ∧ Going c (ways'.filterMap (Way.take? c)) found') ∧
      ∀ d, d ≠ c → ways'.filterMap (Way.take? d) = [] := by
  cases h with
  | none =>
      refine ⟨_, _, arrive_none p pos, fun span h => (by cases h), ?_, fun d hd => ?_⟩
      · simp [Going.one]
      · simp [Way.take?_other hd]
  | one start =>
      refine ⟨_, _, arrive_one p pos start, fun span h => (by cases h), ?_, fun d hd => ?_⟩
      · simp [Going.two]
      · simp [Way.take?_other hd]
  | two start other =>
      refine ⟨_, _, arrive_two p pos start other, ?_, ?_, fun d hd => ?_⟩
      · rintro span ⟨⟩
        rfl
      · simp [List.filterMap_cons, Going.more]
      · simp [Way.take?_other hd]
  | more start found =>
      refine ⟨_, _, arrive_more p pos start found, ?_, ?_, fun d hd => ?_⟩
      · rintro span ⟨⟩
        rfl
      · simp [List.filterMap_cons, Going.more]
      · simp [Way.take?_other hd]

/-- The search ends where the character is not repeated any more. -/
theorem scan_repeated {before : Option Char} {pos : Nat} {ways : List Way} {found : Option Span}
    {rest : List Char} (h : Going c ways found) {span : Span}
    (hspan : scan (repeated c) before pos ways found rest = some span) :
    ∃ passed behind, rest = passed ++ behind ∧ span.stop = pos + passed.length ∧
      behind.head?.any (· == c) = false := by
  induction rest generalizing before pos ways found with
  | nil =>
      obtain ⟨ways', found', harrive, hstop, -, -⟩ := h.arrive ⟨before, none⟩ pos
      rw [scan, harrive] at hspan
      exact ⟨[], [], rfl, hstop span hspan, rfl⟩
  | cons d rest ih =>
      obtain ⟨ways', found', harrive, hstop, ⟨hne, hgoing⟩, hother⟩ := h.arrive ⟨before, some d⟩ pos
      rw [scan, harrive] at hspan
      simp only at hspan
      have hlater {ways : List Way} {found : Option Span} (h : Going c ways found)
          (hspan : scan (repeated c) (some d) (pos + 1) ways found rest = some span) :
          ∃ passed behind, d :: rest = passed ++ behind ∧ span.stop = pos + passed.length ∧
            behind.head?.any (· == c) = false := by
        obtain ⟨passed, behind, rfl, hstop, hbehind⟩ := ih h hspan
        refine ⟨d :: passed, behind, rfl, ?_, hbehind⟩
        rw [hstop, List.length_cons, Nat.add_assoc, Nat.add_comm 1]
      by_cases hd : d = c
      · subst hd
        rw [List.isEmpty_eq_false_iff.2 hne] at hspan
        exact hlater hgoing hspan
      · rw [hother d hd] at hspan
        cases found' with
        | none => exact hlater .none hspan
        | some last =>
            have hlast : last = span := Option.some.inj hspan
            refine ⟨[], d :: rest, rfl, ?_, ?_⟩
            · exact hstop span (by rw [hlast]; rfl)
            · simpa using hd

theorem head?_of_mem_matchesIn {text : List Char} {span : Span}
    (h : span ∈ (repeated c).matchesIn text) :
    (text.drop span.stop).head?.any (· == c) = false := by
  obtain ⟨start, hstart, hsearch⟩ := exists_search_of_mem_matchesIn h
  obtain ⟨passed, behind, hdrop, hstop, hbehind⟩ := scan_repeated .none hsearch
  have hrest : text.drop span.stop = behind := by
    rw [hstop, ← List.drop_drop, hdrop, List.drop_left]
  rw [hrest]
  exact hbehind

/-- A run is found from its first character to its last. -/
theorem findsWhole_repeated : FindsWhole (· == c) (repeated c) := by
  intro text span hspan
  obtain ⟨pre, piece, post, htext, hends, hm⟩ := matchesIn_matchesAt hspan
  obtain ⟨hlength, hpiece⟩ := matches_repeated_iff.1 hm
  have hbehind := head?_of_mem_matchesIn hspan
  have hpost : text.drop span.stop = post := by
    rw [htext, hends]
    exact List.drop_left' (by simp)
  rw [hpost] at hbehind
  have hne : piece ≠ [] := by
    rintro rfl
    cases hlength
  refine ⟨pre, piece, post, htext, hends, hne, fun d hd => beq_iff_eq.2 (hpiece d hd), ?_, hbehind⟩
  -- if the character stood before the match, one that is found would reach into this one
  by_contra hbefore
  obtain ⟨d, hlast, hd⟩ := (Option.any_eq_true _ _).1 (Bool.not_eq_false _ ▸ hbefore)
  obtain rfl := beq_iff_eq.1 hd
  obtain ⟨pre, rfl⟩ := List.getLast?_eq_some_iff.1 hlast
  obtain ⟨e, piece, rfl⟩ := List.exists_cons_of_ne_nil hne
  obtain rfl : e = d := hpiece e List.mem_cons_self
  have hearlier : MatchesAt (repeated e) text ⟨pre.length, pre.length + [e, e].length⟩ := by
    refine ⟨pre, [e, e], piece ++ post, by simp [htext], rfl, ?_⟩
    exact matches_repeated_iff.2 ⟨Nat.le_refl 2, by simp⟩
  obtain ⟨t, ht, hstart, hstop⟩ := exists_matchesIn_around confined_repeated.labels hearlier
  have hend := head?_of_mem_matchesIn ht
  have hspanStart : span.start = pre.length + 1 := by
    rw [hends, List.length_append, List.length_singleton]
  have hspanStop := (matchesIn_matchesAt hspan).start_le_stop
  simp only at hstart hstop
  have hne : t ≠ span := by
    rintro rfl
    omega
  rcases before_or_before ht hspan hne with ⟨hle, -⟩ | ⟨hle, -⟩
  · have hcases : t.stop = pre.length ∨ t.stop = pre.length + 1 := by omega
    rcases hcases with hat | hat
    · rw [hat, htext] at hend
      simp at hend
    · rw [hat, htext] at hend
      simp at hend
  · omega

end

end Regex

end Curia
