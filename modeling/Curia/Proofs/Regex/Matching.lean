import Mathlib.Logic.Relation
import Curia.Regex.Search

/-!
What it means to match. Whether a piece of text is matched depends on the piece and on the character
at either side of it, and on nothing else. Whatever a search finds is matched.
-/

namespace Curia.Regex

/-- What is to be matched in turn gives way to something else without taking a character. -/
inductive Opens (p : Place) : List Regex → List Regex → Prop
  | empty (next : List Regex) : Opens p (empty :: next) next
  | look (a : Assertion) (next : List Regex) (h : a.holds p = true) : Opens p (look a :: next) next
  | seq (r s : Regex) (next : List Regex) : Opens p (seq r s :: next) (r :: s :: next)
  | left (label : Nat) (r s : Regex) (next : List Regex) :
      Opens p (alt label r s :: next) (r :: next)
  | right (label : Nat) (r s : Regex) (next : List Regex) :
      Opens p (alt label r s :: next) (s :: next)
  | plus (label : Nat) (greedy : Bool) (r : Regex) (next : List Regex) :
      Opens p (plus label greedy r :: next) (r :: again label greedy r :: next)
  | more (label : Nat) (greedy : Bool) (r : Regex) (next : List Regex) :
      Opens p (again label greedy r :: next) (r :: again label greedy r :: next)
  | enough (label : Nat) (greedy : Bool) (r : Regex) (next : List Regex) :
      Opens p (again label greedy r :: next) next

/-- Parts in turn match a piece of text between two characters, of which either may be missing. -/
inductive Matches : List Regex → Option Char → List Char → Option Char → Prop
  | nil (before after : Option Char) : Matches [] before [] after
  | chars {label : Nat} {set : CharSet} {next : List Regex} {before : Option Char} {c : Char}
      {piece : List Char} {after : Option Char} (hc : set.contains c = true)
      (h : Matches next (some c) piece after) :
      Matches (chars label set :: next) before (c :: piece) after
  | opens {next next' : List Regex} {before : Option Char} {piece : List Char}
      {after : Option Char} (hopens : Opens ⟨before, piece.head?.or after⟩ next next')
      (h : Matches next' before piece after) : Matches next before piece after

/-- A span of a text is matched. -/
def MatchesAt (r : Regex) (text : List Char) (span : Span) : Prop :=
  ∃ pre piece post, text = pre ++ piece ++ post ∧
    span = ⟨pre.length, pre.length + piece.length⟩ ∧ Matches [r] pre.getLast? piece post.head?

/-! ### What is reached -/

def Reaches (p : Place) : List Regex → List Regex → Prop := Relation.ReflTransGen (Opens p)

theorem Matches.of_reaches {p : Place} {next next' : List Regex} {piece : List Char}
    {after : Option Char} (h : Reaches p next next') (hp : p.after = piece.head?.or after)
    (hm : Matches next' p.before piece after) : Matches next p.before piece after := by
  obtain ⟨before, _⟩ := p
  obtain rfl := hp
  induction h with
  | refl => exact hm
  | tail _ hopens ih => exact ih (.opens hopens hm)

/-- Wherever `go` leads can be reached from what is to be matched. -/
def LeadsFrom (p : Place) (next : List Regex) (go : Nat → Front) : Prop :=
  ∀ seen, ∀ way ∈ (go seen).ways, Reaches p next way

namespace LeadsFrom

theorem blocked (p : Place) (next : List Regex) : LeadsFrom p next .blocked :=
  fun _ _ h => by cases h

theorem opens {p : Place} {next next' : List Regex} {go : Nat → Front}
    (hopens : Opens p next next') (h : LeadsFrom p next' go) : LeadsFrom p next go :=
  fun seen way hway => .head hopens (h seen way hway)

theorem branch {p : Place} {next : List Regex} {first second : Nat → Front} (label : Nat)
    (hfirst : LeadsFrom p next first) (hsecond : LeadsFrom p next second) :
    LeadsFrom p next (.branch label first second) := by
  intro seen way hway
  rw [Front.branch, Front.once] at hway
  split at hway
  · cases hway
  · rw [Front.orElse] at hway
    split at hway
    · exact hfirst _ way hway
    · rcases List.mem_append.1 hway with hway | hway
      · exact hfirst _ way hway
      · exact hsecond _ way hway

end LeadsFrom

theorem explore_leadsFrom {p : Place} (r : Regex) {next : List Regex} {go : Nat → Front}
    (hgo : LeadsFrom p next go) : LeadsFrom p (r :: next) (explore p r next go) := by
  have hagain {label : Nat} {greedy : Bool} {r : Regex} {next : List Regex}
      {go repeated : Nat → Front} (hgo : LeadsFrom p next go)
      (hrepeated : LeadsFrom p (r :: again label greedy r :: next) repeated) :
      LeadsFrom p (again label greedy r :: next)
        (if greedy then .branch label repeated go else .branch label go repeated) := by
    have hmore := hrepeated.opens (.more label greedy r next)
    have henough := hgo.opens (.enough label greedy r next)
    split
    · exact hmore.branch label henough
    · exact henough.branch label hmore
  induction r generalizing next go with
  | empty => exact hgo.opens (.empty next)
  | chars label set =>
      intro seen way hway
      rw [explore, Front.once] at hway
      split at hway
      · cases hway
      · obtain rfl := List.mem_singleton.1 hway
        exact .refl
  | look a =>
      rw [explore]
      split
      · next h => exact hgo.opens (.look a next h)
      · exact .blocked p _
  | seq r s ihr ihs => exact (ihr (ihs hgo)).opens (.seq r s next)
  | alt label r s ihr ihs =>
      exact ((ihr hgo).opens (.left label r s next)).branch label
        ((ihs hgo).opens (.right label r s next))
  | plus label greedy r ih =>
      exact (ih (hagain hgo (ih (.blocked p _)))).opens (.plus label greedy r next)
  | again label greedy r ih => exact hagain hgo (ih (.blocked p _))

theorem exploreAll_leadsFrom (p : Place) (next : List Regex) :
    LeadsFrom p next (exploreAll p next) := by
  induction next with
  | nil =>
      intro seen way hway
      obtain rfl := List.mem_singleton.1 hway
      exact .refl
  | cons r rs ih => exact explore_leadsFrom r ih

/-- What is followed up to the next character began as one of the ways. -/
theorem exists_of_mem_follow {p : Place} {ways : List Way} {seen : Nat} {w' : Way}
    (h : w' ∈ follow p ways seen) : ∃ w ∈ ways, w'.start = w.start ∧ Reaches p w.next w'.next := by
  induction ways generalizing seen with
  | nil => cases h
  | cons w ws ih =>
      rw [follow] at h
      rcases List.mem_append.1 h with h | h
      · obtain ⟨next, hnext, rfl⟩ := List.mem_map.1 h
        exact ⟨w, List.mem_cons_self, rfl, exploreAll_leadsFrom p w.next seen next hnext⟩
      · split at h
        · cases h
        · obtain ⟨v, hv, hstart, hreaches⟩ := ih h
          exact ⟨v, List.mem_cons_of_mem _ hv, hstart, hreaches⟩

/-! ### What is found -/

/-- Where a way can be finished in the rest of a text, the expression matches from its start. -/
def Begun (r : Regex) (passed rest : List Char) (w : Way) : Prop :=
  ∃ pre piece, passed = pre ++ piece ∧ w.start = pre.length ∧
    ∀ more post, rest = more ++ post → Matches w.next passed.getLast? more post.head? →
      Matches [r] pre.getLast? (piece ++ more) post.head?

theorem begun_new (r : Regex) (passed rest : List Char) :
    Begun r passed rest ⟨passed.length, [r]⟩ :=
  ⟨passed, [], (List.append_nil _).symm, rfl, fun _ _ _ h => h⟩

theorem Begun.reaches {r : Regex} {passed rest : List Char} {w w' : Way}
    (h : Begun r passed rest w) (hstart : w'.start = w.start)
    (hreaches : Reaches ⟨passed.getLast?, rest.head?⟩ w.next w'.next) : Begun r passed rest w' := by
  obtain ⟨pre, piece, hpassed, hpre, hmatches⟩ := h
  refine ⟨pre, piece, hpassed, hstart.trans hpre, fun more post hrest hm => ?_⟩
  refine hmatches more post hrest (Matches.of_reaches hreaches ?_ hm)
  rw [hrest, List.head?_append]

theorem Begun.take {r : Regex} {passed rest : List Char} {c : Char} {w w' : Way}
    (h : Begun r passed (c :: rest) w) (htake : w.take? c = some w') :
    Begun r (passed ++ [c]) rest w' := by
  obtain ⟨pre, piece, hpassed, hpre, hmatches⟩ := h
  rw [Way.take?] at htake
  split at htake
  · next label set next hnext =>
    split at htake
    · next hc =>
      cases htake
      refine ⟨pre, piece ++ [c], by rw [hpassed, List.append_assoc], hpre, ?_⟩
      intro more post hrest hm
      rw [List.getLast?_append, List.getLast?_singleton] at hm
      have hchars : Matches w.next passed.getLast? (c :: more) post.head? := by
        rw [hnext]
        exact .chars hc hm
      have := hmatches (c :: more) post (by rw [hrest, List.cons_append]) hchars
      rwa [List.append_assoc]
    · cases htake
  · cases htake

theorem Begun.matchesAt {r : Regex} {passed rest : List Char} {w : Way}
    (h : Begun r passed rest w) (hend : w.next = []) :
    MatchesAt r (passed ++ rest) ⟨w.start, passed.length⟩ := by
  obtain ⟨pre, piece, rfl, hpre, hmatches⟩ := h
  have hm : Matches w.next (pre ++ piece).getLast? [] rest.head? := by
    rw [hend]
    exact .nil _ _
  refine ⟨pre, piece, rest, rfl, ?_, ?_⟩
  · rw [hpre, List.length_append]
  · simpa using hmatches [] rest rfl hm

theorem arrive_begun {r : Regex} {passed rest : List Char} {ways : List Way} {found : Option Span}
    (hways : ∀ w ∈ ways, Begun r passed rest w)
    (hfound : ∀ span, found = some span → MatchesAt r (passed ++ rest) span) :
    (∀ w ∈ (arrive r ⟨passed.getLast?, rest.head?⟩ passed.length ways found).1,
      Begun r passed rest w) ∧
    ∀ span, (arrive r ⟨passed.getLast?, rest.head?⟩ passed.length ways found).2 = some span →
      MatchesAt r (passed ++ rest) span := by
  have hfollow : ∀ w ∈ (arrive r ⟨passed.getLast?, rest.head?⟩ passed.length ways found).1,
      Begun r passed rest w := by
    intro w hw
    obtain ⟨v, hv, hstart, hreaches⟩ := exists_of_mem_follow hw
    have hbegun : Begun r passed rest v := by
      split at hv
      · rcases List.mem_append.1 hv with hv | hv
        · exact hways v hv
        · obtain rfl := List.mem_singleton.1 hv
          exact begun_new r passed rest
      · exact hways v hv
    exact hbegun.reaches hstart hreaches
  refine ⟨hfollow, fun span hspan => ?_⟩
  rcases Option.or_eq_some_iff.1 hspan with hended | ⟨-, hspan⟩
  · obtain ⟨w, hw, rfl⟩ := Option.map_eq_some_iff.1 hended
    have hend : w.next = [] := by simpa using List.find?_some hw
    exact (hfollow w (List.mem_of_find?_eq_some hw)).matchesAt hend
  · exact hfound span hspan

theorem scan_matchesAt {r : Regex} {passed rest : List Char} {ways : List Way}
    {found : Option Span} (hways : ∀ w ∈ ways, Begun r passed rest w)
    (hfound : ∀ span, found = some span → MatchesAt r (passed ++ rest) span) {span : Span}
    (h : scan r passed.getLast? passed.length ways found rest = some span) :
    MatchesAt r (passed ++ rest) span := by
  induction rest generalizing passed ways found with
  | nil =>
      rw [scan] at h
      exact (arrive_begun hways hfound).2 span h
  | cons c cs ih =>
      obtain ⟨hways', hfound'⟩ := arrive_begun hways hfound
      rw [scan] at h
      simp only [List.head?_cons] at hways' hfound' h
      generalize arrive r ⟨passed.getLast?, some c⟩ passed.length ways found = arrived at *
      split at h
      · exact hfound' span h
      · have happend : passed ++ c :: cs = passed ++ [c] ++ cs := by simp
        have hlast : (passed ++ [c]).getLast? = some c := by simp
        have hlength : (passed ++ [c]).length = passed.length + 1 := by simp
        rw [← hlast, ← hlength] at h
        rw [happend] at hfound' ⊢
        refine ih (fun w hw => ?_) hfound' h
        obtain ⟨v, hv, htake⟩ := List.mem_filterMap.1 hw
        exact (hways' v hv).take htake

/-- What is found is matched. -/
theorem find?_matchesAt {r : Regex} (passed : List Char) {rest : List Char} {span : Span}
    (h : r.find? passed.getLast? passed.length rest = some span) :
    MatchesAt r (passed ++ rest) span :=
  scan_matchesAt (fun _ h => by cases h) (fun _ h => by cases h) h

/-! ### Where it is found -/

theorem arrive_start_le {r : Regex} {p : Place} {pos base : Nat} {ways : List Way}
    {found : Option Span} (hpos : base ≤ pos) (hways : ∀ w ∈ ways, base ≤ w.start)
    (hfound : ∀ span, found = some span → base ≤ span.start) :
    (∀ w ∈ (arrive r p pos ways found).1, base ≤ w.start) ∧
      ∀ span, (arrive r p pos ways found).2 = some span → base ≤ span.start := by
  have hfollow : ∀ w ∈ (arrive r p pos ways found).1, base ≤ w.start := by
    intro w hw
    obtain ⟨v, hv, hstart, -⟩ := exists_of_mem_follow hw
    rw [hstart]
    split at hv
    · rcases List.mem_append.1 hv with hv | hv
      · exact hways v hv
      · obtain rfl := List.mem_singleton.1 hv
        exact hpos
    · exact hways v hv
  refine ⟨hfollow, fun span hspan => ?_⟩
  rcases Option.or_eq_some_iff.1 hspan with hended | ⟨-, hspan⟩
  · obtain ⟨w, hw, rfl⟩ := Option.map_eq_some_iff.1 hended
    exact hfollow w (List.mem_of_find?_eq_some hw)
  · exact hfound span hspan

theorem scan_start_le {r : Regex} {before : Option Char} {pos base : Nat} {ways : List Way}
    {found : Option Span} {rest : List Char} (hpos : base ≤ pos)
    (hways : ∀ w ∈ ways, base ≤ w.start)
    (hfound : ∀ span, found = some span → base ≤ span.start) {span : Span}
    (h : scan r before pos ways found rest = some span) : base ≤ span.start := by
  induction rest generalizing before pos ways found with
  | nil =>
      rw [scan] at h
      exact (arrive_start_le hpos hways hfound).2 span h
  | cons c cs ih =>
      obtain ⟨hways', hfound'⟩ :=
        arrive_start_le (r := r) (p := ⟨before, some c⟩) hpos hways hfound
      rw [scan] at h
      simp only at h
      split at h
      · exact hfound' span h
      · refine ih (Nat.le_succ_of_le hpos) (fun w hw => ?_) hfound' h
        obtain ⟨v, hv, htake⟩ := List.mem_filterMap.1 hw
        rw [Way.take?] at htake
        split at htake
        · split at htake
          · cases htake
            exact hways' v hv
          · cases htake
        · cases htake

theorem MatchesAt.start_le_stop {r : Regex} {text : List Char} {span : Span}
    (h : MatchesAt r text span) : span.start ≤ span.stop := by
  obtain ⟨pre, piece, post, -, rfl, -⟩ := h
  exact Nat.le_add_right _ _

theorem MatchesAt.stop_le_length {r : Regex} {text : List Char} {span : Span}
    (h : MatchesAt r text span) : span.stop ≤ text.length := by
  obtain ⟨pre, piece, post, rfl, rfl, -⟩ := h
  simp only [List.length_append]
  omega

/-- Each of the spans that are found one after the other is matched. -/
theorem findFrom_matchesAt {r : Regex} {lastEnd : Option Nat} {n : Nat} (passed : List Char)
    {rest : List Char} {span : Span} (h : span ∈ r.findFrom lastEnd n passed.getLast? passed.length rest) :
    MatchesAt r (passed ++ rest) span := by
  induction n generalizing lastEnd passed rest with
  | zero => cases h
  | succ n ih =>
      rw [findFrom.eq_def] at h
      simp only at h
      split at h
      · cases h
      · next first hfirst =>
        have hmatches := find?_matchesAt passed hfirst
        have hstart : passed.length ≤ first.start :=
          scan_start_le (Nat.le_refl _) (fun _ h => by cases h) (fun _ h => by cases h) hfirst
        split at h
        · split at h
          · cases h
          · next c cs =>
            -- an empty match that does not count: the search goes on after the next character
            have hpassed : MatchesAt r (passed ++ [c] ++ cs) span :=
              ih (passed ++ [c]) (by simpa using h)
            rwa [List.append_assoc] at hpassed
        · rcases List.mem_cons.1 h with rfl | h
          · exact hmatches
          · have hstop := hmatches.start_le_stop
            have hlength := hmatches.stop_le_length
            rw [List.length_append] at hlength
            have hreached : (passed ++ rest.take (first.stop - passed.length)).length =
                first.stop := by
              rw [List.length_append, List.length_take]
              omega
            rw [← List.getLast?_append] at h
            have hpassed := ih (passed ++ rest.take (first.stop - passed.length))
              (by rw [hreached]; exact h)
            rwa [List.append_assoc, List.take_append_drop] at hpassed

theorem matchesIn_matchesAt {r : Regex} {text : List Char} {span : Span}
    (h : span ∈ r.matchesIn text) : MatchesAt r text span :=
  findFrom_matchesAt [] h

end Curia.Regex
