import Curia.Proofs.Regex.Completeness

/-!
Which matches are found. Ways to match are followed in the order of their starts, so a search finds a
match that begins no later than any other. The matches of a text are found from left to right and
without overlaps, and none begins outside of those that are found.
-/

namespace Curia.Regex

/-! ### The end of a way -/

/-- The end is among the ways only if it has been reached. -/
def Stops (go : Nat → Front) : Prop :=
  ∀ seen, [] ∈ (go seen).ways → (go seen).done = true

namespace Stops

theorem blocked : Stops .blocked := by
  intro seen h
  cases h

theorem branch {label : Nat} {first second : Nat → Front} (hfirst : Stops first)
    (hsecond : Stops second) : Stops (.branch label first second) := by
  intro seen hmem
  simp only [Front.branch, Front.once, Front.orElse] at hmem ⊢
  split at hmem
  · cases hmem
  · next hlabel =>
    rw [if_neg hlabel]
    split at hmem
    · next hdone =>
      rw [if_pos hdone]
      exact hdone
    · next hdone =>
      rw [if_neg hdone]
      rcases List.mem_append.1 hmem with hmem | hmem
      · exact absurd (hfirst _ hmem) hdone
      · exact hsecond _ hmem

end Stops

theorem explore_stops (p : Place) (r : Regex) {next : List Regex} {go : Nat → Front}
    (hgo : Stops go) : Stops (explore p r next go) := by
  have hagain {label : Nat} {greedy : Bool} {go repeated : Nat → Front} (hgo : Stops go)
      (hrepeated : Stops repeated) :
      Stops (if greedy then .branch label repeated go else .branch label go repeated) := by
    split
    · exact .branch hrepeated hgo
    · exact .branch hgo hrepeated
  induction r generalizing next go with
  | empty => exact hgo
  | chars label set =>
      intro seen hmem
      simp only [explore, Front.once] at hmem
      split at hmem
      · cases hmem
      · cases List.mem_singleton.1 hmem
  | look a =>
      rw [explore]
      split
      · exact hgo
      · exact .blocked
  | seq r s ihr ihs => exact ihr (ihs hgo)
  | alt label r s ihr ihs => exact .branch (ihr hgo) (ihs hgo)
  | plus label greedy r ih => exact ih (hagain hgo (ih .blocked))
  | again label greedy r ih => exact hagain hgo (ih .blocked)

theorem exploreAll_stops (p : Place) (next : List Regex) : Stops (exploreAll p next) := by
  induction next with
  | nil => exact fun _ _ => rfl
  | cons r rs ih => exact explore_stops p r ih

/-! ### The order of the ways -/

/-- The ways stand in the order of their starts. -/
def Sorted (ways : List Way) : Prop := ways.Pairwise fun w v => w.start ≤ v.start

theorem follow_sorted {p : Place} {ways : List Way} (h : Sorted ways) (seen : Nat) :
    Sorted (follow p ways seen) := by
  induction ways generalizing seen with
  | nil => exact .nil
  | cons w ws ih =>
      obtain ⟨hw, hws⟩ := List.pairwise_cons.1 h
      rw [follow]
      apply List.pairwise_append.2
      refine ⟨?_, ?_, ?_⟩
      · exact List.pairwise_map.2 (List.pairwise_of_forall fun _ _ => Nat.le_refl _)
      · split
        · exact .nil
        · exact ih hws _
      · intro v hv u hu
        obtain ⟨next, -, rfl⟩ := List.mem_map.1 hv
        split at hu
        · cases hu
        · obtain ⟨u', hu', hstart, -⟩ := exists_of_mem_follow hu
          rw [hstart]
          exact hw u' hu'

/-- A way that has come to its end has begun no earlier than those that go on. -/
theorem start_le_of_ended {p : Place} {ways : List Way} {seen : Nat} (h : Sorted ways) {e : Way}
    (he : e ∈ follow p ways seen) (hend : e.next = []) :
    ∀ w ∈ follow p ways seen, w.start ≤ e.start := by
  induction ways generalizing seen with
  | nil => cases he
  | cons w ws ih =>
      obtain ⟨hw, hws⟩ := List.pairwise_cons.1 h
      rw [follow] at he ⊢
      cases hdone : (exploreAll p w.next seen).done with
      | true =>
          simp only [hdone, if_true, List.append_nil, List.mem_map] at he ⊢
          obtain ⟨_, -, rfl⟩ := he
          rintro v ⟨_, -, rfl⟩
          exact Nat.le_refl _
      | false =>
          simp only [hdone, Bool.false_eq_true, if_false] at he ⊢
          have he : e ∈ follow p ws (exploreAll p w.next seen).seen := by
            rcases List.mem_append.1 he with he | he
            · obtain ⟨next, hnext, rfl⟩ := List.mem_map.1 he
              obtain rfl : next = [] := hend
              have hstop := exploreAll_stops p w.next seen hnext
              rw [hdone] at hstop
              cases hstop
            · exact he
          intro v hv
          rcases List.mem_append.1 hv with hv | hv
          · obtain ⟨_, -, rfl⟩ := List.mem_map.1 hv
            obtain ⟨e', he', hstart, -⟩ := exists_of_mem_follow he
            rw [hstart]
            exact hw e' he'
          · exact ih hws he v hv

/-- What the first ways lead to comes first. -/
theorem exists_follow_append (p : Place) (ways others : List Way) (seen : Nat) :
    ∃ more, follow p (ways ++ others) seen = follow p ways seen ++ more := by
  induction ways generalizing seen with
  | nil => exact ⟨follow p others seen, rfl⟩
  | cons w ws ih =>
      obtain ⟨more, hmore⟩ := ih (exploreAll p w.next seen).seen
      rw [List.cons_append, follow, follow, hmore]
      split
      · exact ⟨[], (List.append_nil _).symm⟩
      · exact ⟨more, (List.append_assoc ..).symm⟩

/-- The ways stand in order, and none has begun later than the match that is known. -/
structure InOrder (pos : Nat) (ways : List Way) (found : Option Span) : Prop where
  sorted : Sorted ways
  begun : ∀ w ∈ ways, w.start ≤ pos
  known : ∀ span ∈ found, span.start ≤ pos
  notLater : ∀ span ∈ found, ∀ w ∈ ways, w.start ≤ span.start

/-- The ways that are followed at a place. -/
def entering (r : Regex) (pos : Nat) (ways : List Way) (found : Option Span) : List Way :=
  if found.isNone then ways ++ [⟨pos, [r]⟩] else ways

theorem mem_entering {r : Regex} {pos : Nat} {ways : List Way} {found : Option Span} {w : Way}
    (h : w ∈ ways) : w ∈ entering r pos ways found := by
  rw [entering]
  split
  · exact List.mem_append_left _ h
  · exact h

theorem within_entering {table : List (Nat × List Regex)} {r : Regex} {pos : Nat}
    {ways : List Way} {found : Option Span} (hr : Within table [r])
    (h : ∀ w ∈ ways, Within table w.next) : ∀ w ∈ entering r pos ways found, Within table w.next := by
  intro w hw
  rw [entering] at hw
  split at hw
  · rcases List.mem_append.1 hw with hw | hw
    · exact h w hw
    · obtain rfl := List.mem_singleton.1 hw
      exact hr
  · exact h w hw

theorem arrive_snd (r : Regex) (p : Place) (pos : Nat) (ways : List Way) (found : Option Span) :
    (arrive r p pos ways found).2 =
      (((follow p (entering r pos ways found) 0).find? (·.next.isEmpty)).map
        fun w => ⟨w.start, pos⟩).or found := rfl

theorem Way.take?_eq_some_iff {c : Char} {w w' : Way} :
    w.take? c = some w' ↔ ∃ label set next, w.next = chars label set :: next ∧
      set.contains c = true ∧ w' = { w with next } := by
  rw [take?]
  split
  · next label set next hnext =>
    rw [Option.ite_none_right_eq_some]
    constructor
    · rintro ⟨hc, hw'⟩
      exact ⟨label, set, next, hnext, hc, (Option.some.inj hw').symm⟩
    · rintro ⟨_, _, _, hnext', hc, rfl⟩
      rw [hnext] at hnext'
      cases hnext'
      exact ⟨hc, rfl⟩
  · next hother =>
    constructor
    · intro h
      cases h
    · rintro ⟨label, set, next, hnext, -⟩
      exact absurd hnext (hother label set next)

theorem Way.start_take? {c : Char} {w w' : Way} (h : w.take? c = some w') :
    w'.start = w.start := by
  obtain ⟨_, _, _, -, -, rfl⟩ := take?_eq_some_iff.1 h
  rfl

namespace InOrder

variable {r : Regex} {p : Place} {pos : Nat} {ways : List Way} {found : Option Span}

theorem entering (h : InOrder pos ways found) : InOrder pos (entering r pos ways found) found := by
  cases found with
  | some span => exact h
  | none =>
      refine ⟨List.pairwise_append.2 ⟨h.sorted, List.pairwise_singleton _ _, ?_⟩, ?_, ?_, ?_⟩
      · intro w hw v hv
        obtain rfl := List.mem_singleton.1 hv
        exact h.begun w hw
      · intro w hw
        rcases List.mem_append.1 hw with hw | hw
        · exact h.begun w hw
        · obtain rfl := List.mem_singleton.1 hw
          exact Nat.le_refl pos
      · intro span hspan
        cases hspan
      · intro span hspan
        cases hspan

theorem follow (h : InOrder pos ways found) (seen : Nat) :
    InOrder pos (follow p ways seen) found := by
  refine ⟨follow_sorted h.sorted seen, ?_, h.known, ?_⟩
  · intro w hw
    obtain ⟨v, hv, hstart, -⟩ := exists_of_mem_follow hw
    exact hstart ▸ h.begun v hv
  · intro span hspan w hw
    obtain ⟨v, hv, hstart, -⟩ := exists_of_mem_follow hw
    exact hstart ▸ h.notLater span hspan v hv

theorem arrive (h : InOrder pos ways found) :
    InOrder pos (arrive r p pos ways found).1 (arrive r p pos ways found).2 := by
  have hways := (h.entering (r := r)).follow (p := p) 0
  have hsorted := (h.entering (r := r)).sorted
  refine ⟨hways.sorted, hways.begun, ?_, ?_⟩
  · intro span hspan
    rcases Option.or_eq_some_iff.1 hspan with hended | ⟨-, hspan⟩
    · obtain ⟨e, he, rfl⟩ := Option.map_eq_some_iff.1 hended
      exact hways.begun e (List.mem_of_find?_eq_some he)
    · exact h.known span hspan
  · intro span hspan
    rcases Option.or_eq_some_iff.1 hspan with hended | ⟨-, hspan⟩
    · obtain ⟨e, he, rfl⟩ := Option.map_eq_some_iff.1 hended
      have hend : e.next = [] := by simpa using List.find?_some he
      exact start_le_of_ended hsorted (List.mem_of_find?_eq_some he) hend
    · exact hways.notLater span hspan

/-- A match that takes the place of one that is known begins no later. -/
theorem exists_arrive (h : InOrder pos ways found) {span : Span} (hspan : span ∈ found) :
    ∃ span' ∈ (Regex.arrive r p pos ways found).2, span'.start ≤ span.start := by
  have hways := (h.entering (r := r)).follow (p := p) 0
  rw [arrive_snd]
  cases hended : (Regex.follow p (Regex.entering r pos ways found) 0).find? (·.next.isEmpty) with
  | none => exact ⟨span, hspan, Nat.le_refl _⟩
  | some e =>
      exact ⟨⟨e.start, pos⟩, rfl, hways.notLater span hspan e (List.mem_of_find?_eq_some hended)⟩

theorem take (h : InOrder pos ways found) (c : Char) :
    InOrder (pos + 1) (ways.filterMap (·.take? c)) found := by
  have htaken {w : Way} (hw : w ∈ ways.filterMap (·.take? c)) : ∃ v ∈ ways, w.start = v.start := by
    obtain ⟨v, hv, htake⟩ := List.mem_filterMap.1 hw
    exact ⟨v, hv, Way.start_take? htake⟩
  refine ⟨?_, ?_, fun span hspan => Nat.le_succ_of_le (h.known span hspan), ?_⟩
  · refine h.sorted.filterMap _ fun w v hwv w' hw' v' hv' => ?_
    rw [Way.start_take? hw', Way.start_take? hv']
    exact hwv
  · intro w hw
    obtain ⟨v, hv, hstart⟩ := htaken hw
    exact hstart ▸ Nat.le_succ_of_le (h.begun v hv)
  · intro span hspan w hw
    obtain ⟨v, hv, hstart⟩ := htaken hw
    exact hstart ▸ h.notLater span hspan v hv

end InOrder

/-! ### The first match -/

/-- Where a way can be finished, a match is known that begins no later, or a way that begins no later
takes the next character and can be finished. -/
theorem exists_timely {table : List (Nat × List Regex)} (htable : (table.map Prod.fst).Nodup)
    {r : Regex} {p : Place} {pos : Nat} {ways : List Way} {found : Option Span}
    (horder : InOrder pos ways found)
    (hwithin : ∀ v ∈ entering r pos ways found, Within table v.next) {w : Way}
    (hw : w ∈ entering r pos ways found) {piece : List Char} {after : Option Char}
    (hafter : p.after = piece.head?.or after) (hm : Matches w.next p.before piece after) :
    (∃ span ∈ (arrive r p pos ways found).2, span.start ≤ w.start) ∨
      ∃ c piece', piece = c :: piece' ∧ ∃ v ∈ (arrive r p pos ways found).1, v.start ≤ w.start ∧
        ∃ v', v.take? c = some v' ∧ Matches v'.next (some c) piece' after := by
  have hsorted := horder.entering (r := r).sorted
  have hways : (arrive r p pos ways found).1 = follow p (entering r pos ways found) 0 := rfl
  rw [arrive_snd, hways]
  obtain ⟨front, back, hsplit⟩ := List.append_of_mem hw
  have hsplit : entering r pos ways found = (front ++ [w]) ++ back := by
    rw [hsplit, List.append_assoc]
    rfl
  rw [hsplit] at hsorted hwithin ⊢
  obtain ⟨more, hmore⟩ := exists_follow_append p (front ++ [w]) back 0
  have hle : ∀ v ∈ follow p (front ++ [w]) 0, v.start ≤ w.start := by
    intro v hv
    obtain ⟨u, hu, hstart, -⟩ := exists_of_mem_follow hv
    rw [hstart]
    rcases List.mem_append.1 hu with hu | hu
    · exact (List.pairwise_append.1 (List.pairwise_append.1 hsorted).1).2.2 u hu w
        List.mem_cons_self
    · obtain rfl := List.mem_singleton.1 hu
      exact Nat.le_refl _
  rw [hmore]
  cases hended : (follow p (front ++ [w]) 0).find? (·.next.isEmpty) with
  | some e =>
      left
      rw [List.find?_append, hended]
      exact ⟨⟨e.start, pos⟩, rfl, hle e (List.mem_of_find?_eq_some hended)⟩
  | none =>
      right
      have hopen (v : Way) (hv : v ∈ follow p (front ++ [w]) 0) : v.next ≠ [] := by
        simpa using List.find?_eq_none.1 hended v hv
      have hwithin' : ∀ v ∈ front ++ [w], Within table v.next :=
        fun v hv => hwithin v (List.mem_append_left _ hv)
      have hmem : w ∈ front ++ [w] := List.mem_append_right _ List.mem_cons_self
      obtain ⟨seen, -, hcovered, hsince⟩ := follow_explores htable hwithin' 0 hopen
      obtain ⟨before, _⟩ := p
      obtain rfl := hafter
      obtain ⟨label, set, rest, c, piece', hpiece, hnext, hc, hm⟩ :=
        exists_way_of_matches (fun l next hl hseen => hsince l next hl hseen (Nat.zero_testBit l))
          hm rfl (hcovered w hmem) (hwithin' w hmem)
      obtain ⟨v, hv, hvnext⟩ := List.mem_map.1 hnext
      exact ⟨c, piece', hpiece, v, List.mem_append_left _ hv, hle v hv, { v with next := rest },
        Way.take?_eq_some_iff.2 ⟨label, set, rest, hvnext, hc, rfl⟩, hm⟩

/-- A match is due that begins no later than a bound: it is known, or it is one by a way that has
begun, or it begins at one of the places ahead. -/
inductive Due (r : Regex) (bound : Nat) (before : Option Char) (pos : Nat) (ways : List Way)
    (found : Option Span) (rest : List Char) : Prop
  | known (span : Span) (hspan : span ∈ found) (hle : span.start ≤ bound)
  | begun (w : Way) (hw : w ∈ entering r pos ways found) (hle : w.start ≤ bound)
      (piece post : List Char) (hrest : rest = piece ++ post)
      (hm : Matches w.next before piece post.head?)
  | ahead (c : Char) (skipped piece post : List Char) (hrest : rest = c :: (skipped ++ piece ++ post))
      (hle : pos + 1 + skipped.length ≤ bound)
      (hm : Matches [r] (skipped.getLast?.or (some c)) piece post.head?)

namespace Due

variable {r : Regex} {bound : Nat} {before : Option Char} {pos : Nat} {ways : List Way}
  {found : Option Span}

theorem of_matches (horder : InOrder pos ways found) (skipped piece post : List Char)
    (hle : pos + skipped.length ≤ bound)
    (hm : Matches [r] (skipped.getLast?.or before) piece post.head?) :
    Due r bound before pos ways found (skipped ++ piece ++ post) := by
  cases skipped with
  | nil =>
      cases found with
      | some span => exact .known span rfl (Nat.le_trans (horder.known span rfl) hle)
      | none =>
          exact .begun ⟨pos, [r]⟩ (List.mem_append_right _ List.mem_cons_self) hle piece post rfl hm
  | cons c skipped =>
      refine .ahead c skipped piece post rfl ?_ ?_
      · rw [List.length_cons] at hle
        omega
      · rw [List.getLast?_cons] at hm
        cases hlast : skipped.getLast? <;> simpa [hlast] using hm

variable {table : List (Nat × List Regex)} (htable : (table.map Prod.fst).Nodup)
  (horder : InOrder pos ways found)
  (hwithin : ∀ w ∈ entering r pos ways found, Within table w.next)

include htable horder hwithin

theorem exists_arrive (h : Due r bound before pos ways found []) :
    ∃ span ∈ (arrive r ⟨before, none⟩ pos ways found).2, span.start ≤ bound := by
  cases h with
  | known span hspan hle =>
      obtain ⟨span', hspan', hle'⟩ := horder.exists_arrive (r := r) (p := ⟨before, none⟩) hspan
      exact ⟨span', hspan', Nat.le_trans hle' hle⟩
  | begun w hw hle piece post hrest hm =>
      obtain ⟨rfl, rfl⟩ := List.nil_eq_append_iff.1 hrest
      obtain ⟨span, hspan, hle'⟩ | ⟨_, _, hcons, -⟩ :=
        exists_timely htable horder hwithin hw (p := ⟨before, none⟩) rfl hm
      · exact ⟨span, hspan, Nat.le_trans hle' hle⟩
      · cases hcons
  | ahead c skipped piece post hrest => cases hrest

theorem step {d : Char} {cs : List Char} (h : Due r bound before pos ways found (d :: cs)) :
    Due r bound (some d) (pos + 1)
      ((arrive r ⟨before, some d⟩ pos ways found).1.filterMap (·.take? d))
      (arrive r ⟨before, some d⟩ pos ways found).2 cs := by
  cases h with
  | known span hspan hle =>
      obtain ⟨span', hspan', hle'⟩ := horder.exists_arrive (r := r) (p := ⟨before, some d⟩) hspan
      exact .known span' hspan' (Nat.le_trans hle' hle)
  | begun w hw hle piece post hrest hm =>
      have hafter : some d = piece.head?.or post.head? := by
        rw [← List.head?_append, ← hrest, List.head?_cons]
      obtain ⟨span, hspan, hle'⟩ | ⟨c, piece', rfl, v, hv, hle', v', htake, hm⟩ :=
        exists_timely htable (p := ⟨before, some d⟩) horder hwithin hw hafter hm
      · exact .known span hspan (Nat.le_trans hle' hle)
      · obtain ⟨rfl, hcs⟩ := List.cons.inj hrest
        have hmem := List.mem_filterMap.2 ⟨v, hv, htake⟩
        refine .begun v' (mem_entering hmem) ?_ piece' post hcs hm
        rw [Way.start_take? htake]
        exact Nat.le_trans hle' hle
  | ahead c skipped piece post hrest hle hm =>
      obtain ⟨rfl, rfl⟩ := List.cons.inj hrest
      exact of_matches (horder.arrive.take d) skipped piece post hle hm

end Due

/-- Whenever a match is due, one is found that is not too late. -/
theorem exists_scan_of_due {table : List (Nat × List Regex)} (htable : (table.map Prod.fst).Nodup)
    {r : Regex} (hr : Within table [r]) {bound : Nat} {before : Option Char} {pos : Nat}
    {ways : List Way} {found : Option Span} {rest : List Char} (horder : InOrder pos ways found)
    (hwithin : ∀ w ∈ ways, Within table w.next) (h : Due r bound before pos ways found rest) :
    ∃ span, scan r before pos ways found rest = some span ∧ span.start ≤ bound := by
  induction rest generalizing before pos ways found with
  | nil => exact h.exists_arrive htable horder (within_entering hr hwithin)
  | cons d cs ih =>
      have hentering : ∀ w ∈ entering r pos ways found, Within table w.next :=
        within_entering hr hwithin
      have hstep := h.step htable horder hentering
      have harrive := (horder.arrive (r := r) (p := ⟨before, some d⟩)).take d
      rw [scan]
      simp only
      split
      · next hstop =>
        rw [Bool.and_eq_true, List.isEmpty_iff] at hstop
        obtain ⟨hways, hfound⟩ := hstop
        obtain ⟨span, hspan⟩ := Option.isSome_iff_exists.1 hfound
        refine ⟨span, hspan, ?_⟩
        rw [hways, hspan] at hstep
        have hknown := harrive.known span hspan
        cases hstep with
        | known span' hspan' hle =>
            cases hspan'
            exact hle
        | begun w hw => cases hw
        | ahead c skipped piece post hrest hle => omega
      · refine ih harrive (fun w hw => ?_) hstep
        obtain ⟨v, hv, htake⟩ := List.mem_filterMap.1 hw
        obtain ⟨_, _, _, hnext, -, rfl⟩ := Way.take?_eq_some_iff.1 htake
        obtain ⟨u, hu, -, hreaches⟩ := exists_of_mem_follow hv
        exact (hnext ▸ (hentering u hu).reaches hreaches).tail

/-! ### All matches -/

theorem drop_drop_of_le {α : Type} {l : List α} {m n : Nat} (h : m ≤ n) :
    (l.drop m).drop (n - m) = l.drop n := by
  rw [List.drop_drop, Nat.add_sub_cancel' h]

/-- The first match in a text from a position on. -/
def search (r : Regex) (text : List Char) (pos : Nat) : Option Span :=
  r.find? (text.take pos).getLast? pos (text.drop pos)

section

variable {r : Regex} {text : List Char} {pos : Nat} (hpos : pos ≤ text.length)

include hpos

theorem search_matchesAt {span : Span} (h : r.search text pos = some span) :
    MatchesAt r text span ∧ pos ≤ span.start := by
  have hlength : (text.take pos).length = pos := List.length_take_of_le hpos
  constructor
  · rw [← List.take_append_drop pos text]
    apply find?_matchesAt
    rw [hlength]
    exact h
  · exact scan_start_le (Nat.le_refl pos) (fun _ h => by cases h) (fun _ h => by cases h) h

/-- No match begins before the one that is found. -/
theorem exists_search_le (hr : r.labels.Nodup) {span : Span} (h : MatchesAt r text span)
    (hspan : pos ≤ span.start) : ∃ first, r.search text pos = some first ∧ first.start ≤ span.start := by
  obtain ⟨pre, piece, post, rfl, rfl, hm⟩ := h
  have htable : ((r.entries []).map Prod.fst).Nodup := (map_fst_entries r []).symm ▸ hr
  have hwithin : Within (r.entries []) [r] := by simp [Within, entriesAll]
  have horder : InOrder pos [] none := by
    refine ⟨.nil, ?_, ?_, ?_⟩ <;> intro _ h <;> cases h
  have hspan : pos ≤ pre.length := hspan
  -- the characters that are passed over, up to where the match begins
  have hdrop : (pre ++ piece ++ post).drop pos = pre.drop pos ++ piece ++ post := by
    rw [List.append_assoc, List.drop_append_of_le_length hspan, ← List.append_assoc]
  have htake : (pre ++ piece ++ post).take pos = pre.take pos := by
    rw [List.append_assoc, List.take_append_of_le_length hspan]
  have hlast : (pre.drop pos).getLast?.or (pre.take pos).getLast? = pre.getLast? := by
    rw [← List.getLast?_append, List.take_append_drop]
  refine exists_scan_of_due htable hwithin horder (fun w hw => by cases hw) ?_
  rw [hdrop, htake]
  apply Due.of_matches horder
  · show pos + (pre.drop pos).length ≤ pre.length
    rw [List.length_drop]
    omega
  · rw [hlast]
    exact hm

end

/-- The one span ends where the other begins, or before, and the other ends later. -/
def Span.Before (a b : Span) : Prop := a.stop ≤ b.start ∧ a.stop < b.stop

/-- The matches in a text from a position on, where the end of the one before may be known. -/
inductive Found (r : Regex) (text : List Char) : Option Nat → Nat → List Span → Prop
  | none {lastEnd : Option Nat} {pos : Nat} (h : r.search text pos = none) : Found r text lastEnd pos []
  /-- An empty match at the end of the one before does not count. -/
  | last {pos : Nat} (h : text.length = pos) : Found r text (some pos) pos []
  | pass {pos : Nat} {spans : List Span} (hlt : pos < text.length)
      (h : Found r text none (pos + 1) spans) : Found r text (some pos) pos spans
  | next {lastEnd : Option Nat} {pos : Nat} {spans : List Span} (span : Span)
      (hspan : r.search text pos = some span)
      (hnew : ¬(span.start = span.stop ∧ lastEnd = some span.stop))
      (h : Found r text (some span.stop) span.stop spans) : Found r text lastEnd pos (span :: spans)

/-- The steps that are left from a position on. -/
def stepsLeft (text : List Char) (lastEnd : Option Nat) (pos : Nat) : Nat :=
  2 * (text.length - pos) + if lastEnd = some pos then 1 else 2

@[simp] theorem stepsLeft_some (text : List Char) (pos : Nat) :
    stepsLeft text (some pos) pos = 2 * (text.length - pos) + 1 := by simp [stepsLeft]

theorem stepsLeft_of_ne {text : List Char} {lastEnd : Option Nat} {pos : Nat}
    (h : lastEnd ≠ some pos) : stepsLeft text lastEnd pos = 2 * (text.length - pos) + 2 := by
  simp [stepsLeft, h]

/-- A match that counts leaves fewer steps. -/
theorem stepsLeft_lt_of_next {text : List Char} {lastEnd : Option Nat} {pos stop : Nat}
    (hle : pos ≤ stop) (hstop : stop ≤ text.length) (hnew : stop = pos → lastEnd ≠ some pos) :
    stepsLeft text (some stop) stop < stepsLeft text lastEnd pos := by
  rw [stepsLeft_some]
  by_cases hlast : lastEnd = some pos
  · have hmoved : stop ≠ pos := fun hstay => hnew hstay hlast
    rw [hlast, stepsLeft_some]
    omega
  · rw [stepsLeft_of_ne hlast]
    omega

/-- So does a character that is passed over. -/
theorem stepsLeft_lt_of_pass {text : List Char} {pos : Nat} (hlt : pos < text.length) :
    stepsLeft text none (pos + 1) < stepsLeft text (some pos) pos := by
  rw [stepsLeft_some, stepsLeft_of_ne (by simp)]
  omega

theorem getLast?_take {text : List Char} {pos stop : Nat} (hle : pos ≤ stop) :
    ((text.drop pos).take (stop - pos)).getLast?.or (text.take pos).getLast? =
      (text.take stop).getLast? := by
  rw [← List.getLast?_append, ← List.take_add, Nat.add_sub_cancel' hle]

theorem of_drop_eq_cons {text cs : List Char} {pos : Nat} {c : Char} (h : text.drop pos = c :: cs) :
    pos < text.length ∧ text.drop (pos + 1) = cs ∧ (text.take (pos + 1)).getLast? = some c := by
  have hlt : pos < text.length := by
    by_contra hge
    rw [List.drop_eq_nil_of_le (Nat.not_lt.1 hge)] at h
    cases h
  rw [List.drop_eq_getElem_cons hlt] at h
  obtain ⟨rfl, rfl⟩ := List.cons.inj h
  refine ⟨hlt, rfl, ?_⟩
  rw [List.take_succ_eq_append_getElem hlt, List.getLast?_concat]

theorem found_findFrom (r : Regex) (text : List Char) {n : Nat} {lastEnd : Option Nat} {pos : Nat}
    (hpos : pos ≤ text.length) (hlast : ∀ e ∈ lastEnd, e ≤ pos)
    (hn : stepsLeft text lastEnd pos ≤ n) :
    Found r text lastEnd pos
      (r.findFrom lastEnd n (text.take pos).getLast? pos (text.drop pos)) := by
  induction n generalizing lastEnd pos with
  | zero =>
      rw [stepsLeft] at hn
      split at hn <;> omega
  | succ n ih =>
      rw [findFrom.eq_def]
      simp only
      cases hspan : r.find? (text.take pos).getLast? pos (text.drop pos) with
      | none => exact .none hspan
      | some span =>
          obtain ⟨hmatches, hle⟩ := search_matchesAt hpos (r := r) hspan
          have hstart := hmatches.start_le_stop
          simp only
          split
          · next hold =>
            obtain ⟨hempty, hlastEnd⟩ := hold
            have hstay : span.stop = pos := by
              have := hlast span.stop hlastEnd
              omega
            obtain rfl : lastEnd = some pos := by rw [hlastEnd, hstay]
            cases hrest : text.drop pos with
            | nil =>
                rw [List.drop_eq_nil_iff] at hrest
                exact .last (Nat.le_antisymm hrest hpos)
            | cons c cs =>
                obtain ⟨hlt, hcs, hc⟩ := of_drop_eq_cons hrest
                simp only
                rw [← hcs, ← hc]
                refine .pass hlt (ih hlt (fun e he => by cases he) ?_)
                have hless := stepsLeft_lt_of_pass hlt
                omega
          · next hnew =>
            rw [getLast?_take (Nat.le_trans hle hstart), drop_drop_of_le (Nat.le_trans hle hstart)]
            refine .next span hspan hnew (ih hmatches.stop_le_length ?_ ?_)
            · rintro e ⟨⟩
              exact Nat.le_refl _
            · have hless : stepsLeft text (some span.stop) span.stop < stepsLeft text lastEnd pos :=
                stepsLeft_lt_of_next (Nat.le_trans hle hstart) hmatches.stop_le_length
                  fun hstay hold => hnew ⟨by omega, hold.trans (congrArg some hstay.symm)⟩
              omega

theorem found_matchesIn (r : Regex) (text : List Char) : Found r text none 0 (r.matchesIn text) := by
  apply found_findFrom r text (Nat.zero_le _) (fun e he => by cases he)
  rw [stepsLeft_of_ne (by simp)]
  omega

namespace Found

variable {r : Regex} {text : List Char} {lastEnd : Option Nat} {pos : Nat} {spans : List Span}

theorem matchesAt (h : Found r text lastEnd pos spans) (hpos : pos ≤ text.length) :
    ∀ span ∈ spans, MatchesAt r text span ∧ pos ≤ span.start := by
  induction h with
  | none h =>
      intro span hspan
      cases hspan
  | last h =>
      intro span hspan
      cases hspan
  | pass hlt h ih =>
      intro span hspan
      obtain ⟨hmatches, hle⟩ := ih hlt span hspan
      exact ⟨hmatches, Nat.le_of_succ_le hle⟩
  | next first hfirst hnew h ih =>
      obtain ⟨hmatches, hle⟩ := search_matchesAt hpos hfirst
      intro span hspan
      rcases List.mem_cons.1 hspan with rfl | hspan
      · exact ⟨hmatches, hle⟩
      · obtain ⟨hmatches', hle'⟩ := ih hmatches.stop_le_length span hspan
        have := hmatches.start_le_stop
        exact ⟨hmatches', by omega⟩

theorem exists_search (h : Found r text lastEnd pos spans) (hpos : pos ≤ text.length) :
    ∀ span ∈ spans, ∃ start ≤ text.length, r.search text start = some span := by
  induction h with
  | none h =>
      intro span hspan
      cases hspan
  | last h =>
      intro span hspan
      cases hspan
  | pass hlt h ih => exact ih hlt
  | @next lastEnd pos spans first hfirst hnew h ih =>
      intro span hspan
      rcases List.mem_cons.1 hspan with rfl | hspan
      · exact ⟨pos, hpos, hfirst⟩
      · exact ih (search_matchesAt hpos hfirst).1.stop_le_length span hspan

/-- The matches come from left to right, and none begins before the end of the one before it. -/
theorem ordered (h : Found r text lastEnd pos spans) (hpos : pos ≤ text.length) :
    spans.Pairwise Span.Before ∧ (lastEnd = some pos → ∀ span ∈ spans, pos < span.stop) := by
  induction h with
  | none h =>
      refine ⟨.nil, fun _ span hspan => ?_⟩
      cases hspan
  | last h =>
      refine ⟨.nil, fun _ span hspan => ?_⟩
      cases hspan
  | pass hlt h ih =>
      refine ⟨(ih hlt).1, fun _ span hspan => ?_⟩
      obtain ⟨hmatches, hle⟩ := h.matchesAt hlt span hspan
      exact Nat.lt_of_lt_of_le hle hmatches.start_le_stop
  | @next lastEnd pos spans first hfirst hnew h ih =>
      obtain ⟨hmatches, hle⟩ := search_matchesAt hpos hfirst
      have hstart := hmatches.start_le_stop
      obtain ⟨hordered, hlater⟩ := ih hmatches.stop_le_length
      have hafter := h.matchesAt hmatches.stop_le_length
      refine ⟨List.pairwise_cons.2 ⟨fun span hspan => ?_, hordered⟩, fun hlast span hspan => ?_⟩
      · exact ⟨(hafter span hspan).2, hlater rfl span hspan⟩
      · rcases List.mem_cons.1 hspan with rfl | hspan
        · apply Nat.lt_of_le_of_ne (Nat.le_trans hle hstart)
          intro hstay
          exact hnew ⟨by omega, hlast.trans (congrArg some hstay)⟩
        · have := hlater rfl span hspan
          omega

/-- No match is left out: each begins within one that is found, or at its end. -/
theorem exists_around (hr : r.labels.Nodup) (h : Found r text lastEnd pos spans)
    (hpos : pos ≤ text.length) {span : Span} (hspan : MatchesAt r text span)
    (hle : pos ≤ span.start) :
    lastEnd = some span.start ∨ ∃ t ∈ spans, t.start ≤ span.start ∧ span.start ≤ t.stop := by
  induction h with
  | none h =>
      obtain ⟨first, hfirst, -⟩ := exists_search_le hpos hr hspan hle
      rw [h] at hfirst
      cases hfirst
  | last h =>
      have hstart := hspan.start_le_stop
      have hstop := hspan.stop_le_length
      exact .inl (congrArg some (by omega))
  | @pass pos spans hlt h ih =>
      rcases Nat.eq_or_lt_of_le hle with hhere | hlater
      · exact .inl (congrArg some hhere)
      · right
        rcases ih hlt hlater with hlast | hfound
        · cases hlast
        · exact hfound
  | @next lastEnd pos spans first hfirst hnew h ih =>
      right
      obtain ⟨hmatches, -⟩ := search_matchesAt hpos hfirst
      obtain ⟨first', hfirst', hstart⟩ := exists_search_le hpos hr hspan hle
      obtain rfl : first' = first := Option.some.inj (hfirst'.symm.trans hfirst)
      rcases Nat.lt_or_ge first'.stop span.start with hbehind | hwithin
      · rcases ih hmatches.stop_le_length (Nat.le_of_lt hbehind) with hlast | ⟨t, ht, hfound⟩
        · have := Option.some.inj hlast
          omega
        · exact ⟨t, List.mem_cons_of_mem _ ht, hfound⟩
      · exact ⟨first', List.mem_cons_self, hstart, hwithin⟩

end Found

/-- The matches in a text come from left to right and do not overlap. -/
theorem matchesIn_ordered (r : Regex) (text : List Char) :
    (r.matchesIn text).Pairwise Span.Before :=
  ((found_matchesIn r text).ordered (Nat.zero_le _)).1

/-- Of two matches one comes before the other. -/
theorem before_or_before {r : Regex} {text : List Char} {s t : Span} (hs : s ∈ r.matchesIn text)
    (ht : t ∈ r.matchesIn text) (hne : s ≠ t) : s.Before t ∨ t.Before s := by
  have hordered := List.pairwise_iff_getElem.1 (matchesIn_ordered r text)
  obtain ⟨i, hi, rfl⟩ := List.getElem_of_mem hs
  obtain ⟨j, hj, rfl⟩ := List.getElem_of_mem ht
  rcases Nat.lt_trichotomy i j with hlt | rfl | hlt
  · exact .inl (hordered i j hi hj hlt)
  · exact absurd rfl hne
  · exact .inr (hordered j i hj hi hlt)

theorem exists_matchesIn_around {r : Regex} (hr : r.labels.Nodup) {text : List Char} {span : Span}
    (h : MatchesAt r text span) :
    ∃ t ∈ r.matchesIn text, t.start ≤ span.start ∧ span.start ≤ t.stop := by
  rcases (found_matchesIn r text).exists_around hr (Nat.zero_le _) h (Nat.zero_le _) with
    hlast | hfound
  · cases hlast
  · exact hfound

/-- Each of the matches is the first from some position on. -/
theorem exists_search_of_mem_matchesIn {r : Regex} {text : List Char} {span : Span}
    (h : span ∈ r.matchesIn text) : ∃ start ≤ text.length, r.search text start = some span :=
  (found_matchesIn r text).exists_search (Nat.zero_le _) span h

theorem matchesIn_eq_nil_iff {r : Regex} {text : List Char} :
    r.matchesIn text = [] ↔ r.isMatch text = false := by
  have hfound := found_matchesIn r text
  have hfirst : r.isMatch text = (r.search text 0).isSome := rfl
  rw [hfirst]
  generalize r.matchesIn text = spans at hfound
  cases hfound with
  | none h => simp [h]
  | next span hspan => simp [hspan]

end Curia.Regex
