import Mathlib.Data.List.Nodup
import Curia.Proofs.Regex.Labels
import Curia.Proofs.Regex.Matching

/-!
A search misses nothing. Since no label comes twice in an expression, a label tells all that is to be
matched from there on, and what has been seen at a place need not be explored again: at the end all
that a seen label leads to is among the ways or leads to labels that have been seen as well.
-/

namespace Curia.Regex

/-! ### Where labels stand -/

/-- Each label of an expression, with what is to be matched from it on. -/
def entries : Regex → List Regex → List (Nat × List Regex)
  | empty, _ | look _, _ => []
  | chars label set, next => [(label, chars label set :: next)]
  | seq r s, next => r.entries (s :: next) ++ s.entries next
  | alt label r s, next => (label, alt label r s :: next) :: (r.entries next ++ s.entries next)
  | plus label greedy r, next | again label greedy r, next =>
    (label, again label greedy r :: next) :: r.entries (again label greedy r :: next)

theorem map_fst_entries (r : Regex) (next : List Regex) :
    (r.entries next).map Prod.fst = r.labels := by
  induction r generalizing next with
  | empty => rfl
  | chars label set => rfl
  | look a => rfl
  | seq r s ihr ihs => rw [entries, List.map_append, ihr, ihs, labels]
  | alt label r s ihr ihs => rw [entries, List.map_cons, List.map_append, ihr, ihs, labels]
  | plus label greedy r ih => rw [entries, List.map_cons, ih, labels]
  | again label greedy r ih => rw [entries, List.map_cons, ih, labels]

def entriesAll : List Regex → List (Nat × List Regex)
  | [] => []
  | r :: rs => r.entries rs ++ entriesAll rs

/-- All labels of what is to be matched stand where the table says. -/
def Within (table : List (Nat × List Regex)) (next : List Regex) : Prop :=
  entriesAll next ⊆ table

namespace Within

variable {table : List (Nat × List Regex)}

theorem tail {r : Regex} {next : List Regex} (h : Within table (r :: next)) : Within table next :=
  fun _ he => h (List.mem_append_right _ he)

theorem opens {p : Place} {next next' : List Regex} (h : Within table next)
    (hopens : Opens p next next') : Within table next' := by
  intro e he
  refine h ?_
  cases hopens with
  | empty next => exact he
  | look a next h => exact he
  | seq r s next => simpa [entriesAll, entries] using he
  | left label r s next =>
      simp only [entriesAll, entries, List.cons_append, List.mem_cons, List.mem_append] at he ⊢
      rcases he with he | he
      · exact .inr (.inl (.inl he))
      · exact .inr (.inr he)
  | right label r s next =>
      simp only [entriesAll, entries, List.cons_append, List.mem_cons, List.mem_append] at he ⊢
      rcases he with he | he
      · exact .inr (.inl (.inr he))
      · exact .inr (.inr he)
  | plus label greedy r next =>
      simp only [entriesAll, entries, List.cons_append, List.mem_cons, List.mem_append] at he ⊢
      rcases he with he | he
      · exact .inr (.inl he)
      · exact he
  | more label greedy r next =>
      simp only [entriesAll, entries, List.cons_append, List.mem_cons, List.mem_append] at he ⊢
      rcases he with he | he
      · exact .inr (.inl he)
      · exact he
  | enough label greedy r next => exact List.mem_append_right _ he

theorem reaches {p : Place} {next next' : List Regex} (h : Within table next)
    (hreaches : Reaches p next next') : Within table next' := by
  induction hreaches with
  | refl => exact h
  | tail _ hopens ih => exact ih.opens hopens

end Within

/-! ### What has been seen -/

/-- Every label of the first set is in the second. -/
def Sub (seen seen' : Nat) : Prop := ∀ l, seen.testBit l = true → seen'.testBit l = true

theorem Sub.trans {a b c : Nat} (h : Sub a b) (h' : Sub b c) : Sub a c :=
  fun l hl => h' l (h l hl)

theorem testBit_mark (seen label l : Nat) :
    (seen ||| 1 <<< label).testBit l = (seen.testBit l || decide (label = l)) := by
  rw [Nat.testBit_or, Nat.one_shiftLeft, Nat.testBit_two_pow]

theorem sub_mark (seen label : Nat) : Sub seen (seen ||| 1 <<< label) := by
  intro l hl
  rw [testBit_mark, hl, Bool.true_or]

/-- The labels that come first have been seen, whichever way there is. -/
inductive Covered (p : Place) (seen : Nat) : List Regex → Prop
  | empty {next : List Regex} (h : Covered p seen next) : Covered p seen (empty :: next)
  | chars {label : Nat} {set : CharSet} {next : List Regex} (h : seen.testBit label = true) :
      Covered p seen (chars label set :: next)
  | look {a : Assertion} {next : List Regex} (h : a.holds p = true → Covered p seen next) :
      Covered p seen (look a :: next)
  | seq {r s : Regex} {next : List Regex} (h : Covered p seen (r :: s :: next)) :
      Covered p seen (seq r s :: next)
  | alt {label : Nat} {r s : Regex} {next : List Regex} (h : seen.testBit label = true) :
      Covered p seen (alt label r s :: next)
  | plus {label : Nat} {greedy : Bool} {r : Regex} {next : List Regex}
      (h : Covered p seen (r :: again label greedy r :: next)) :
      Covered p seen (plus label greedy r :: next)
  | again {label : Nat} {greedy : Bool} {r : Regex} {next : List Regex}
      (h : seen.testBit label = true) : Covered p seen (again label greedy r :: next)

theorem Covered.mono {p : Place} {seen seen' : Nat} {next : List Regex} (h : Covered p seen next)
    (hsub : Sub seen seen') : Covered p seen' next := by
  induction h with
  | empty _ ih => exact .empty ih
  | chars h => exact .chars (hsub _ h)
  | look _ ih => exact .look ih
  | seq _ ih => exact .seq ih
  | alt h => exact .alt (hsub _ h)
  | plus _ ih => exact .plus ih
  | again h => exact .again (hsub _ h)

/-- What a seen label leads to is among the ways, or has been seen. -/
def Expanded (p : Place) (seen : Nat) (ways : List (List Regex)) : List Regex → Prop
  | chars label set :: next => chars label set :: next ∈ ways
  | alt _ r s :: next => Covered p seen (r :: next) ∧ Covered p seen (s :: next)
  | again label greedy r :: next =>
    Covered p seen (r :: again label greedy r :: next) ∧ Covered p seen next
  | _ => True

theorem Expanded.mono {p : Place} {seen seen' : Nat} {ways ways' : List (List Regex)}
    {next : List Regex} (h : Expanded p seen ways next) (hsub : Sub seen seen')
    (hways : ways ⊆ ways') : Expanded p seen' ways' next := by
  match next with
  | chars _ _ :: _ => exact hways h
  | alt _ _ _ :: _ => exact ⟨h.1.mono hsub, h.2.mono hsub⟩
  | again _ _ _ :: _ => exact ⟨h.1.mono hsub, h.2.mono hsub⟩
  | [] | empty :: _ | look _ :: _ | seq _ _ :: _ | plus _ _ _ :: _ => trivial

/-- All labels of the table that have been seen lately are expanded. -/
def ExpandedSince (table : List (Nat × List Regex)) (p : Place) (before seen : Nat)
    (ways : List (List Regex)) : Prop :=
  ∀ l next, (l, next) ∈ table → seen.testBit l = true → before.testBit l = false →
    Expanded p seen ways next

theorem ExpandedSince.trans {table : List (Nat × List Regex)} {p : Place} {a b c : Nat}
    {ways ways' : List (List Regex)} (h : ExpandedSince table p a b ways)
    (h' : ExpandedSince table p b c ways') (hbc : Sub b c) :
    ExpandedSince table p a c (ways ++ ways') := by
  intro l next hmem hc ha
  cases hb : b.testBit l with
  | true => exact (h l next hmem hb ha).mono hbc (List.subset_append_left ..)
  | false =>
      exact (h' l next hmem hc hb).mono (fun _ h => h) (List.subset_append_right ..)

/-! ### Exploring -/

/-- Unless the end is reached, `go` sees the labels that come first and expands what it sees. This
holds from any set of labels on that has those of the base. -/
def Explores (table : List (Nat × List Regex)) (p : Place) (base : Nat) (next : List Regex)
    (go : Nat → Front) : Prop :=
  ∀ seen, Sub base seen → (go seen).done = false → Sub seen (go seen).seen ∧
    Covered p (go seen).seen next ∧ ExpandedSince table p seen (go seen).seen (go seen).ways

namespace Explores

variable {table : List (Nat × List Regex)} {p : Place} {base : Nat}

theorem covered {next next' : List Regex} {go : Nat → Front} (h : Explores table p base next go)
    (hcovered : ∀ seen, Covered p seen next → Covered p seen next') :
    Explores table p base next' go := by
  intro seen hbase hdone
  obtain ⟨hsub, hcov, hexpanded⟩ := h seen hbase hdone
  exact ⟨hsub, hcovered _ hcov, hexpanded⟩

theorem mono {base' : Nat} {next : List Regex} {go : Nat → Front}
    (h : Explores table p base next go) (hbase : Sub base base') :
    Explores table p base' next go :=
  fun seen hbase' => h seen (hbase.trans hbase')

theorem blocked {next : List Regex} (h : ∀ seen, Sub base seen → Covered p seen next) :
    Explores table p base next .blocked := by
  intro seen hbase _
  refine ⟨fun _ hl => hl, h seen hbase, fun l next _ hl hl' => ?_⟩
  rw [Front.blocked, hl'] at hl
  cases hl

/-- A part that is reached once for each place. -/
theorem once {label : Nat} {next : List Regex} {go : Nat → Front}
    (hcovered : ∀ seen, seen.testBit label = true → Covered p seen next)
    (hgo : ∀ seen, Sub base seen → (go (seen ||| 1 <<< label)).done = false →
      Sub (seen ||| 1 <<< label) (go (seen ||| 1 <<< label)).seen ∧
        ExpandedSince table p (seen ||| 1 <<< label) (go (seen ||| 1 <<< label)).seen
          (go (seen ||| 1 <<< label)).ways ∧
        ∀ other, (label, other) ∈ table → Expanded p (go (seen ||| 1 <<< label)).seen
          (go (seen ||| 1 <<< label)).ways other) :
    Explores table p base next (.once label go) := by
  intro seen hbase hdone
  rw [Front.once] at hdone ⊢
  cases hlabel : seen.testBit label with
  | true =>
      rw [if_pos rfl]
      refine ⟨fun _ hl => hl, hcovered seen hlabel, fun l next _ hl hl' => ?_⟩
      rw [Front.blocked, hl'] at hl
      cases hl
  | false =>
      rw [hlabel] at hdone
      simp only [Bool.false_eq_true, if_false] at hdone ⊢
      obtain ⟨hsub, hsince, hexpanded⟩ := hgo seen hbase hdone
      have hmarked : (seen ||| 1 <<< label).testBit label = true := by simp
      refine ⟨(sub_mark seen label).trans hsub, hcovered _ (hsub _ hmarked), ?_⟩
      intro l other hmem hl hl'
      by_cases hlabel : label = l
      · exact hexpanded other (hlabel ▸ hmem)
      · refine hsince l other hmem hl ?_
        rw [testBit_mark, hl', decide_eq_false hlabel, Bool.or_self]

theorem branch {label : Nat} {next next₁ next₂ : List Regex} {first second : Nat → Front}
    (hcovered : ∀ seen, seen.testBit label = true → Covered p seen next)
    (hfirst : Explores table p (base ||| 1 <<< label) next₁ first)
    (hsecond : Explores table p (base ||| 1 <<< label) next₂ second)
    (hexpanded : ∀ seen ways, Covered p seen next₁ → Covered p seen next₂ →
      ∀ other, (label, other) ∈ table → Expanded p seen ways other) :
    Explores table p base next (.branch label first second) := by
  refine once hcovered fun seen hbase hdone => ?_
  simp only [Front.orElse] at hdone ⊢
  have hbase' : Sub (base ||| 1 <<< label) (seen ||| 1 <<< label) := by
    intro l hl
    rw [testBit_mark] at hl ⊢
    rcases Bool.or_eq_true_iff.1 hl with hl | hl
    · rw [hbase l hl, Bool.true_or]
    · rw [hl, Bool.or_true]
  cases hdone₁ : (first (seen ||| 1 <<< label)).done with
  | true => simp [hdone₁] at hdone
  | false =>
      simp only [hdone₁, Bool.false_eq_true, if_false] at hdone ⊢
      obtain ⟨hsub₁, hcov₁, hsince₁⟩ := hfirst _ hbase' hdone₁
      obtain ⟨hsub₂, hcov₂, hsince₂⟩ := hsecond _ (hbase'.trans hsub₁) hdone
      exact ⟨hsub₁.trans hsub₂, hsince₁.trans hsince₂ hsub₂,
        hexpanded _ _ (hcov₁.mono hsub₂) hcov₂⟩

end Explores

theorem explore_explores {table : List (Nat × List Regex)} (htable : (table.map Prod.fst).Nodup)
    {p : Place} (r : Regex) {next : List Regex} {go : Nat → Front} {base : Nat}
    (hwithin : Within table (r :: next)) (hgo : Explores table p base next go) :
    Explores table p base (r :: next) (explore p r next go) := by
  have hone {label : Nat} {next other : List Regex} (h : (label, next) ∈ table)
      (h' : (label, other) ∈ table) : other = next :=
    congrArg Prod.snd (List.inj_on_of_nodup_map htable h' h rfl)
  -- the two ways on after a repetition, in either order
  have hagain {label : Nat} {greedy : Bool} {r : Regex} {next : List Regex}
      {go repeated : Nat → Front} {base : Nat}
      (hmem : (label, again label greedy r :: next) ∈ table)
      (hgo : Explores table p base next go)
      (hrepeated : Explores table p (base ||| 1 <<< label) (r :: again label greedy r :: next)
        repeated) :
      Explores table p base (again label greedy r :: next)
        (if greedy then .branch label repeated go else .branch label go repeated) := by
    have hgo' := hgo.mono (sub_mark base label)
    split
    · refine .branch (fun _ h => .again h) hrepeated hgo' fun seen ways h₁ h₂ other hother => ?_
      rw [hone hmem hother]
      exact ⟨h₁, h₂⟩
    · refine .branch (fun _ h => .again h) hgo' hrepeated fun seen ways h₁ h₂ other hother => ?_
      rw [hone hmem hother]
      exact ⟨h₂, h₁⟩
  have hblocked {label : Nat} {greedy : Bool} {r : Regex} {next : List Regex} {base : Nat} :
      Explores table p (base ||| 1 <<< label) (again label greedy r :: next) .blocked := by
    refine .blocked fun seen hbase => .again (hbase label ?_)
    simp
  induction r generalizing next go base with
  | empty => exact hgo.covered fun _ h => .empty h
  | chars label set =>
      refine .once (fun _ h => .chars h) fun seen _ _ => ⟨fun _ h => h, ?_, fun other hother => ?_⟩
      · intro l next _ hl hl'
        simp only at hl
        rw [hl'] at hl
        cases hl
      · rw [hone (hwithin (List.mem_append_left _ List.mem_cons_self)) hother]
        exact List.mem_cons_self
  | look a =>
      rw [explore]
      split
      · exact hgo.covered fun _ h => .look fun _ => h
      · next hfails => exact .blocked fun _ _ => .look fun h => absurd h hfails
  | seq r s ihr ihs =>
      have hparts := hwithin.opens (.seq (p := p) r s next)
      exact (ihr hparts (ihs hparts.tail hgo)).covered fun _ h => .seq h
  | alt label r s ihr ihs =>
      have hmem : (label, alt label r s :: next) ∈ table :=
        hwithin (List.mem_append_left _ List.mem_cons_self)
      have hgo' := hgo.mono (sub_mark base label)
      refine .branch (fun _ h => .alt h)
        (ihr (hwithin.opens (.left (p := p) label r s next)) hgo')
        (ihs (hwithin.opens (.right (p := p) label r s next)) hgo')
        fun seen ways h₁ h₂ other hother => ?_
      rw [hone hmem hother]
      exact ⟨h₁, h₂⟩
  | plus label greedy r ih =>
      have hmem : (label, again label greedy r :: next) ∈ table :=
        hwithin (List.mem_append_left _ List.mem_cons_self)
      have hparts := hwithin.opens (.plus (p := p) label greedy r next)
      exact (ih hparts (hagain hmem hgo (ih hparts hblocked))).covered fun _ h => .plus h
  | again label greedy r ih =>
      have hmem : (label, again label greedy r :: next) ∈ table :=
        hwithin (List.mem_append_left _ List.mem_cons_self)
      exact hagain hmem hgo (ih (hwithin.opens (.more (p := p) label greedy r next)) hblocked)

theorem exploreAll_explores {table : List (Nat × List Regex)}
    (htable : (table.map Prod.fst).Nodup) {p : Place} {next : List Regex}
    (hwithin : Within table next) (base : Nat) :
    Explores table p base next (exploreAll p next) := by
  induction next with
  | nil =>
      intro seen _ hdone
      cases hdone
  | cons r rs ih => exact explore_explores htable r hwithin (ih hwithin.tail)

/-- Where the end is reached, it is one of the ways. -/
def Ends (go : Nat → Front) : Prop :=
  ∀ seen, (go seen).done = true → [] ∈ (go seen).ways

namespace Ends

theorem blocked : Ends .blocked := by
  intro seen hdone
  cases hdone

theorem branch {label : Nat} {first second : Nat → Front} (hfirst : Ends first)
    (hsecond : Ends second) : Ends (.branch label first second) := by
  intro seen hdone
  simp only [Front.branch, Front.once, Front.orElse] at hdone ⊢
  split at hdone
  · cases hdone
  · next hlabel =>
    rw [if_neg hlabel]
    split at hdone
    · next hdone₁ =>
      rw [if_pos hdone₁]
      exact hfirst _ hdone
    · next hdone₁ =>
      rw [if_neg hdone₁]
      exact List.mem_append_right _ (hsecond _ hdone)

end Ends

theorem explore_ends (p : Place) (r : Regex) {next : List Regex} {go : Nat → Front}
    (hgo : Ends go) : Ends (explore p r next go) := by
  have hagain {label : Nat} {greedy : Bool} {go repeated : Nat → Front} (hgo : Ends go)
      (hrepeated : Ends repeated) :
      Ends (if greedy then .branch label repeated go else .branch label go repeated) := by
    split
    · exact .branch hrepeated hgo
    · exact .branch hgo hrepeated
  induction r generalizing next go with
  | empty => exact hgo
  | chars label set =>
      intro seen hdone
      simp only [explore, Front.once] at hdone
      split at hdone <;> cases hdone
  | look a =>
      rw [explore]
      split
      · exact hgo
      · exact .blocked
  | seq r s ihr ihs => exact ihr (ihs hgo)
  | alt label r s ihr ihs => exact .branch (ihr hgo) (ihs hgo)
  | plus label greedy r ih => exact ih (hagain hgo (ih .blocked))
  | again label greedy r ih => exact hagain hgo (ih .blocked)

theorem exploreAll_ends (p : Place) (next : List Regex) : Ends (exploreAll p next) := by
  induction next with
  | nil => exact fun _ _ => List.mem_singleton_self _
  | cons r rs ih => exact explore_ends p r ih

/-! ### Following -/

/-- Unless an end is among them, the ways that are followed have been explored. -/
theorem follow_explores {table : List (Nat × List Regex)} (htable : (table.map Prod.fst).Nodup)
    {p : Place} {ways : List Way} (hwithin : ∀ w ∈ ways, Within table w.next) (seen : Nat)
    (hopen : ∀ w ∈ follow p ways seen, w.next ≠ []) :
    ∃ seen', Sub seen seen' ∧ (∀ w ∈ ways, Covered p seen' w.next) ∧
      ExpandedSince table p seen seen' ((follow p ways seen).map Way.next) := by
  induction ways generalizing seen with
  | nil =>
      refine ⟨seen, fun _ h => h, fun w hw => (by cases hw), fun l next _ hl hl' => ?_⟩
      rw [hl'] at hl
      cases hl
  | cons w ws ih =>
      rw [follow] at hopen ⊢
      have hfirst := exploreAll_explores htable (p := p) (hwithin w List.mem_cons_self) seen seen
        fun _ h => h
      cases hdone : (exploreAll p w.next seen).done with
      | true =>
          have hmem := exploreAll_ends p w.next seen hdone
          exact absurd rfl (hopen ⟨w.start, []⟩
            (List.mem_append_left _ (List.mem_map.2 ⟨[], hmem, rfl⟩)))
      | false =>
          simp only [hdone, Bool.false_eq_true, if_false] at hopen ⊢
          obtain ⟨hsub, hcovered, hsince⟩ := hfirst hdone
          obtain ⟨seen', hsub', hcovered', hsince'⟩ :=
            ih (fun v hv => hwithin v (List.mem_cons_of_mem _ hv)) (exploreAll p w.next seen).seen
              fun v hv => hopen v (List.mem_append_right _ hv)
          refine ⟨seen', hsub.trans hsub', fun v hv => ?_, ?_⟩
          · rcases List.mem_cons.1 hv with rfl | hv
            · exact hcovered.mono hsub'
            · exact hcovered' v hv
          · have hmap : (((exploreAll p w.next seen).ways.map (⟨w.start, ·⟩)).map Way.next) =
                (exploreAll p w.next seen).ways := by
              rw [List.map_map]
              exact List.map_id _
            rw [List.map_append, hmap]
            exact hsince.trans hsince' hsub'

/-- What is matched beyond a place goes on along one of the ways from there. -/
theorem exists_way_of_matches {table : List (Nat × List Regex)} {p : Place} {seen : Nat}
    {ways : List (List Regex)} (hexpanded : ∀ l next, (l, next) ∈ table →
      seen.testBit l = true → Expanded p seen ways next)
    {next : List Regex} {before : Option Char} {piece : List Char} {after : Option Char}
    (h : Matches next before piece after) (hp : p = ⟨before, piece.head?.or after⟩)
    (hcovered : Covered p seen next) (hwithin : Within table next) :
    ∃ label set rest c piece', piece = c :: piece' ∧ chars label set :: rest ∈ ways ∧
      set.contains c = true ∧ Matches rest (some c) piece' after := by
  induction h with
  | nil before after => cases hcovered
  | @chars label set next before c piece after hc h ih =>
      cases hcovered with
      | chars hl =>
          have hmem : (label, chars label set :: next) ∈ table :=
            hwithin (List.mem_append_left _ List.mem_cons_self)
          exact ⟨label, set, next, c, piece, rfl, hexpanded _ _ hmem hl, hc, h⟩
  | opens hopens h ih =>
      rw [← hp] at hopens
      refine ih hp ?_ (hwithin.opens hopens)
      have hmem {label : Nat} {r : Regex} {next : List Regex} {others : List (Nat × List Regex)}
          (hentries : r.entries next = (label, r :: next) :: others)
          (hwithin : Within table (r :: next)) : (label, r :: next) ∈ table := by
        refine hwithin (List.mem_append_left _ ?_)
        rw [hentries]
        exact List.mem_cons_self
      cases hopens with
      | empty next =>
          cases hcovered with
          | empty hcovered => exact hcovered
      | look a next ha =>
          cases hcovered with
          | look hcovered => exact hcovered ha
      | seq r s next =>
          cases hcovered with
          | seq hcovered => exact hcovered
      | left label r s next =>
          cases hcovered with
          | alt hl => exact (hexpanded _ _ (hmem rfl hwithin) hl).1
      | right label r s next =>
          cases hcovered with
          | alt hl => exact (hexpanded _ _ (hmem rfl hwithin) hl).2
      | plus label greedy r next =>
          cases hcovered with
          | plus hcovered => exact hcovered
      | more label greedy r next =>
          cases hcovered with
          | again hl => exact (hexpanded _ _ (hmem rfl hwithin) hl).1
      | enough label greedy r next =>
          cases hcovered with
          | again hl => exact (hexpanded _ _ (hmem rfl hwithin) hl).2

/-! ### Searching -/

theorem arrive_isSome {r : Regex} {p : Place} {pos : Nat} {ways : List Way} {found : Option Span}
    (h : found.isSome = true) : (arrive r p pos ways found).2.isSome = true := by
  simp [arrive, h]

/-- A match that has been found is not lost. -/
theorem scan_isSome_of_found {r : Regex} {before : Option Char} {pos : Nat} {ways : List Way}
    {found : Option Span} {rest : List Char} (h : found.isSome = true) :
    (scan r before pos ways found rest).isSome = true := by
  induction rest generalizing before pos ways found with
  | nil => exact arrive_isSome h
  | cons c cs ih =>
      rw [scan]
      simp only
      split
      · exact arrive_isSome h
      · exact ih (arrive_isSome h)

/-- At a place where no match is known, one is found, or no way is lost. -/
theorem arrive_complete {table : List (Nat × List Regex)} (htable : (table.map Prod.fst).Nodup)
    {r : Regex} (p : Place) (pos : Nat) {ways : List Way} (hr : Within table [r])
    (hwithin : ∀ w ∈ ways, Within table w.next) :
    (arrive r p pos ways none).2.isSome = true ∨
      ((arrive r p pos ways none).2 = none ∧
        (∀ w ∈ (arrive r p pos ways none).1, Within table w.next) ∧
        ∀ w ∈ ways ++ [⟨pos, [r]⟩], ∀ {piece : List Char} {after : Option Char},
          p.after = piece.head?.or after → Matches w.next p.before piece after →
          ∃ label set rest c piece', piece = c :: piece' ∧
            (∃ w' ∈ (arrive r p pos ways none).1, w'.next = chars label set :: rest) ∧
            set.contains c = true ∧ Matches rest (some c) piece' after) := by
  have hwithin' : ∀ w ∈ ways ++ [⟨pos, [r]⟩], Within table w.next := by
    intro w hw
    rcases List.mem_append.1 hw with hw | hw
    · exact hwithin w hw
    · obtain rfl := List.mem_singleton.1 hw
      exact hr
  have hways : (arrive r p pos ways none).1 = follow p (ways ++ [⟨pos, [r]⟩]) 0 := rfl
  have hfound : (arrive r p pos ways none).2 = ((follow p (ways ++ [⟨pos, [r]⟩]) 0).find?
      (·.next.isEmpty)).map fun w => ⟨w.start, pos⟩ := by
    simp [arrive]
  rw [hways, hfound]
  cases hended : (follow p (ways ++ [⟨pos, [r]⟩]) 0).find? (·.next.isEmpty) with
  | some w => exact .inl rfl
  | none =>
      refine .inr ⟨rfl, fun w hw => ?_, fun w hw piece after hafter hm => ?_⟩
      · obtain ⟨v, hv, -, hreaches⟩ := exists_of_mem_follow hw
        exact (hwithin' v hv).reaches hreaches
      · have hopen (w : Way) (hw : w ∈ follow p (ways ++ [⟨pos, [r]⟩]) 0) : w.next ≠ [] := by
          simpa using List.find?_eq_none.1 hended w hw
        obtain ⟨seen, -, hcovered, hsince⟩ := follow_explores htable hwithin' 0 hopen
        obtain ⟨before, _⟩ := p
        obtain rfl := hafter
        obtain ⟨label, set, rest, c, piece', hpiece, hmem, hc, hm⟩ :=
          exists_way_of_matches (fun l next hl hseen => hsince l next hl hseen (Nat.zero_testBit l))
            hm rfl (hcovered w hw) (hwithin' w hw)
        exact ⟨label, set, rest, c, piece', hpiece, List.mem_map.1 hmem, hc, hm⟩

/-- A way that can be finished in the rest of a text, or a piece of it that is matched, makes the
search succeed. -/
theorem scan_isSome {table : List (Nat × List Regex)} (htable : (table.map Prod.fst).Nodup)
    {r : Regex} (hr : Within table [r]) {rest : List Char} {before : Option Char} {pos : Nat}
    {ways : List Way} (hwithin : ∀ w ∈ ways, Within table w.next)
    (h : (∃ w ∈ ways, ∃ piece post, rest = piece ++ post ∧
        Matches w.next before piece post.head?) ∨
      ∃ skipped piece post, rest = skipped ++ piece ++ post ∧
        Matches [r] (skipped.getLast?.or before) piece post.head?) :
    (scan r before pos ways none rest).isSome = true := by
  induction rest generalizing before pos ways with
  | nil =>
      rw [scan]
      rcases arrive_complete htable ⟨before, none⟩ pos hr hwithin with
        hfound | ⟨-, -, hcomplete⟩
      · exact hfound
      · -- nothing is left that the match could take
        have hnone {w : Way} (hw : w ∈ ways ++ [⟨pos, [r]⟩]) {piece post : List Char}
            (hnil : [] = piece ++ post) (hm : Matches w.next before piece post.head?) : False := by
          obtain ⟨rfl, rfl⟩ := List.nil_eq_append_iff.1 hnil
          obtain ⟨_, _, _, _, _, hcons, -⟩ := hcomplete w hw rfl hm
          cases hcons
        rcases h with ⟨w, hw, piece, post, hnil, hm⟩ | ⟨skipped, piece, post, hnil, hm⟩
        · exact (hnone (List.mem_append_left _ hw) hnil hm).elim
        · rw [List.append_assoc] at hnil
          obtain ⟨rfl, hrest⟩ := List.nil_eq_append_iff.1 hnil
          exact (hnone (w := ⟨pos, [r]⟩) (List.mem_append_right _ List.mem_cons_self) hrest.symm
            hm).elim
  | cons d cs ih =>
      rw [scan]
      rcases arrive_complete htable ⟨before, some d⟩ pos hr hwithin with
        hfound | ⟨hfound, hways, hcomplete⟩
      · simp only
        split
        · exact hfound
        · exact scan_isSome_of_found hfound
      · simp only [hfound, Option.isSome_none, Bool.and_false, Bool.false_eq_true, if_false]
        have htaken (w' : Way) (hw' : w' ∈ (arrive r ⟨before, some d⟩ pos ways none).1.filterMap
            (·.take? d)) : Within table w'.next := by
          obtain ⟨v, hv, htake⟩ := List.mem_filterMap.1 hw'
          rw [Way.take?] at htake
          split at htake
          · next hnext =>
            split at htake
            · cases htake
              exact (hnext ▸ hways v hv).tail
            · cases htake
          · cases htake
        -- a way that takes the next character goes on
        have hgoes {w : Way} (hw : w ∈ ways ++ [⟨pos, [r]⟩]) {piece post : List Char}
            (hrest : d :: cs = piece ++ post) (hm : Matches w.next before piece post.head?) :
            ∃ w' ∈ (arrive r ⟨before, some d⟩ pos ways none).1.filterMap (·.take? d),
              ∃ piece post, cs = piece ++ post ∧ Matches w'.next (some d) piece post.head? := by
          have hafter : some d = piece.head?.or post.head? := by
            rw [← List.head?_append, ← hrest, List.head?_cons]
          obtain ⟨label, set, next, c, piece', rfl, ⟨v, hv, hnext⟩, hc, hm⟩ :=
            hcomplete w hw hafter hm
          obtain ⟨rfl, hcs⟩ := List.cons.inj hrest
          refine ⟨{ v with next }, List.mem_filterMap.2 ⟨v, hv, ?_⟩, piece', post, hcs, hm⟩
          simp [Way.take?, hnext, hc]
        refine ih htaken ?_
        rcases h with ⟨w, hw, piece, post, hrest, hm⟩ | ⟨skipped, piece, post, hrest, hm⟩
        · exact .inl (hgoes (List.mem_append_left _ hw) hrest hm)
        · cases skipped with
          | nil =>
              exact .inl (hgoes (w := ⟨pos, [r]⟩) (List.mem_append_right _ List.mem_cons_self)
                hrest hm)
          | cons e skipped =>
              obtain ⟨rfl, hcs⟩ := List.cons.inj hrest
              refine .inr ⟨skipped, piece, post, hcs, ?_⟩
              rw [List.getLast?_cons] at hm
              cases hlast : skipped.getLast? <;> simpa [hlast] using hm

/-- The search in a text succeeds just if a piece of the text is matched. -/
theorem isMatch_iff {r : Regex} (hr : r.labels.Nodup) {text : List Char} :
    r.isMatch text = true ↔ ∃ pre piece post, text = pre ++ piece ++ post ∧
      Matches [r] pre.getLast? piece post.head? := by
  constructor
  · intro h
    obtain ⟨span, hspan⟩ := Option.isSome_iff_exists.1 h
    obtain ⟨pre, piece, post, htext, -, hm⟩ := find?_matchesAt [] hspan
    exact ⟨pre, piece, post, htext, hm⟩
  · rintro ⟨pre, piece, post, htext, hm⟩
    have htable : ((r.entries []).map Prod.fst).Nodup := (map_fst_entries r []).symm ▸ hr
    refine scan_isSome htable (r := r) ?_ (fun w hw => by cases hw) (.inr ⟨pre, piece, post, htext, ?_⟩)
    · simp [Within, entriesAll]
    · rwa [Option.or_none]

end Curia.Regex
