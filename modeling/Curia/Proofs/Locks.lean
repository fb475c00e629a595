import Mathlib.Data.List.Induction
import Mathlib.Data.List.Nodup
import Curia.LockTable

/-!
The slots of a lock table are those of the runs under way and of those that have failed. What a step
does depends on nothing but the last step on its key, so each key goes its own way: a run on it
begins where the last one has ended.
-/

namespace Curia.LockTable

variable {κ : Type} [DecidableEq κ]

/-! ### Slots -/

section Slots

variable (t : LockTable κ) (k j : κ) (s : Slot)

theorem slot?_remove : (t.remove k).slot? j = if k = j then none else t.slot? j := by
  obtain ⟨slots⟩ := t
  induction slots with
  | nil => simp [remove, slot?]
  | cons e slots ih =>
      simp only [slot?, remove, List.filter_cons, List.find?_cons] at ih ⊢
      grind

theorem slot?_put : (t.put k s).slot? j = if k = j then some s else t.slot? j := by
  by_cases h : k = j
  · simp [put, slot?, h]
  · have hrest := slot?_remove t k j
    rw [if_neg h] at hrest ⊢
    rw [← hrest]
    simp [put, slot?, h]

theorem mem_keys_iff : k ∈ t.keys ↔ ∃ s, t.slot? k = some s := by
  rw [← Option.isSome_iff_exists, slot?, Option.isSome_map, List.find?_isSome]
  simp [keys]

theorem not_mem_keys_iff : k ∉ t.keys ↔ t.slot? k = none := by
  rw [mem_keys_iff, not_exists, Option.eq_none_iff_forall_ne_some]

end Slots

/-! ### Steps on one key -/

/-- The marks of the steps on a key. -/
def marks (steps : List (Step κ)) (k : κ) : List Mark :=
  (steps.filter fun s => s.key = k).map Step.mark

theorem marks_append (steps steps' : List (Step κ)) (k : κ) :
    marks (steps ++ steps') k = marks steps k ++ marks steps' k := by
  simp [marks]

theorem marks_cons (s : Step κ) (steps : List (Step κ)) (k : κ) :
    marks (s :: steps) k = if s.key = k then s.mark :: marks steps k else marks steps k := by
  by_cases h : s.key = k <;> simp [marks, h]

theorem marks_eq_nil {steps : List (Step κ)} {k : κ} (h : ∀ s ∈ steps, s.key ≠ k) :
    marks steps k = [] := by
  simpa [marks] using h

theorem mem_marks {steps : List (Step κ)} {k : κ} {m : Mark} :
    m ∈ marks steps k ↔ ⟨m, k⟩ ∈ steps := by
  rw [marks, List.mem_map]
  constructor
  · rintro ⟨⟨m, j⟩, hmem, rfl⟩
    obtain ⟨hs, hj⟩ := List.mem_filter.1 hmem
    rwa [← of_decide_eq_true hj]
  · exact fun h => ⟨⟨m, k⟩, List.mem_filter.2 ⟨h, decide_eq_true rfl⟩, rfl⟩

/-- One run after another, each with its start and its end. -/
inductive Paired : List Mark → Prop where
  | nil : Paired []
  | run {last : Mark} {rest : List Mark} (hlast : last ≠ .enter) (hrest : Paired rest) :
      Paired (.enter :: last :: rest)

theorem Paired.append {ms ms' : List Mark} (h : Paired ms) (h' : Paired ms') :
    Paired (ms ++ ms') := by
  induction h with
  | nil => exact h'
  | run hlast _ ih => exact .run hlast ih

/-- Runs start where none is under way and end where one is. -/
theorem Paired.enter_iff {ms before after : List Mark} {m : Mark} (h : Paired ms)
    (hms : ms = before ++ m :: after) : m = .enter ↔ before.getLast? ≠ some .enter := by
  induction h generalizing before with
  | nil => simp at hms
  | run hlast _ ih =>
      rcases before with _ | ⟨first, _ | ⟨second, before⟩⟩
      · obtain ⟨rfl, -⟩ := List.cons.inj hms
        simp
      · obtain ⟨rfl, htail⟩ := List.cons.inj hms
        obtain ⟨rfl, -⟩ := List.cons.inj htail
        simp [hlast]
      · obtain ⟨-, htail⟩ := List.cons.inj hms
        obtain ⟨rfl, hrest⟩ := List.cons.inj htail
        rw [ih hrest, List.getLast?_cons_cons, List.getLast?_cons]
        cases before.getLast? <;> simp [hlast]

theorem Paired.getLast?_ne {ms : List Mark} (h : Paired ms) : ms.getLast? ≠ some .enter := by
  induction h with
  | nil => simp
  | @run last rest hlast _ ih =>
      rw [List.getLast?_cons_cons, List.getLast?_cons]
      cases hrest : rest.getLast? with
      | none => simpa using hlast
      | some m => simpa [hrest] using ih

/-! ### Runs that do not wait for themselves -/

mutual

/-- No run is under a run on its own key. What stands after a failure that nothing catches is never
reached, and may be anything. -/
def Apart : LockedRun κ → Prop
  | .call key body _ _ => (∀ s ∈ (historyAll body).steps, s.key ≠ key) ∧ ApartAll body

def ApartAll : List (LockedRun κ) → Prop
  | [] => True
  | r :: rs => Apart r ∧ ((history r).fails = false → ApartAll rs)

end

mutual

theorem paired_history : ∀ r : LockedRun κ, Apart r → ∀ k, Paired (marks (history r).steps k)
  | .call key body fails caught, h, k => by
    obtain ⟨hkey, hbody⟩ := h
    rw [history, List.cons_append, marks_cons, marks_append, marks_cons]
    by_cases hk : key = k
    · -- the runs inside are on other keys
      have hinner : marks (historyAll body).steps k = [] := marks_eq_nil (hk ▸ hkey)
      have hlast : (if ((historyAll body).fails || fails) = true then Mark.fail else .exit) ≠
          .enter := by
        split <;> decide
      rw [if_pos hk, if_pos hk, hinner]
      exact .run hlast .nil
    · rw [if_neg hk, if_neg hk]
      exact (paired_historyAll body hbody k).append .nil

theorem paired_historyAll : ∀ rs : List (LockedRun κ), ApartAll rs →
    ∀ k, Paired (marks (historyAll rs).steps k)
  | [], _, _ => .nil
  | r :: rs, ⟨hfirst, hrest⟩, k => by
    rw [historyAll]
    cases hfails : (history r).fails with
    | true => exact paired_history r hfirst k
    | false =>
        simp only [Bool.false_eq_true, if_false, marks_append]
        exact (paired_history r hfirst k).append (paired_historyAll rs (hrest hfails) k)

end

/-! ### What the table has -/

/-- No run is under way. -/
structure Idle (t : LockTable κ) : Prop where
  nodup : t.keys.Nodup
  released : ∀ k s, t.slot? k = some s → s.references = 1 ∧ s.isHeld = false

example : (LockTable.mk (κ := Nat) []).Idle := ⟨by decide, nofun⟩

/-- What has become of a slot after the last step on its key. -/
def Settled (before now : Option Slot) : Option Mark → Prop
  | none => now = before
  | some .enter => ∃ poisoned, now = some ⟨2, true, poisoned⟩
  | some .exit => now = none
  | some .fail => now = some ⟨1, false, true⟩

/-- The second table is the first after some steps. -/
structure Reflects (t : LockTable κ) (steps : List (Step κ)) (t' : LockTable κ) : Prop where
  nodup : t'.keys.Nodup
  settled : ∀ k, Settled (t.slot? k) (t'.slot? k) (marks steps k).getLast?

theorem nodup_keys_remove {t : LockTable κ} (h : t.keys.Nodup) (k : κ) :
    (t.remove k).keys.Nodup :=
  h.sublist (List.filter_sublist.map Prod.fst)

theorem nodup_keys_put {t : LockTable κ} (h : t.keys.Nodup) (k : κ) (s : Slot) :
    (t.put k s).keys.Nodup := by
  have hfresh : k ∉ (t.remove k).keys := by
    rw [not_mem_keys_iff, slot?_remove, if_pos rfl]
  exact List.nodup_cons.2 ⟨hfresh, nodup_keys_remove h k⟩

/-- A lock that nobody holds is taken, whether or not a failure has left its slot behind. -/
theorem exists_enter? {t : LockTable κ} {k : κ}
    (h : ∀ s, t.slot? k = some s → s.references = 1 ∧ s.isHeld = false) :
    ∃ poisoned, t.enter? k = some (t.put k ⟨2, true, poisoned⟩) := by
  cases hs : t.slot? k with
  | none => exact ⟨false, by simp [enter?, hs]⟩
  | some s =>
      obtain ⟨hreferences, hheld⟩ := h s hs
      exact ⟨s.isPoisoned, by simp [enter?, hs, hreferences, hheld]⟩

theorem leave_of_held {t : LockTable κ} {k : κ} {poisoned : Bool}
    (h : t.slot? k = some ⟨2, true, poisoned⟩) : t.leave k = t.remove k := by
  simp [leave, h]

theorem unwind_of_held {t : LockTable κ} {k : κ} {poisoned : Bool}
    (h : t.slot? k = some ⟨2, true, poisoned⟩) : t.unwind k = t.put k ⟨1, false, true⟩ := by
  simp [unwind, h]

/-- Whatever a step does to the slot of its key, it leaves the others as they are. -/
theorem Reflects.step {t t' t'' : LockTable κ} {steps : List (Step κ)} (h : Reflects t steps t')
    {s : Step κ} (hnodup : t''.keys.Nodup)
    (hother : ∀ k, s.key ≠ k → t''.slot? k = t'.slot? k)
    (hown : Settled (t.slot? s.key) (t''.slot? s.key) (some s.mark)) :
    Reflects t (steps ++ [s]) t'' where
  nodup := hnodup
  settled k := by
    rw [marks_append, marks_cons]
    by_cases hk : s.key = k
    · subst hk
      simpa [marks] using hown
    · rw [if_neg hk, hother k hk]
      simpa [marks] using h.settled k

theorem Reflects.released {t t' : LockTable κ} (ht : t.Idle) {steps : List (Step κ)}
    (h : Reflects t steps t') {k : κ} (hlast : (marks steps k).getLast? ≠ some .enter) (s : Slot)
    (hs : t'.slot? k = some s) : s.references = 1 ∧ s.isHeld = false := by
  have hsettled := h.settled k
  rw [hs] at hsettled
  cases hmark : (marks steps k).getLast? with
  | none =>
      rw [hmark] at hsettled
      exact ht.released k s hsettled.symm
  | some m =>
      rw [hmark] at hsettled hlast
      cases m with
      | enter => exact absurd rfl hlast
      | exit => cases hsettled
      | fail =>
          rw [← Option.some.inj hsettled.symm]
          exact ⟨rfl, rfl⟩

/-- A run starts on a key that is free or left behind, and ends on one that it holds. -/
theorem Reflects.exists_after? {t t' : LockTable κ} (ht : t.Idle) {steps : List (Step κ)}
    (h : Reflects t steps t') {s : Step κ}
    (hmark : s.mark = .enter ↔ (marks steps s.key).getLast? ≠ some .enter) :
    ∃ t'', t'.after? s = some t'' ∧ Reflects t (steps ++ [s]) t'' := by
  obtain ⟨m, k⟩ := s
  have hheld (hm : m ≠ .enter) : ∃ poisoned, t'.slot? k = some ⟨2, true, poisoned⟩ := by
    have hlast : (marks steps k).getLast? = some .enter :=
      Decidable.byContradiction fun hne => hm (hmark.2 hne)
    have hsettled := h.settled k
    rwa [hlast] at hsettled
  cases m with
  | enter =>
      obtain ⟨poisoned, henter⟩ := exists_enter? (h.released ht (hmark.1 rfl))
      refine ⟨_, henter, h.step (nodup_keys_put h.nodup k _) (fun j hj => ?_) ⟨poisoned, ?_⟩⟩
      · rw [slot?_put, if_neg hj]
      · rw [slot?_put, if_pos rfl]
  | exit =>
      obtain ⟨poisoned, hslot⟩ := hheld (by decide)
      refine ⟨_, congrArg some (leave_of_held hslot),
        h.step (nodup_keys_remove h.nodup k) (fun j hj => ?_) ?_⟩
      · rw [slot?_remove, if_neg hj]
      · exact (slot?_remove t' k k).trans (if_pos rfl)
  | fail =>
      obtain ⟨poisoned, hslot⟩ := hheld (by decide)
      refine ⟨_, congrArg some (unwind_of_held hslot),
        h.step (nodup_keys_put h.nodup k _) (fun j hj => ?_) ?_⟩
      · rw [slot?_put, if_neg hj]
      · exact (slot?_put t' k k _).trans (if_pos rfl)

/-! ### Whole runs -/

/-- The table after some steps, unless one of them waits for ever. -/
def afterAll? (t : LockTable κ) (steps : List (Step κ)) : Option (LockTable κ) :=
  steps.foldlM after? t

theorem afterAll?_concat (t : LockTable κ) (steps : List (Step κ)) (s : Step κ) :
    t.afterAll? (steps ++ [s]) = (t.afterAll? steps).bind fun t' => t'.after? s := by
  simp [afterAll?, List.foldlM_append]

theorem reflects_nil {t : LockTable κ} (ht : t.Idle) : Reflects t [] t :=
  ⟨ht.nodup, fun _ => rfl⟩

/-- At every moment of a history the table shows the steps so far. -/
theorem exists_afterAll? {t : LockTable κ} (ht : t.Idle) {steps : List (Step κ)}
    (hpaired : ∀ k, Paired (marks steps k)) {before : List (Step κ)} (hbefore : before <+: steps) :
    ∃ t', t.afterAll? before = some t' ∧ Reflects t before t' := by
  induction before using List.reverseRecOn with
  | nil => exact ⟨t, rfl, reflects_nil ht⟩
  | append_singleton before s ih =>
      obtain ⟨t', ht', hreflects⟩ := ih ((List.prefix_append before [s]).trans hbefore)
      obtain ⟨after, rfl⟩ := hbefore
      have hmarks : marks (before ++ [s] ++ after) s.key =
          marks before s.key ++ s.mark :: marks after s.key := by
        simp [marks]
      obtain ⟨t'', ht'', hstep⟩ :=
        hreflects.exists_after? ht ((hpaired s.key).enter_iff hmarks)
      exact ⟨t'', by rw [afterAll?_concat, ht', Option.bind_some, ht''], hstep⟩

/-- A run under itself waits for ever. -/
example : (LockTable.mk (κ := Nat) []).afterAll? [⟨.enter, 1⟩, ⟨.enter, 1⟩] = none := by decide

theorem follow_of_afterAll? {steps : List (Step κ)} {t t' : LockTable κ}
    (h : t.afterAll? steps = some t') : (t.follow steps).1 = t' := by
  induction steps generalizing t with
  | nil => exact Option.some.inj h
  | cons s steps ih =>
      obtain ⟨t'', ht'', hrest⟩ := Option.bind_eq_some_iff.1 h
      simp only [follow, ht'']
      exact ih hrest

/-- What is observed of a step is the number of slots after it. -/
theorem getElem?_follow {before : List (Step κ)} {s : Step κ} {t t' : LockTable κ}
    (h : t.afterAll? (before ++ [s]) = some t') (after : List (Step κ)) :
    (t.follow (before ++ s :: after)).2[before.length]? = some ⟨s, t'.active⟩ := by
  induction before generalizing t with
  | nil =>
      obtain ⟨t'', ht'', hrest⟩ := Option.bind_eq_some_iff.1 h
      cases hrest
      simp [follow, ht'']
  | cons b before ih =>
      obtain ⟨t'', ht'', hrest⟩ := Option.bind_eq_some_iff.1 h
      simpa [follow, ht''] using ih hrest

/-- A run on the key is under way. -/
def Held (steps : List (Step κ)) (k : κ) : Prop := (marks steps k).getLast? = some .enter

instance (steps : List (Step κ)) (k : κ) : Decidable (Held steps k) :=
  inferInstanceAs (Decidable (_ = _))

/-- The last run on the key to have ended has failed. The slots of a table with which all begins
are of runs that have failed before. -/
def LeftBehind (t : LockTable κ) (steps : List (Step κ)) (k : κ) : Prop :=
  match ((marks steps k).filter fun m => m ≠ .enter).getLast? with
  | some m => m = .fail
  | none => k ∈ t.keys

instance (t : LockTable κ) (steps : List (Step κ)) (k : κ) : Decidable (LeftBehind t steps k) :=
  match h : ((marks steps k).filter fun m => m ≠ .enter).getLast? with
  | some m => decidable_of_iff (m = .fail) (by rw [LeftBehind, h])
  | none => decidable_of_iff (k ∈ t.keys) (by rw [LeftBehind, h])

theorem Reflects.mem_keys_iff {t t' : LockTable κ} {steps : List (Step κ)}
    (h : Reflects t steps t') (k : κ) : k ∈ t'.keys ↔ Held steps k ∨ LeftBehind t steps k := by
  have hsettled := h.settled k
  rw [LockTable.mem_keys_iff, Held, LeftBehind]
  cases hlast : (marks steps k).getLast? with
  | none =>
      rw [hlast] at hsettled
      rw [hsettled, List.getLast?_eq_none_iff.1 hlast, ← LockTable.mem_keys_iff]
      simp
  | some m =>
      obtain ⟨earlier, hmarks⟩ := List.getLast?_eq_some_iff.1 hlast
      rw [hlast] at hsettled
      cases m with
      | enter =>
          obtain ⟨poisoned, hslot⟩ := hsettled
          simp [hslot]
      | exit => simp [show t'.slot? k = none from hsettled, hmarks]
      | fail => simp [show t'.slot? k = some _ from hsettled, hmarks]

/-- The lock of a key is taken just if a run on it is under way. -/
theorem Reflects.held_iff {t t' : LockTable κ} (ht : t.Idle) {steps : List (Step κ)}
    (h : Reflects t steps t') (k : κ) :
    Held steps k ↔ ∃ s, t'.slot? k = some s ∧ s.isHeld = true := by
  constructor
  · intro hheld
    have hsettled := h.settled k
    rw [show (marks steps k).getLast? = some .enter from hheld] at hsettled
    obtain ⟨poisoned, hslot⟩ := hsettled
    exact ⟨_, hslot, rfl⟩
  · rintro ⟨s, hslot, hheld⟩
    refine Decidable.byContradiction fun hlast => ?_
    rw [(h.released ht hlast s hslot).2] at hheld
    cases hheld

/-- Between runs, and if none of them fails, the keys that they have locked are gone. -/
theorem Reflects.slot?_eq {t t' : LockTable κ} {steps : List (Step κ)} (h : Reflects t steps t')
    (hpaired : ∀ k, Paired (marks steps k)) (hnone : ∀ s ∈ steps, s.mark ≠ .fail) (k : κ) :
    t'.slot? k = if k ∈ steps.map Step.key then none else t.slot? k := by
  have hsettled := h.settled k
  cases hlast : (marks steps k).getLast? with
  | none =>
      rw [hlast] at hsettled
      have hfree : k ∉ steps.map Step.key := fun hk => by
        obtain ⟨s, hs, rfl⟩ := List.mem_map.1 hk
        have hmem : s.mark ∈ marks steps s.key := mem_marks.2 hs
        rw [List.getLast?_eq_none_iff.1 hlast] at hmem
        cases hmem
      rw [if_neg hfree]
      exact hsettled
  | some m =>
      have hmem : ⟨m, k⟩ ∈ steps := mem_marks.1 (List.mem_of_getLast? hlast)
      have hfail : m ≠ .fail := hnone _ hmem
      rw [hlast] at hsettled
      rw [if_pos (List.mem_map.2 ⟨_, hmem, rfl⟩)]
      cases m with
      | enter => exact absurd hlast (hpaired k).getLast?_ne
      | exit => exact hsettled
      | fail => exact absurd rfl hfail

/-- From a table between runs, let runs follow of which none is under a run on its own key; any of
them may fail, and a failure may be caught around any of them. Then no run ever waits, and at every
moment the keys of the table are those that are held and those whose last run to have ended has
failed. A key goes when a run on it returns. In the end the table is between runs again. If nothing
has failed it has the slots that it had, except those of keys that have been locked; if none of
these had been left behind, it is as it was. -/
theorem keys_held_or_left_behind {t : LockTable κ} (ht : t.Idle) {runs : List (LockedRun κ)}
    (hruns : ApartAll runs) :
    let steps := (historyAll runs).steps
    (∀ before, before <+: steps → ∃ t', t.afterAll? before = some t' ∧ t'.keys.Nodup ∧
        (∀ k, k ∈ t'.keys ↔ Held before k ∨ LeftBehind t before k) ∧
        ∀ k, Held before k ↔ ∃ s, t'.slot? k = some s ∧ s.isHeld = true) ∧
      (∀ before k, before ++ [⟨.enter, k⟩] <+: steps →
        ∃ t' t'', t.afterAll? before = some t' ∧ t'.enter? k = some t'') ∧
      (∀ before k, before ++ [⟨.exit, k⟩] <+: steps →
        ∃ t', t.afterAll? (before ++ [⟨.exit, k⟩]) = some t' ∧ k ∉ t'.keys) ∧
      (∀ before s, before ++ [s] <+: steps → ∃ t', t.afterAll? (before ++ [s]) = some t' ∧
        (t.runAll runs).2[before.length]? = some ⟨s, t'.keys.length⟩) ∧
      ∃ t', t.afterAll? steps = some t' ∧ (t.runAll runs).1 = t' ∧ t'.Idle ∧
        ((∀ s ∈ steps, s.mark ≠ .fail) →
          (∀ k, t'.slot? k = if k ∈ steps.map Step.key then none else t.slot? k) ∧
            ((∀ s ∈ steps, s.key ∉ t.keys) → ∀ k, t'.slot? k = t.slot? k)) := by
  intro steps
  have hpaired (k : κ) : Paired (marks steps k) := paired_historyAll runs hruns k
  refine ⟨fun before hbefore => ?_, fun before k hbefore => ?_, fun before k hbefore => ?_,
    fun before s hbefore => ?_, ?_⟩
  · obtain ⟨t', ht', hreflects⟩ := exists_afterAll? ht hpaired hbefore
    exact ⟨t', ht', hreflects.nodup, hreflects.mem_keys_iff, hreflects.held_iff ht⟩
  · obtain ⟨t'', ht'', -⟩ := exists_afterAll? ht hpaired hbefore
    rw [afterAll?_concat] at ht''
    obtain ⟨t', ht', henter⟩ := Option.bind_eq_some_iff.1 ht''
    exact ⟨t', t'', ht', henter⟩
  · obtain ⟨t', ht', hreflects⟩ := exists_afterAll? ht hpaired hbefore
    refine ⟨t', ht', ?_⟩
    rw [hreflects.mem_keys_iff]
    simp [Held, LeftBehind, marks]
  · obtain ⟨t', ht', -⟩ := exists_afterAll? ht hpaired hbefore
    obtain ⟨after, hsteps⟩ := hbefore
    refine ⟨t', ht', ?_⟩
    have hlength : t'.keys.length = t'.active := List.length_map _
    have hall : (historyAll runs).steps = before ++ s :: after := by
      rw [List.append_cons]
      exact hsteps.symm
    rw [hlength, runAll, hall]
    exact getElem?_follow ht' after
  · obtain ⟨t', ht', hreflects⟩ := exists_afterAll? ht hpaired (List.prefix_refl steps)
    have hidle : t'.Idle :=
      ⟨hreflects.nodup, fun k => hreflects.released ht (hpaired k).getLast?_ne⟩
    refine ⟨t', ht', follow_of_afterAll? ht', hidle, fun hnone => ?_⟩
    refine ⟨hreflects.slot?_eq hpaired hnone, fun hfree k => ?_⟩
    rw [hreflects.slot?_eq hpaired hnone]
    by_cases hk : k ∈ steps.map Step.key
    · obtain ⟨s, hs, rfl⟩ := List.mem_map.1 hk
      rw [if_pos hk, (not_mem_keys_iff t s.key).1 (hfree s hs)]
    · rw [if_neg hk]

/-- A failure goes through three levels and is caught around the first. A key that it has left
behind is locked again, and under it one that was left behind before. -/
theorem keys_held_or_left_behind_of_three_levels :
    let left : Slot := ⟨1, false, true⟩
    let t : LockTable String := ⟨[("x", left)]⟩
    let inner : LockedRun String := .call "b" [.call "c" [] true false] false false
    let runs : List (LockedRun String) :=
      [.call "a" [inner, .call "a" [] false false] false true,
       .call "b" [.call "x" [] false false] false false]
    let steps := (historyAll runs).steps
    t.Idle ∧ ApartAll runs ∧
      steps.map (fun s => (s.mark, s.key)) =
        [(.enter, "a"), (.enter, "b"), (.enter, "c"), (.fail, "c"), (.fail, "b"), (.fail, "a"),
         (.enter, "b"), (.enter, "x"), (.exit, "x"), (.exit, "b")] ∧
      (Held (steps.take 3) "c" ∧ LeftBehind t (steps.take 3) "x") ∧
      (LeftBehind t (steps.take 8) "b" ∧ Held (steps.take 8) "b" ∧ ¬LeftBehind t steps "b") ∧
      (t.runAll runs).2.map Trace.active = [2, 3, 4, 4, 4, 4, 4, 4, 3, 2] ∧
      (t.runAll runs).1 = ⟨[("a", left), ("c", left)]⟩ ∧
      ∀ k, k ∈ (t.runAll runs).1.keys ↔ Held steps k ∨ LeftBehind t steps k := by
  intro left t inner runs steps
  have ht : t.Idle := by
    refine ⟨by decide, fun k s hs => ?_⟩
    by_cases hk : "x" = k
    · have hslot : left = s := by simpa [t, slot?, hk] using hs
      rw [← hslot]
      exact ⟨rfl, rfl⟩
    · simp [t, slot?, hk] at hs
  have hruns : ApartAll runs := by
    simp [runs, inner, ApartAll, Apart, history, historyAll]
  obtain ⟨hkeys, -, -, -, t', ht', hrun, -⟩ := keys_held_or_left_behind ht hruns
  obtain ⟨t'', ht'', -, hiff, -⟩ := hkeys steps (List.prefix_refl steps)
  rw [ht'] at ht''
  cases ht''
  exact ⟨ht, hruns, by decide, by decide, by decide, by decide, by decide, hrun ▸ hiff⟩

end Curia.LockTable
