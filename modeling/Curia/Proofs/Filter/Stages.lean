import Curia.Filter.Stages

/-!
Each stage by itself, and all of them in turn. A stage that comes to an end has tried its rules in
their order; where no rule is at fault every stage comes to an end.
-/

namespace Curia

variable {text : List Char} {ms : List Matcher} {verdict? : Rule → Option (Verdict String)}

/-! ### Searching -/

theorem find?_of_firstFinding {found : Option Matcher} (h : firstFinding text ms = .ok found) :
    (ms.find? fun m => m.finds text) = found := by
  induction ms with
  | nil => exact Except.ok.inj h
  | cons m ms ih =>
      rw [firstFinding] at h
      rw [List.find?_cons, Matcher.finds]
      split at h
      · cases h
      · next regex hregex =>
        rw [hregex]
        split at h
        · next hmatch =>
          simp only [hmatch]
          exact Except.ok.inj h
        · next hmatch =>
          simp only [hmatch]
          exact ih h

theorem firstFinding_of_usable (h : ∀ m ∈ ms, m.fault? = none) :
    firstFinding text ms = .ok (ms.find? fun m => m.finds text) := by
  induction ms with
  | nil => rfl
  | cons m ms ih =>
      have ih := ih fun n hn => h n (List.mem_cons_of_mem m hn)
      have hm := h m List.mem_cons_self
      rw [firstFinding, List.find?_cons, Matcher.finds]
      rw [Matcher.fault?] at hm
      split at hm
      · next regex hregex =>
        rw [hregex]
        simp only
        split
        · next hmatch => rw [hmatch]
        · next hmatch =>
          rw [Bool.not_eq_true] at hmatch
          rw [hmatch]
          exact ih
      · cases hm

/-! ### Withholding -/

theorem finds_of_withhold_none (h : withhold verdict? text ms = .ok none) :
    ∀ m ∈ ms, m.finds text = false := by
  rw [withhold] at h
  split at h
  · cases h
  · next hfirst =>
    intro m hm
    simpa using List.find?_eq_none.1 (find?_of_firstFinding hfirst) m hm
  · split at h <;> cases h

theorem find?_of_withhold_some {v : Verdict String}
    (h : withhold verdict? text ms = .ok (some v)) :
    ∃ m, (ms.find? fun m => m.finds text) = some m ∧ verdict? m.rule = some v := by
  rw [withhold] at h
  split at h
  · cases h
  · cases h
  · next m hfirst =>
    split at h
    · next hv =>
      cases h
      exact ⟨m, find?_of_firstFinding hfirst, hv⟩
    · cases h

theorem exists_of_withhold_some {v : Verdict String}
    (h : withhold verdict? text ms = .ok (some v)) :
    ∃ m ∈ ms, m.finds text = true ∧ verdict? m.rule = some v := by
  obtain ⟨m, hfind, hv⟩ := find?_of_withhold_some h
  have hm : m.finds text = true := by simpa using List.find?_some hfind
  exact ⟨m, List.mem_of_find?_eq_some hfind, hm, hv⟩

section

variable (husable : ∀ m ∈ ms, m.fault? = none)

include husable

theorem withhold_of_silent (h : ∀ m ∈ ms, m.finds text = false) :
    withhold verdict? text ms = .ok none := by
  have hnone : (ms.find? fun m => m.finds text) = none :=
    List.find?_eq_none.2 fun m hm => by simp [h m hm]
  rw [withhold, firstFinding_of_usable husable, hnone]

theorem withhold_of_find? {m : Matcher} (h : (ms.find? fun m => m.finds text) = some m)
    {v : Verdict String} (hv : verdict? m.rule = some v) :
    withhold verdict? text ms = .ok (some v) := by
  rw [withhold, firstFinding_of_usable husable, h]
  simp only [hv]

end

/-! ### Changing -/

/-- The text as the rules change it, with a record of the changes. -/
def reworked (ms : List Matcher) (text : List Char) : Verdict String :=
  .accepted (String.ofList (transform ms text).1) (transform ms text).2

theorem eq_reworked_of_rework {v : Verdict String} (h : rework text ms = .ok v) :
    v = reworked ms text := by
  rw [rework] at h
  split at h
  · cases h
  · cases h
    rfl

theorem rework_of_usable (h : ∀ m ∈ ms, m.transformFault? = none) :
    rework text ms = .ok (reworked ms text) := by
  have hnone : ms.findSome? Matcher.transformFault? = none := List.findSome?_eq_none_iff.2 h
  rw [rework, hnone]
  rfl

/-! ### Faults -/

theorem reason_of_firstFinding {fault : StageFault} (h : firstFinding text ms = .error fault) :
    fault.reason = .internalFault := by
  induction ms with
  | nil => cases h
  | cons m ms ih =>
      rw [firstFinding] at h
      split at h
      · cases h
        rfl
      · split at h
        · cases h
        · exact ih h

theorem reason_of_withhold {fault : StageFault} (h : withhold verdict? text ms = .error fault) :
    fault.reason = .internalFault := by
  rw [withhold] at h
  split at h
  · next hfirst =>
    cases h
    exact reason_of_firstFinding hfirst
  · cases h
  · split at h
    · cases h
    · cases h
      rfl

theorem reason_of_rework {fault : StageFault} (h : rework text ms = .error fault) :
    fault.reason = .internalFault := by
  rw [rework] at h
  split at h
  · next hfault =>
    cases h
    obtain ⟨m, -, hm⟩ := List.exists_of_findSome?_eq_some hfault
    rw [Matcher.transformFault?] at hm
    split at hm <;> cases hm <;> rfl
  · cases h

/-! ### All stages -/

/-- A verdict is that of the first rule that withholds the text or, when there is none, that of the
last stage. -/
theorem Library.stages_eq_ok {l : Library} {start budget : Nat} {c : Clock} {v : Verdict String}
    (h : (l.stages text start budget c).1 = .ok v) :
    withhold Rule.blocked? text l.blocking = .ok (some v) ∨
      withhold Rule.blocked? text l.blocking = .ok none ∧
        (withhold Rule.rejected? text l.rejecting = .ok (some v) ∨
          withhold Rule.rejected? text l.rejecting = .ok none ∧
            rework text l.transforming = .ok v) := by
  rw [stages] at h
  split at h
  · cases h
  · split at h
    · cases h
    · next hblocking =>
      cases h
      exact .inl hblocking
    · next hblocking =>
      simp only at h
      split at h
      · cases h
      · split at h
        · cases h
        · next hrejecting =>
          cases h
          exact .inr ⟨hblocking, .inl hrejecting⟩
        · next hrejecting =>
          split at h
          · cases h
          · split at h
            · cases h
            · next hrework =>
              split at h
              · cases h
              · cases h
                exact .inr ⟨hblocking, .inr ⟨hrejecting, hrework⟩⟩

/-- What is accepted has passed all stages. -/
theorem Library.stages_accepted {l : Library} {start budget : Nat} {c : Clock} {content : String}
    {changes : List Change}
    (h : (l.stages text start budget c).1 = .ok (.accepted content changes)) :
    withhold Rule.blocked? text l.blocking = .ok none ∧
      withhold Rule.rejected? text l.rejecting = .ok none ∧
      rework text l.transforming = .ok (.accepted content changes) := by
  obtain hblocked | ⟨hblocking, hrejected | ⟨hrejecting, hrework⟩⟩ := stages_eq_ok h
  · obtain ⟨m, -, -, hm⟩ := exists_of_withhold_some hblocked
    obtain ⟨violation, -, hviolation⟩ := Option.map_eq_some_iff.1 hm
    cases hviolation
  · obtain ⟨m, -, -, hm⟩ := exists_of_withhold_some hrejected
    obtain ⟨reason, -, hreason⟩ := Option.map_eq_some_iff.1 hm
    cases hreason
  · exact ⟨hblocking, hrejecting, hrework⟩

end Curia
