/-!
Lists in which something stands twice, and what is left of them when only the first of each kind is
kept.
-/

namespace Curia

/-- The first member of a list that is among those already seen or stands before in the list. -/
def repeatedAfter? [DecidableEq α] (seen : List α) : List α → Option α
  | [] => none
  | a :: rest => if a ∈ seen then some a else repeatedAfter? (a :: seen) rest

/-- The first member of a list that also stands before. -/
def firstRepeated? [DecidableEq α] (as : List α) : Option α := repeatedAfter? [] as

theorem repeatedAfter?_eq_none_iff [DecidableEq α] {seen as : List α} :
    repeatedAfter? seen as = none ↔ as.Nodup ∧ ∀ a ∈ as, a ∉ seen := by
  induction as generalizing seen with
  | nil => simp [repeatedAfter?]
  | cons a rest ih =>
    rw [repeatedAfter?]
    split <;> grind

theorem firstRepeated?_eq_none_iff [DecidableEq α] {as : List α} :
    firstRepeated? as = none ↔ as.Nodup := by
  simp [firstRepeated?, repeatedAfter?_eq_none_iff]

/-! ### The first with each key -/

section

variable [DecidableEq κ] (key : α → κ)

/-- The members of a list of which none before has the same key. -/
def firsts : List α → List α
  | [] => []
  | a :: rest => a :: (firsts rest).filter fun b => key b ≠ key a

variable {key} {as : List α}

theorem sublist_firsts (as : List α) : (firsts key as).Sublist as := by
  induction as with
  | nil => exact .slnil
  | cons a rest ih => exact (List.filter_sublist.trans ih).cons_cons a

theorem nodup_firsts (as : List α) : ((firsts key as).map key).Nodup := by
  induction as with
  | nil => exact .nil
  | cons a rest ih =>
      rw [firsts, List.map_cons, List.nodup_cons]
      refine ⟨fun h => ?_, ih.sublist (List.filter_sublist.map key)⟩
      obtain ⟨b, hb, hkey⟩ := List.mem_map.1 h
      exact of_decide_eq_true (List.mem_filter.1 hb).2 hkey

/-- What is looked for under a key is found in front of what is left out. -/
theorem find?_firsts (as : List α) (k : κ) :
    ((firsts key as).find? fun a => key a = k) = as.find? fun a => key a = k := by
  induction as with
  | nil => rfl
  | cons a rest ih =>
      rw [firsts, List.find?_cons, List.find?_cons, List.find?_filter]
      split
      · rfl
      · next hkey =>
        rw [← ih]
        congr 1
        funext b
        grind

theorem mem_map_firsts {k : κ} : k ∈ (firsts key as).map key ↔ k ∈ as.map key := by
  have hfind (bs : List α) : k ∈ bs.map key ↔ ((bs.find? fun a => key a = k).isSome = true) := by
    simp
  rw [hfind, hfind, find?_firsts]

theorem firsts_concat (as : List α) (a : α) :
    firsts key (as ++ [a]) =
      if key a ∈ as.map key then firsts key as else firsts key as ++ [a] := by
  induction as with
  | nil => rfl
  | cons b rest ih =>
      rw [List.cons_append, firsts, ih, List.map_cons]
      by_cases hb : key a = key b
      · have hmem : key a ∈ key b :: rest.map key := hb ▸ List.mem_cons_self
        rw [if_pos hmem]
        split
        · rfl
        · rw [List.filter_append, List.filter_cons_of_neg (by simpa using hb), List.filter_nil,
            List.append_nil]
          rfl
      · simp only [List.mem_cons, hb, false_or]
        split
        · rfl
        · rw [List.filter_append, List.filter_cons_of_pos (by simpa using hb)]
          rfl

/-- Where no two have one key, a member is what is found under its key. -/
theorem find?_key_eq_some_iff {as : List α} (h : (as.map key).Nodup) {k : κ} {a : α} :
    (as.find? fun b => key b = k) = some a ↔ a ∈ as ∧ key a = k := by
  constructor
  · intro hfind
    exact ⟨List.mem_of_find?_eq_some hfind, by simpa using List.find?_some hfind⟩
  · rintro ⟨ha, rfl⟩
    induction as with
    | nil => cases ha
    | cons b rest ih =>
        obtain ⟨hb, hrest⟩ := List.nodup_cons.1 h
        rcases List.mem_cons.1 ha with rfl | ha
        · simp
        · have hne : key b ≠ key a := fun heq => hb (heq ▸ List.mem_map_of_mem ha)
          rw [List.find?_cons, decide_eq_false hne]
          exact ih hrest ha

end

end Curia
