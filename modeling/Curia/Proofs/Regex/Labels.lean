import Curia.Regex.Pattern

/-!
Labels. An expression that is built from a pattern has each of its labels once.
-/

namespace Curia.Regex

/-- The labels of an expression, from left to right. -/
def labels : Regex → List Nat
  | empty | look _ => []
  | chars label _ => [label]
  | seq r s => r.labels ++ s.labels
  | alt label r s => label :: (r.labels ++ s.labels)
  | plus label _ r | again label _ r => label :: r.labels

/-- The labels are used once each, from a number on up to the next free one. -/
structure Fresh (n : Nat) (built : Regex × Nat) : Prop where
  le : n ≤ built.2
  mem : ∀ l ∈ built.1.labels, n ≤ l ∧ l < built.2
  nodup : built.1.labels.Nodup

namespace Fresh

theorem none {r : Regex} (h : r.labels = []) (n : Nat) : Fresh n (r, n) := by
  refine ⟨Nat.le_refl n, ?_, ?_⟩ <;> rw [h]
  · intro l hl
    cases hl
  · exact List.nodup_nil

theorem append {n m k : Nat} {r s : Regex} (hr : Fresh n (r, m)) (hs : Fresh m (s, k)) :
    (∀ l ∈ r.labels ++ s.labels, n ≤ l ∧ l < k) ∧ (r.labels ++ s.labels).Nodup := by
  have hle := hr.le
  have hle' := hs.le
  simp only at hle hle'
  constructor
  · intro l hl
    rcases List.mem_append.1 hl with hl | hl
    · have := hr.mem l hl
      simp only at this
      omega
    · have := hs.mem l hl
      simp only at this
      omega
  · refine List.nodup_append.2 ⟨hr.nodup, hs.nodup, fun l hl l' hl' hll => ?_⟩
    have := hr.mem l hl
    have := hs.mem l' hl'
    simp only at *
    omega

theorem seq {n m k : Nat} {r s : Regex} (hr : Fresh n (r, m)) (hs : Fresh m (s, k)) :
    Fresh n (.seq r s, k) := by
  obtain ⟨hmem, hnodup⟩ := hr.append hs
  exact ⟨Nat.le_trans hr.le hs.le, hmem, hnodup⟩

/-- The first label is put before those of the parts. -/
theorem cons {n m : Nat} {r : Regex} {ls : List Nat} (hlabels : r.labels = n :: ls)
    (hle : n + 1 ≤ m) (hmem : ∀ l ∈ ls, n + 1 ≤ l ∧ l < m) (hnodup : ls.Nodup) :
    Fresh n (r, m) := by
  refine ⟨Nat.le_of_succ_le hle, fun l hl => ?_, ?_⟩
  · simp only [hlabels] at hl
    rcases List.mem_cons.1 hl with rfl | hl
    · exact ⟨Nat.le_refl l, hle⟩
    · have := hmem l hl
      simp only
      omega
  · simp only [hlabels]
    refine List.nodup_cons.2 ⟨fun hn => ?_, hnodup⟩
    have := hmem n hn
    omega

theorem chars (n : Nat) (set : CharSet) : Fresh n (.chars n set, n + 1) :=
  cons rfl (Nat.le_refl _) (fun _ h => by cases h) List.nodup_nil

theorem alt {n m k : Nat} {r s : Regex} (hr : Fresh (n + 1) (r, m)) (hs : Fresh m (s, k)) :
    Fresh n (.alt n r s, k) := by
  obtain ⟨hmem, hnodup⟩ := hr.append hs
  exact cons rfl (Nat.le_trans hr.le hs.le) hmem hnodup

theorem plus {n m : Nat} {r : Regex} (hr : Fresh (n + 1) (r, m)) (greedy : Bool) :
    Fresh n (.plus n greedy r, m) :=
  cons rfl hr.le hr.mem hr.nodup

theorem again {n m : Nat} {r : Regex} (hr : Fresh (n + 1) (r, m)) (greedy : Bool) :
    Fresh n (.again n greedy r, m) :=
  cons rfl hr.le hr.mem hr.nodup

theorem opt {n m : Nat} {r : Regex} (hr : Fresh (n + 1) (r, m)) (greedy : Bool) :
    Fresh n (Labelled.opt greedy n r, m) := by
  rw [Labelled.opt]
  split
  · exact hr.alt (none rfl m)
  · exact (none rfl (n + 1)).alt hr

end Fresh

theorem Labelled.text_fresh (cs : List Char) (n : Nat) : Fresh n (Labelled.text cs n) := by
  induction cs generalizing n with
  | nil => exact .none rfl n
  | cons c cs ih =>
      cases cs with
      | nil => exact .chars n _
      | cons d ds => exact (Fresh.chars n _).seq (ih (n + 1))

theorem Labelled.copies_fresh {part : Labelled} (hpart : ∀ n, Fresh n (part n)) (k n : Nat) :
    Fresh n (copies part k n) := by
  induction k generalizing n with
  | zero => exact .none rfl n
  | succ k ih =>
      cases k with
      | zero => exact hpart n
      | succ k => exact (hpart n).seq (ih (part n).2)

theorem Labelled.upTo_fresh {part : Labelled} (hpart : ∀ n, Fresh n (part n)) (greedy : Bool)
    (k n : Nat) : Fresh n (upTo greedy part k n) := by
  induction k generalizing n with
  | zero => exact .none rfl n
  | succ k ih => exact ((hpart (n + 1)).seq (ih (part (n + 1)).2)).opt greedy

theorem Pattern.build_fresh (p : Pattern) (n : Nat) : Fresh n (p.build n) := by
  induction p generalizing n with
  | empty => exact .none rfl n
  | text cs => exact Labelled.text_fresh cs n
  | chars bytes set => exact .chars n set
  | look a => exact .none rfl n
  | group index p ih => exact ih n
  | seq p q ihp ihq => exact (ihp n).seq (ihq (p.build n).2)
  | alt p q ihp ihq => exact (ihp (n + 1)).alt (ihq (p.build (n + 1)).2)
  | repetition p min max greedy ih =>
      have hcopies := Labelled.copies_fresh ih
      match min, max with
      | 0, none =>
          rw [build]
          split
          · exact (ih (n + 1)).again greedy
          · exact ((ih (n + 2)).plus greedy).opt greedy
      | min + 1, none =>
          have hlast (m : Nat) : Fresh m (.plus m greedy (p.build (m + 1)).1, (p.build (m + 1)).2) :=
            (ih (m + 1)).plus greedy
          rw [build]
          by_cases hmin : min = 0
          · subst hmin
            exact hlast n
          · simp only [if_neg hmin]
            exact (hcopies min n).seq (hlast _)
      | min, some max =>
          rw [build]
          exact (hcopies min n).seq (Labelled.upTo_fresh ih greedy (max - min) _)

/-- In an expression that a pattern stands for, no label comes twice. -/
theorem Pattern.labels_toRegex_nodup (p : Pattern) : p.toRegex.labels.Nodup :=
  (p.build_fresh 0).nodup

end Curia.Regex
