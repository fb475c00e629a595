import Curia.Json.Basic

/-!
What is found under a name in an object, whose members may have been put in order. Names may repeat:
the first member is found, and putting members in order keeps the last.
-/

namespace Curia.Json

/-- The value of a member of an object. -/
def member? (name : String) : Json → Option Json
  | .object ms => ms.lookup name
  | _ => none

theorem lookup_cons_ite (name : String) (m : String × Json) (ms : List (String × Json)) :
    (m :: ms).lookup name = if name = m.1 then some m.2 else ms.lookup name := by
  rw [List.lookup_cons]
  by_cases h : name = m.1
  · simp [h]
  · rw [if_neg h, beq_eq_false_iff_ne.2 h]

theorem lookup_insertMember (name n : String) (v : Json) (ms : List (String × Json)) :
    (insertMember n v ms).lookup name = if name = n then some v else ms.lookup name := by
  induction ms with
  | nil => rw [insertMember, lookup_cons_ite]
  | cons m ms ih =>
      obtain ⟨k, w⟩ := m
      rw [insertMember, lookup_cons_ite]
      split
      · rw [lookup_cons_ite, lookup_cons_ite]
      · split
        · next hk =>
          rw [lookup_cons_ite, ← hk]
          by_cases h : name = n <;> simp [h]
        · next hk =>
          rw [lookup_cons_ite, ih]
          by_cases h : name = k
          · simp [h, Ne.symm hk]
          · simp [h]

/-- Of several members of one name the last counts. -/
theorem lookup_sortMembers (name : String) (ms : List (String × Json)) :
    (sortMembers ms).lookup name = ms.reverse.lookup name := by
  rw [sortMembers]
  suffices h : ∀ sorted : List (String × Json),
      (ms.foldl (fun sorted m => insertMember m.1 m.2 sorted) sorted).lookup name =
        (ms.reverse.lookup name).or (sorted.lookup name) by
    simpa using h []
  induction ms with
  | nil => simp
  | cons m ms ih =>
      intro sorted
      rw [List.foldl_cons, ih, lookup_insertMember, List.reverse_cons, List.lookup_append,
        lookup_cons_ite, List.lookup_nil, Option.or_assoc]
      by_cases h : name = m.1 <;> simp [h]

theorem member?_record (name : String) (ms : List (String × Json)) :
    (record ms).member? name = ms.reverse.lookup name :=
  lookup_sortMembers name ms

end Curia.Json
