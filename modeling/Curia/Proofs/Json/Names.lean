import Mathlib.Data.List.Nodup
import Curia.Filter.Rule
import Curia.Router.Pipeline

/-!
Names tell the members of a type from each other, so a member is read back from its name.
-/

namespace Curia

namespace Named

variable [Named α]

/-- Every member is listed, and no two have one name. -/
class Distinct (α : Type) [Named α] : Prop where
  mem_all : ∀ a : α, a ∈ Named.all
  nodup_names : ((Named.all (α := α)).map Named.name).Nodup

variable [Distinct α]

theorem name_injective {a b : α} (h : name a = name b) : a = b :=
  List.inj_on_of_nodup_map Distinct.nodup_names (Distinct.mem_all a) (Distinct.mem_all b) h

theorem ofName?_name (a : α) : ofName? (name a) = some a := by
  cases hfound : (ofName? (name a) : Option α) with
  | none =>
      have hne := List.find?_eq_none.1 hfound a (Distinct.mem_all a)
      exact absurd (decide_eq_true rfl) hne
  | some b =>
      rw [ofName?] at hfound
      have hname : name b = name a := by simpa using List.find?_some hfound
      rw [name_injective hname]

theorem ofJson_toJson (a : α) : ofJson (toJson a) = .ok a := by
  simp only [ofJson, toJson, ofName?_name]

theorem ofKey_name (a : α) : ofKey (name a) = .ok a := by
  simp only [ofKey, ofName?_name]

end Named

/-! ### The types with names -/

instance : Named.Distinct Severity :=
  ⟨fun s => by cases s <;> decide, by decide⟩

instance : Named.Distinct Category :=
  ⟨fun c => by cases c <;> decide, by decide⟩

instance : Named.Distinct Reason :=
  ⟨fun r => by cases r <;> decide, by decide⟩

instance : Named.Distinct Violation :=
  ⟨fun v => by cases v <;> decide, by decide⟩

instance : Named.Distinct Outcome :=
  ⟨Outcome.mem_all, by decide⟩

instance : Named.Distinct Pipeline :=
  ⟨fun p => by cases p <;> decide, by decide⟩

instance : Named.Distinct Petition.State :=
  ⟨fun s => by cases s <;> decide, by decide⟩

instance : Named.Distinct Priority :=
  ⟨fun p => by cases p <;> decide, by decide⟩

end Curia
