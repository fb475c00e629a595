import Curia.Time.Instant

/-!
Points in time are in a linear order: by their seconds, then by their nanoseconds.
-/

namespace Curia.Instant

instance : Std.TransOrd Instant :=
  inferInstanceAs (Std.TransCmp (compareLex (compareOn Instant.seconds) (compareOn Instant.nanos)))

theorem compare_eq_eq_iff {s t : Instant} : s.compare t = .eq ↔ s = t := by
  constructor
  · intro h
    obtain ⟨hseconds, hnanos⟩ := Ordering.then_eq_eq.1 h
    cases s
    cases t
    cases Int.compare_eq_eq.1 hseconds
    cases Nat.compare_eq_eq.1 hnanos
    rfl
  · rintro rfl
    exact Std.ReflOrd.compare_self (α := Instant)

theorem not_lt {s t : Instant} : ¬s < t ↔ t ≤ s := by
  show ¬Ord.compare s t = .lt ↔ (Ord.compare t s).isLE = true
  rw [← Std.OrientedCmp.gt_iff_lt, Ordering.isLE_iff_ne_gt]

theorem le_trans {s t u : Instant} (hst : s ≤ t) (htu : t ≤ u) : s ≤ u := by
  show (Ord.compare s u).isLE = true
  exact Std.TransCmp.isLE_trans hst htu

theorem lt_of_lt_of_le {s t u : Instant} (hst : s < t) (htu : t ≤ u) : s < u := by
  show Ord.compare s u = .lt
  exact Std.TransCmp.lt_of_lt_of_isLE hst htu

end Curia.Instant
