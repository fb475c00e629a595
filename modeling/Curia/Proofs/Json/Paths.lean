import Curia.Proofs.Json.Fields

/-!
Members of an object, and of the objects in it, are named by paths. A value without the members at
some paths is read as what it was, but for what is found at those paths.
-/

namespace Curia

namespace Json

/-- What follows the name in the paths that begin with it. -/
def pathsUnder (name : String) (paths : List (List String)) : List (List String) :=
  paths.filterMap fun
    | n :: path => if n = name then some path else none
    | [] => none

theorem mem_pathsUnder {name : String} {paths : List (List String)} {path : List String} :
    path ∈ pathsUnder name paths ↔ name :: path ∈ paths := by
  rw [pathsUnder, List.mem_filterMap]
  constructor
  · rintro ⟨_ | ⟨n, rest⟩, hmem, heq⟩
    · cases heq
    · obtain ⟨hn, hrest⟩ := Option.ite_none_right_eq_some.1 heq
      rwa [← hn, ← Option.some.inj hrest]
  · exact fun h => ⟨name :: path, h, if_pos rfl⟩

mutual

/-- The value without the members at the paths. -/
def without (paths : List (List String)) : Json → Json
  | .object members => .object (membersWithout paths members)
  | v => v

def membersWithout (paths : List (List String)) : List (String × Json) → List (String × Json)
  | [] => []
  | (name, v) :: ms =>
    if [name] ∈ paths then membersWithout paths ms
    else (name, without (pathsUnder name paths) v) :: membersWithout paths ms

end

mutual

theorem without_nil : ∀ v : Json, without [] v = v
  | .null | .bool _ | .number _ | .string _ | .array _ => rfl
  | .object ms => congrArg Json.object (membersWithout_nil ms)

theorem membersWithout_nil : ∀ ms : List (String × Json), membersWithout [] ms = ms
  | [] => rfl
  | (name, v) :: ms => by
    rw [membersWithout, if_neg List.not_mem_nil, membersWithout_nil ms]
    exact congrArg (fun w => (name, w) :: ms) (without_nil v)

end

variable {paths : List (List String)}

theorem lookup_membersWithout (name : String) (ms : List (String × Json)) :
    (membersWithout paths ms).lookup name =
      if [name] ∈ paths then none else (ms.lookup name).map (without (pathsUnder name paths)) := by
  induction ms with
  | nil => simp [membersWithout]
  | cons m ms ih =>
      obtain ⟨n, v⟩ := m
      rw [membersWithout, lookup_cons_ite]
      by_cases hname : name = n
      · subst hname
        by_cases hmem : [name] ∈ paths
        · simp [hmem, ih]
        · simp [hmem]
      · by_cases hmem : [n] ∈ paths
        · simp [hmem, ih, hname]
        · simp [hmem, ih, hname, lookup_cons_ite]

theorem names_membersWithout (paths : List (List String)) (ms : List (String × Json)) :
    ((membersWithout paths ms).map Prod.fst).Sublist (ms.map Prod.fst) := by
  induction ms with
  | nil => exact .slnil
  | cons m ms ih =>
      rw [membersWithout]
      split
      · exact ih.cons m.1
      · exact ih.cons_cons m.1

mutual

theorem Plain.without : ∀ (paths : List (List String)) {v : Json}, v.Plain →
    (v.without paths).Plain
  | _, .null, h | _, .bool _, h | _, .number _, h | _, .string _, h | _, .array _, h => h
  | paths, .object ms, h => by
    obtain ⟨hnames, hvalues⟩ := h.names
    have hms := plain_membersWithout paths ms fun m hm =>
      ⟨membersIntegral_iff.1 h.integral m hm, membersNamesDiffer_iff.1 hvalues m hm⟩
    exact ⟨membersIntegral_iff.2 fun m hm => (hms m hm).integral,
      hnames.sublist (names_membersWithout paths ms),
      membersNamesDiffer_iff.2 fun m hm => (hms m hm).names⟩

theorem plain_membersWithout : ∀ (paths : List (List String)) (ms : List (String × Json)),
    (∀ m ∈ ms, m.2.Plain) → ∀ m ∈ membersWithout paths ms, m.2.Plain
  | _, [], _, _, hm => by cases hm
  | paths, (name, v) :: ms, h, m, hm => by
    obtain ⟨hv, hms⟩ := List.forall_mem_cons.1 h
    rw [membersWithout] at hm
    split at hm
    · exact plain_membersWithout paths ms hms m hm
    · rcases List.mem_cons.1 hm with rfl | hm
      · exact Plain.without (pathsUnder name paths) hv
      · exact plain_membersWithout paths ms hms m hm

end

end Json

namespace Record

theorem exists_read_without {ms : List (String × Json)} {paths : List (List String)} {w : Json}
    (h : ((Json.record ms).without paths).Rearranged w) (names : List String) :
    ∃ r, read names w = .ok r ∧ r.Holds names fun name =>
      if [name] ∈ paths then none
      else (ms.reverse.lookup name).map (Json.without (Json.pathsUnder name paths)) := by
  have hnodup := (Json.nodup_sortMembers ms).sublist
    (Json.names_membersWithout paths (Json.sortMembers ms))
  simpa only [Json.lookup_membersWithout, Json.lookup_sortMembers] using
    exists_read hnodup h names

end Record

end Curia
