import Mathlib.Data.List.Forall2
import Mathlib.Data.List.Nodup
import Curia.Json.Decode
import Curia.Proofs.Json.Canonical
import Curia.Proofs.Json.Members

/-!
Values that differ in nothing but the order in which the members of their objects stand. Where no
object has two members of one name, what is found under a name does not depend on that order, and
neither does whether a value is read back from its text.
-/

namespace Curia.Json

/-! ### Objects without repeated names -/

mutual

/-- No object in the value has two members of one name. -/
def NamesDiffer : Json → Prop
  | .array items => ItemsNamesDiffer items
  | .object members => (members.map Prod.fst).Nodup ∧ MembersNamesDiffer members
  | _ => True

def ItemsNamesDiffer : List Json → Prop
  | [] => True
  | v :: vs => NamesDiffer v ∧ ItemsNamesDiffer vs

def MembersNamesDiffer : List (String × Json) → Prop
  | [] => True
  | (_, v) :: ms => NamesDiffer v ∧ MembersNamesDiffer ms

end

theorem itemsNamesDiffer_iff {vs : List Json} :
    ItemsNamesDiffer vs ↔ ∀ v ∈ vs, v.NamesDiffer := by
  induction vs with
  | nil => simp [ItemsNamesDiffer]
  | cons v vs ih => simp [ItemsNamesDiffer, ih]

theorem membersNamesDiffer_iff {ms : List (String × Json)} :
    MembersNamesDiffer ms ↔ ∀ m ∈ ms, m.2.NamesDiffer := by
  induction ms with
  | nil => simp [MembersNamesDiffer]
  | cons m ms ih => simp [MembersNamesDiffer, ih]

theorem nodup_sortMembers (ms : List (String × Json)) :
    ((sortMembers ms).map Prod.fst).Nodup := by
  rw [sortMembers_eq]
  exact SortedMap.nodup_keys _

/-- Where names differ, what is found under a name is the member that has it. -/
theorem lookup_eq_some_iff_mem {ms : List (String × Json)} (h : (ms.map Prod.fst).Nodup)
    {name : String} {v : Json} : ms.lookup name = some v ↔ (name, v) ∈ ms := by
  induction ms with
  | nil => simp
  | cons m ms ih =>
      obtain ⟨hfresh, hms⟩ := List.nodup_cons.1 h
      rw [lookup_cons_ite, List.mem_cons]
      by_cases hname : name = m.1
      · -- the rest has no member of this name
        have hnot : (name, v) ∉ ms := fun hmem =>
          hfresh (List.mem_map.2 ⟨(name, v), hmem, hname⟩)
        simp [hname ▸ hnot, hname, Prod.ext_iff, eq_comm]
      · simp [hname, ih hms, Prod.ext_iff]

/-- Where names differ, putting the members in order is all that is done. -/
theorem sortMembers_perm {ms : List (String × Json)} (h : (ms.map Prod.fst).Nodup) :
    (sortMembers ms).Perm ms := by
  have hreverse : (ms.reverse.map Prod.fst).Nodup := by
    rw [List.map_reverse]
    exact List.nodup_reverse.2 h
  refine (List.perm_ext_iff_of_nodup (.of_map Prod.fst (nodup_sortMembers ms))
    (.of_map Prod.fst h)).2 ?_
  rintro ⟨name, v⟩
  rw [← lookup_eq_some_iff_mem (nodup_sortMembers ms), lookup_sortMembers,
    lookup_eq_some_iff_mem hreverse, List.mem_reverse]

theorem membersMeaning_eq_lookup {ms : List (String × Json)} (h : (ms.map Prod.fst).Nodup)
    (name : String) : membersMeaning ms name = (ms.lookup name).map meaning := by
  induction ms with
  | nil => rfl
  | cons m ms ih =>
      obtain ⟨hfresh, hms⟩ := List.nodup_cons.1 h
      rw [membersMeaning, ih hms, lookup_cons_ite]
      by_cases hname : name = m.1
      · have hnone : ms.lookup name = none := by
          rw [List.lookup_eq_none_iff]
          intro k hk
          simpa using fun heq : name = k.1 => hfresh (List.mem_map.2 ⟨k, hk, heq ▸ hname⟩)
        simp [hname ▸ hnone, hname]
      · simp [hname, Ne.symm hname]

/-! ### Other orders -/

/-- The second value is the first with the members of its objects in another order, or in the
same. -/
structure Rearranged (v w : Json) : Prop where
  names : w.NamesDiffer
  meaning : w.meaning = v.meaning

theorem Rearranged.refl {v : Json} (h : v.NamesDiffer) : v.Rearranged v := ⟨h, rfl⟩

/-- Neither an array nor an object. -/
def isScalar : Json → Bool
  | .array _ | .object _ => false
  | _ => true

theorem Rearranged.eq_of_isScalar {v w : Json} (h : v.Rearranged w) (hv : v.isScalar = true) :
    w = v := by
  have hmeaning := h.meaning
  cases v <;> cases w <;> simp_all [Json.meaning, isScalar]

theorem forall₂_of_itemsMeaning : ∀ {vs ws : List Json}, itemsMeaning ws = itemsMeaning vs →
    ItemsNamesDiffer ws → List.Forall₂ Rearranged vs ws
  | [], [], _, _ => .nil
  | [], _ :: _, h, _ => by cases h
  | _ :: _, [], h, _ => by cases h
  | _ :: _, _ :: _, h, hnames => by
    obtain ⟨hhead, htail⟩ := List.cons.inj h
    exact .cons ⟨hnames.1, hhead⟩ (forall₂_of_itemsMeaning htail hnames.2)

theorem Rearranged.of_array {vs : List Json} {w : Json} (h : (array vs).Rearranged w) :
    ∃ ws, w = .array ws ∧ List.Forall₂ Rearranged vs ws := by
  obtain ⟨hnames, hmeaning⟩ := h
  cases w with
  | array ws => exact ⟨ws, rfl, forall₂_of_itemsMeaning (Meaning.array.inj hmeaning) hnames⟩
  | _ => cases hmeaning

theorem Rearranged.of_object {ms : List (String × Json)} (hms : (ms.map Prod.fst).Nodup) {w : Json}
    (h : (object ms).Rearranged w) :
    ∃ ns, w = .object ns ∧ (ns.map Prod.fst).Nodup ∧
      ∀ name, Option.Rel Rearranged (ms.lookup name) (ns.lookup name) := by
  obtain ⟨hnames, hmeaning⟩ := h
  cases w with
  | object ns =>
      obtain ⟨hns, hvalues⟩ := hnames
      refine ⟨ns, rfl, hns, fun name => ?_⟩
      have hname := congrFun (Meaning.object.inj hmeaning) name
      rw [membersMeaning_eq_lookup hns, membersMeaning_eq_lookup hms] at hname
      cases hv : ms.lookup name with
      | none =>
          rw [hv, Option.map_none, Option.map_eq_none_iff] at hname
          rw [hname]
          exact .none
      | some v =>
          rw [hv] at hname
          obtain ⟨u, hu, hmeaning⟩ := Option.map_eq_some_iff.1 hname
          have hmem := (lookup_eq_some_iff_mem hns).1 hu
          rw [hu]
          exact .some ⟨membersNamesDiffer_iff.1 hvalues _ hmem, hmeaning⟩
  | _ => cases hmeaning

/-- Members that are neither arrays nor objects can only change places. -/
theorem Rearranged.perm_of_isScalar {ms : List (String × Json)} (hms : (ms.map Prod.fst).Nodup)
    (hscalar : ∀ m ∈ ms, m.2.isScalar = true) {w : Json} (h : (object ms).Rearranged w) :
    ∃ ns, w = .object ns ∧ ns.Perm ms := by
  obtain ⟨ns, rfl, hns, hlookup⟩ := h.of_object hms
  have heq {o o' : Option Json} (hrel : Option.Rel Rearranged o o')
      (ho : ∀ v, o = some v → v.isScalar = true) : o' = o := by
    cases hrel with
    | none => rfl
    | some hvw => rw [hvw.eq_of_isScalar (ho _ rfl)]
  refine ⟨ns, rfl, (List.perm_ext_iff_of_nodup (.of_map Prod.fst hns) (.of_map Prod.fst hms)).2 ?_⟩
  rintro ⟨name, u⟩
  rw [← lookup_eq_some_iff_mem hns, ← lookup_eq_some_iff_mem hms, heq (hlookup name)]
  exact fun v hv => hscalar (name, v) ((lookup_eq_some_iff_mem hms).1 hv)

mutual

theorem isIntegral_of_rearranged :
    ∀ {v : Json} (w : Json), v.Rearranged w → v.isIntegral = true → w.isIntegral = true
  | _, .null, _, _ | _, .bool _, _, _ | _, .string _, _, _ => rfl
  | v, .number n, h, hv => by
    cases v with
    | number m => rwa [Meaning.number.inj h.meaning]
    | _ => cases h.meaning
  | v, .array ws, h, hv => by
    cases v with
    | array vs =>
        exact itemsIntegral_of_rearranged ws (Meaning.array.inj h.meaning) h.names hv
    | _ => cases h.meaning
  | v, .object ns, h, hv => by
    cases v with
    | object ms =>
        obtain ⟨hns, hvalues⟩ := h.names
        refine membersIntegral_of_rearranged ns hvalues fun m hm => ?_
        have hname := congrFun (Meaning.object.inj h.meaning) m.1
        rw [membersMeaning_eq_lookup hns, (lookup_eq_some_iff_mem hns).2 hm, membersMeaning_eq]
          at hname
        obtain ⟨u, hu, hmeaning⟩ := Option.map_eq_some_iff.1 hname.symm
        exact ⟨u, hmeaning.symm, membersIntegral_iff.1 hv _ (SortedMap.mem_of_get?_ofList hu)⟩
    | _ => cases h.meaning

theorem itemsIntegral_of_rearranged : ∀ {vs : List Json} (ws : List Json),
    itemsMeaning ws = itemsMeaning vs → ItemsNamesDiffer ws → itemsIntegral vs = true →
      itemsIntegral ws = true
  | _, [], _, _, _ => rfl
  | [], _ :: _, h, _, _ => by cases h
  | _ :: _, w :: ws, h, hnames, hv => by
    obtain ⟨hhead, htail⟩ := List.cons.inj h
    obtain ⟨hvhead, hvtail⟩ := Bool.and_eq_true_iff.1 hv
    rw [itemsIntegral, isIntegral_of_rearranged w ⟨hnames.1, hhead⟩ hvhead,
      itemsIntegral_of_rearranged ws htail hnames.2 hvtail]
    rfl

theorem membersIntegral_of_rearranged : ∀ ns : List (String × Json), MembersNamesDiffer ns →
    (∀ m ∈ ns, ∃ v : Json, m.2.meaning = v.meaning ∧ v.isIntegral = true) →
      membersIntegral ns = true
  | [], _, _ => rfl
  | (name, w) :: ns, hnames, h => by
    obtain ⟨v, hmeaning, hv⟩ := h (name, w) List.mem_cons_self
    rw [membersIntegral, isIntegral_of_rearranged w ⟨hnames.1, hmeaning⟩ hv,
      membersIntegral_of_rearranged ns hnames.2 fun m hm => h m (List.mem_cons_of_mem _ hm)]
    rfl

end

/-! ### Values that are read back -/

/-- The value has no fractions and no object in it repeats a name. -/
structure Plain (v : Json) : Prop where
  integral : v.isIntegral = true
  names : v.NamesDiffer

theorem Plain.of_rearranged {v w : Json} (hv : v.Plain) (h : v.Rearranged w) : w.Plain :=
  ⟨isIntegral_of_rearranged w h hv.integral, h.names⟩

theorem plain_of_isScalar {v : Json} (h : v.isIntegral = true) (hv : v.isScalar = true) :
    v.Plain :=
  ⟨h, by cases v <;> trivial⟩

@[simp] theorem plain_string (s : String) : (string s).Plain := plain_of_isScalar rfl rfl

@[simp] theorem plain_bool (b : Bool) : (bool b).Plain := plain_of_isScalar rfl rfl

@[simp] theorem plain_name [Named α] (a : α) : (Named.toJson a).Plain := plain_string _

theorem plain_nat {n : Nat} (h : n < UInt64.size) : (nat n).Plain := by
  have hrange : Number.InRange n := by
    simp only [UInt64.size] at h
    constructor <;> omega
  exact plain_of_isScalar (by simp [nat, isIntegral, hrange]) rfl

theorem plain_ofOption {write : α → Json} (h : ∀ a, (write a).Plain) (o : Option α) :
    (ofOption write o).Plain := by
  cases o with
  | none => exact plain_of_isScalar rfl rfl
  | some a => exact h a

theorem plain_array {vs : List Json} (h : ∀ v ∈ vs, v.Plain) : (array vs).Plain :=
  ⟨itemsIntegral_iff.2 fun v hv => (h v hv).integral,
    itemsNamesDiffer_iff.2 fun v hv => (h v hv).names⟩

theorem plain_record {ms : List (String × Json)} (h : ∀ m ∈ ms, m.2.Plain) : (record ms).Plain :=
  ⟨membersIntegral_iff.2 fun m hm => (h m (mem_of_mem_sortMembers hm)).integral,
    nodup_sortMembers ms,
    membersNamesDiffer_iff.2 fun m hm => (h m (mem_of_mem_sortMembers hm)).names⟩

/-- The members of a record may stand in the order in which they are given. -/
theorem rearranged_record {ms : List (String × Json)} (hms : (ms.map Prod.fst).Nodup)
    (h : ∀ m ∈ ms, m.2.Plain) : (record ms).Rearranged (.object ms) where
  names := ⟨hms, membersNamesDiffer_iff.2 fun m hm => (h m hm).names⟩
  meaning := by rw [record, Json.meaning, Json.meaning, membersMeaning_sortMembers]

theorem rearranged_array {vs ws : List Json} (h : List.Forall₂ Rearranged vs ws) :
    (array vs).Rearranged (array ws) where
  names := by
    induction h with
    | nil => trivial
    | cons hvw _ ih => exact ⟨hvw.names, ih⟩
  meaning := by
    rw [Json.meaning, Json.meaning]
    congr 1
    induction h with
    | nil => rfl
    | cons hvw _ ih => rw [itemsMeaning, itemsMeaning, hvw.meaning, ih]

end Curia.Json
