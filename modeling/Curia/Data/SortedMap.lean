/-!
Finite maps and sets as lists in strictly ascending order of their keys, so that two maps with the
same entries are the same map, whatever the order in which the entries came.
-/

namespace Curia

/-- Orders a type by a key, which tells its members apart. -/
@[reducible] def ordByKey [Ord β] (key : α → β) : Ord α := ⟨compareOn key⟩

theorem transOrd_ordByKey [Ord β] [Std.TransOrd β] (key : α → β) :
    @Std.TransOrd α (ordByKey key) :=
  inferInstanceAs (Std.TransCmp (compareOn key))

theorem lawfulEqOrd_ordByKey [Ord β] [Std.LawfulEqOrd β] [Std.TransOrd β] (key : α → β)
    (inj : ∀ a b, key a = key b → a = b) : @Std.LawfulEqOrd α (ordByKey key) :=
  letI := ordByKey key
  haveI := transOrd_ordByKey key
  { eq_of_compare := fun {a b} h => inj a b (Std.LawfulEqOrd.eq_of_compare (α := β) h) }

/-- What is in strictly ascending order has nothing twice. -/
theorem nodup_of_pairwise_compare [Ord α] [Std.ReflOrd α] {l : List α}
    (h : l.Pairwise fun a b => compare a b = .lt) : l.Nodup := by
  refine h.imp fun {a b} hlt hab => ?_
  rw [hab, Std.ReflOrd.compare_self] at hlt
  cases hlt

/-- A finite map: its entries in ascending order of their keys, each key once. -/
structure SortedMap (κ α : Type) [Ord κ] where
  toList : List (κ × α)
  sorted : toList.Pairwise fun a b => compare a.1 b.1 = .lt
  deriving DecidableEq

namespace SortedMap

/-- Puts an entry in its place among entries in ascending order; the entry of an equal key is
replaced. -/
def insertEntry [Ord κ] (k : κ) (a : α) : List (κ × α) → List (κ × α)
  | [] => [(k, a)]
  | (j, b) :: rest => match compare k j with
    | .lt => (k, a) :: (j, b) :: rest
    | .eq => (k, a) :: rest
    | .gt => (j, b) :: insertEntry k a rest

theorem mem_insertEntry [Ord κ] {k : κ} {a : α} {e : κ × α} {es : List (κ × α)}
    (h : e ∈ insertEntry k a es) : e = (k, a) ∨ e ∈ es := by
  induction es with
  | nil => simpa [insertEntry] using h
  | cons hd tl ih =>
    rw [insertEntry] at h
    split at h <;> grind

variable [Ord κ] [Std.TransOrd κ] [Std.LawfulEqOrd κ]

theorem sorted_insertEntry (k : κ) (a : α) {es : List (κ × α)}
    (h : es.Pairwise fun a b => compare a.1 b.1 = .lt) :
    (insertEntry k a es).Pairwise fun a b => compare a.1 b.1 = .lt := by
  induction es with
  | nil => simp [insertEntry]
  | cons hd tl ih =>
    obtain ⟨hlt, htl⟩ := List.pairwise_cons.1 h
    rw [insertEntry]
    split
    · next hk =>
      refine List.pairwise_cons.2 ⟨fun e he => ?_, h⟩
      rcases List.mem_cons.1 he with rfl | he
      · exact hk
      · exact Std.TransCmp.lt_trans hk (hlt e he)
    · next hk =>
      have hk : k = hd.1 := Std.LawfulEqOrd.eq_of_compare hk
      exact List.pairwise_cons.2 ⟨fun e he => by simpa [hk] using hlt e he, htl⟩
    · next hk =>
      refine List.pairwise_cons.2 ⟨fun e he => ?_, ih htl⟩
      rcases mem_insertEntry he with rfl | he
      · exact Std.OrientedCmp.lt_of_gt hk
      · exact hlt e he

def empty : SortedMap κ α := ⟨[], .nil⟩

def insert (m : SortedMap κ α) (k : κ) (a : α) : SortedMap κ α :=
  ⟨insertEntry k a m.toList, sorted_insertEntry k a m.sorted⟩

/-- Of several pairs with one key the last counts. -/
def ofList (es : List (κ × α)) : SortedMap κ α :=
  es.foldl (fun m e => m.insert e.1 e.2) empty

variable [DecidableEq κ]

def get? (m : SortedMap κ α) (k : κ) : Option α :=
  (m.toList.find? fun e => e.1 = k).map (·.2)

def contains (m : SortedMap κ α) (k : κ) : Bool := (m.get? k).isSome

def erase (m : SortedMap κ α) (k : κ) : SortedMap κ α :=
  ⟨m.toList.filter fun e => e.1 ≠ k, m.sorted.sublist (List.filter_sublist)⟩

def size (m : SortedMap κ α) : Nat := m.toList.length

def keys (m : SortedMap κ α) : List κ := m.toList.map (·.1)

def values (m : SortedMap κ α) : List α := m.toList.map (·.2)

def map (f : α → β) (m : SortedMap κ α) : SortedMap κ β :=
  ⟨m.toList.map fun e => (e.1, f e.2), List.pairwise_map.2 m.sorted⟩

instance : EmptyCollection (SortedMap κ α) := ⟨empty⟩
instance : Inhabited (SortedMap κ α) := ⟨empty⟩

omit [DecidableEq κ] in
@[simp] theorem toList_insert (m : SortedMap κ α) (k : κ) (a : α) :
    (m.insert k a).toList = insertEntry k a m.toList := rfl

omit [Std.TransOrd κ] [Std.LawfulEqOrd κ] [DecidableEq κ] in
@[ext] theorem ext {m n : SortedMap κ α} (h : m.toList = n.toList) : m = n := by
  cases m; cases n; cases h; rfl

omit [Std.TransOrd κ] in
theorem find?_insertEntry (k j : κ) (a : α) {es : List (κ × α)}
    (h : es.Pairwise fun a b => compare a.1 b.1 = .lt) :
    ((insertEntry k a es).find? fun e => e.1 = j) =
      if k = j then some (k, a) else es.find? fun e => e.1 = j := by
  induction es with
  | nil => by_cases hk : k = j <;> simp [insertEntry, hk]
  | cons hd tl ih =>
    obtain ⟨hlt, htl⟩ := List.pairwise_cons.1 h
    rw [insertEntry]
    split
    · next hc => by_cases hk : k = j <;> simp [hk]
    · next hc =>
      have hc : k = hd.1 := Std.LawfulEqOrd.eq_of_compare hc
      by_cases hk : k = j
      · simp [hk]
      · simp [hk, ← hc]
    · next hc =>
      have hne : k ≠ hd.1 := fun e => by simp [e] at hc
      by_cases hj : hd.1 = j
      · subst hj
        simp [hne]
      · simp only [List.find?_cons, hj, decide_false]
        simpa using ih htl

theorem get?_insert (m : SortedMap κ α) (k j : κ) (a : α) :
    (m.insert k a).get? j = if k = j then some a else m.get? j := by
  rw [get?, toList_insert, find?_insertEntry k j a m.sorted]
  by_cases h : k = j <;> simp [h, get?]

@[simp] theorem get?_insert_self (m : SortedMap κ α) (k : κ) (a : α) :
    (m.insert k a).get? k = some a := by simp [get?_insert]

omit [Std.TransOrd κ] [Std.LawfulEqOrd κ] in
@[simp] theorem get?_empty (k : κ) : (∅ : SortedMap κ α).get? k = none := rfl

theorem get?_foldl_insert (es : List (κ × α)) (m : SortedMap κ α) (k : κ) :
    (es.foldl (fun m e => m.insert e.1 e.2) m).get? k =
      ((es.filter fun e => e.1 = k).getLast?.map (·.2)).or (m.get? k) := by
  induction es generalizing m with
  | nil => rfl
  | cons e es ih =>
      rw [List.foldl_cons, ih, get?_insert]
      by_cases hk : e.1 = k
      · cases h : (es.filter fun e => e.1 = k).getLast? <;> simp [hk, List.getLast?_cons, h]
      · simp [hk]

theorem get?_ofList (es : List (κ × α)) (k : κ) :
    (ofList es).get? k = (es.filter fun e => e.1 = k).getLast?.map (·.2) := by
  rw [ofList, get?_foldl_insert]
  simp [empty, get?]

omit [Std.TransOrd κ] [Std.LawfulEqOrd κ] in
theorem get?_map (m : SortedMap κ α) (f : α → β) (k : κ) :
    (m.map f).get? k = (m.get? k).map f := by
  obtain ⟨es, h⟩ := m
  induction es with
  | nil => rfl
  | cons e es ih =>
      have ih := ih (List.pairwise_cons.1 h).2
      simp only [get?, map, List.map_cons, List.find?_cons] at ih ⊢
      by_cases hk : e.1 = k
      · simp [hk]
      · simpa [hk] using ih

omit [Std.TransOrd κ] [Std.LawfulEqOrd κ] in
theorem get?_erase (m : SortedMap κ α) (k j : κ) :
    (m.erase k).get? j = if k = j then none else m.get? j := by
  obtain ⟨es, h⟩ := m
  induction es with
  | nil => simp [erase, get?]
  | cons e es ih =>
      have ih := ih (List.pairwise_cons.1 h).2
      simp only [get?, erase, List.filter_cons, List.find?_cons] at ih ⊢
      grind

omit [Std.LawfulEqOrd κ] [DecidableEq κ] in
theorem nodup_keys (m : SortedMap κ α) : m.keys.Nodup :=
  nodup_of_pairwise_compare (List.pairwise_map.2 m.sorted)

omit [Std.TransOrd κ] [Std.LawfulEqOrd κ] in
theorem mem_of_get? {m : SortedMap κ α} {k : κ} {a : α} (h : m.get? k = some a) :
    (k, a) ∈ m.toList := by
  obtain ⟨e, he, rfl⟩ := Option.map_eq_some_iff.1 h
  have hk : e.1 = k := by simpa using List.find?_some he
  exact hk ▸ List.mem_of_find?_eq_some he

omit [Std.LawfulEqOrd κ] in
theorem mem_toList_iff {m : SortedMap κ α} {k : κ} {a : α} :
    (k, a) ∈ m.toList ↔ m.get? k = some a := by
  refine ⟨fun h => ?_, mem_of_get?⟩
  obtain ⟨es, hs⟩ := m
  induction es with
  | nil => simp at h
  | cons e es ih =>
      obtain ⟨hlt, hs'⟩ := List.pairwise_cons.1 hs
      simp only [get?, List.find?_cons] at ih ⊢
      rcases List.mem_cons.1 h with rfl | h
      · simp
      · have hne : e.1 ≠ k := fun he => by
          have := hlt (k, a) h
          rw [he, Std.ReflOrd.compare_self] at this
          cases this
        simpa [hne] using ih hs' h

omit [Std.TransOrd κ] [Std.LawfulEqOrd κ] in
theorem contains_iff {m : SortedMap κ α} {k : κ} :
    m.contains k = true ↔ ∃ a, m.get? k = some a := by
  rw [contains, Option.isSome_iff_exists]

omit [Std.LawfulEqOrd κ] in
theorem mem_keys_iff {m : SortedMap κ α} {k : κ} : k ∈ m.keys ↔ m.contains k = true := by
  rw [contains_iff]
  constructor
  · intro h
    obtain ⟨e, he, rfl⟩ := List.mem_map.1 h
    exact ⟨e.2, mem_toList_iff.1 he⟩
  · rintro ⟨a, h⟩
    exact List.mem_map.2 ⟨(k, a), mem_of_get? h, rfl⟩

omit [Std.LawfulEqOrd κ] in
/-- The keys of the entries that pass. -/
theorem mem_map_fst_filter {m : SortedMap κ α} {p : κ × α → Bool} {k : κ} :
    k ∈ (m.toList.filter p).map (·.1) ↔ ∃ a, m.get? k = some a ∧ p (k, a) = true := by
  constructor
  · intro h
    obtain ⟨e, he, rfl⟩ := List.mem_map.1 h
    obtain ⟨hmem, hp⟩ := List.mem_filter.1 he
    exact ⟨e.2, mem_toList_iff.1 hmem, hp⟩
  · rintro ⟨a, ha, hp⟩
    exact List.mem_map.2 ⟨(k, a), List.mem_filter.2 ⟨mem_of_get? ha, hp⟩, rfl⟩

omit [Std.TransOrd κ] [Std.LawfulEqOrd κ] [DecidableEq κ] in
theorem pairwise_map_fst_filter (m : SortedMap κ α) (p : κ × α → Bool) :
    ((m.toList.filter p).map (·.1)).Pairwise fun j k => compare j k = .lt :=
  List.pairwise_map.2 (m.sorted.filter p)

omit [Std.LawfulEqOrd κ] [DecidableEq κ] in
theorem nodup_toList (m : SortedMap κ α) : m.toList.Nodup :=
  List.Pairwise.of_map Prod.fst (fun _ _ hne he => hne (congrArg Prod.fst he)) m.nodup_keys

omit [Std.LawfulEqOrd κ] in
/-- Maps with the same entries are the same. -/
theorem ext_get? {m n : SortedMap κ α} (h : ∀ k, m.get? k = n.get? k) : m = n := by
  have hantisymm (a b : κ × α) (_ : a ∈ m.toList) (_ : b ∈ n.toList)
      (hab : compare a.1 b.1 = .lt) (hba : compare b.1 a.1 = .lt) : a = b := by
    rw [Std.OrientedCmp.gt_of_lt hab] at hba
    cases hba
  refine ext (List.Perm.eq_of_pairwise hantisymm m.sorted n.sorted ?_)
  refine (List.perm_ext_iff_of_nodup m.nodup_toList n.nodup_toList).2 fun ⟨k, a⟩ => ?_
  rw [mem_toList_iff, mem_toList_iff, h]

theorem mem_of_get?_ofList {es : List (κ × α)} {k : κ} {a : α} (h : (ofList es).get? k = some a) :
    (k, a) ∈ es := by
  rw [get?_ofList] at h
  obtain ⟨e, he, rfl⟩ := Option.map_eq_some_iff.1 h
  obtain ⟨hmem, hk⟩ := List.mem_filter.1 (List.mem_of_getLast? he)
  rw [← of_decide_eq_true hk]
  exact hmem

/-- Entries that are those of a map make up the map, in whatever order and however often they are
given. -/
theorem ofList_eq_of_mem_iff {es : List (κ × α)} {m : SortedMap κ α}
    (h : ∀ e, e ∈ es ↔ e ∈ m.toList) : ofList es = m := by
  refine ext_get? fun k => ?_
  cases hk : (ofList es).get? k with
  | some a => exact (mem_toList_iff.1 ((h _).1 (mem_of_get?_ofList hk))).symm
  | none =>
      rw [get?_ofList, Option.map_eq_none_iff, List.getLast?_eq_none_iff,
        List.filter_eq_nil_iff] at hk
      refine (Option.eq_none_iff_forall_ne_some.2 fun a ha => ?_).symm
      exact hk (k, a) ((h _).2 (mem_of_get? ha)) (decide_eq_true rfl)

theorem ofList_toList (m : SortedMap κ α) : ofList m.toList = m :=
  ofList_eq_of_mem_iff fun _ => .rfl

/-! ### Mapping over the values -/

omit [Std.TransOrd κ] [Std.LawfulEqOrd κ] [DecidableEq κ] in
theorem map_map (m : SortedMap κ α) (f : α → β) (g : β → γ) :
    (m.map f).map g = m.map fun a => g (f a) :=
  ext (by simp [map])

omit [Std.TransOrd κ] [Std.LawfulEqOrd κ] in
@[simp] theorem contains_map (m : SortedMap κ α) (f : α → β) (k : κ) :
    (m.map f).contains k = m.contains k := by
  rw [contains, contains, get?_map, Option.isSome_map]

omit [Std.TransOrd κ] [Std.LawfulEqOrd κ] [DecidableEq κ] in
@[simp] theorem size_map (m : SortedMap κ α) (f : α → β) : (m.map f).size = m.size := by
  simp [size, map]

theorem map_insert (m : SortedMap κ α) (f : α → β) (k : κ) (a : α) :
    (m.insert k a).map f = (m.map f).insert k (f a) := by
  refine ext_get? fun j => ?_
  rw [get?_map, get?_insert, get?_insert, get?_map]
  split <;> rfl

theorem map_ofList (es : List (κ × α)) (f : α → β) :
    (ofList es).map f = ofList (es.map fun e => (e.1, f e.2)) := by
  refine ext_get? fun k => ?_
  rw [get?_map, get?_ofList, get?_ofList, List.filter_map, List.getLast?_map, Option.map_map,
    Option.map_map]
  rfl

omit [Std.LawfulEqOrd κ] in
theorem map_erase (m : SortedMap κ α) (f : α → β) (k : κ) :
    (m.erase k).map f = (m.map f).erase k := by
  refine ext_get? fun j => ?_
  rw [get?_map, get?_erase, get?_erase, get?_map]
  split <;> rfl

end SortedMap

/-- A finite set: its members in ascending order, each once. -/
structure SortedSet (κ : Type) [Ord κ] where
  toList : List κ
  sorted : toList.Pairwise fun a b => compare a b = .lt
  deriving DecidableEq

namespace SortedSet

variable [Ord κ] [Std.TransOrd κ] [Std.LawfulEqOrd κ] [DecidableEq κ]

def ofKeys (m : SortedMap κ α) : SortedSet κ :=
  ⟨m.keys, List.pairwise_map.2 m.sorted⟩

def ofList (ks : List κ) : SortedSet κ :=
  ofKeys (SortedMap.ofList (ks.map fun k => (k, ())))

def contains (s : SortedSet κ) (k : κ) : Bool := s.toList.any fun j => j = k

def size (s : SortedSet κ) : Nat := s.toList.length

def isEmpty (s : SortedSet κ) : Bool := s.toList.isEmpty

def filter (p : κ → Bool) (s : SortedSet κ) : SortedSet κ :=
  ⟨s.toList.filter p, s.sorted.sublist List.filter_sublist⟩

instance : EmptyCollection (SortedSet κ) := ⟨⟨[], .nil⟩⟩

omit [Std.TransOrd κ] [Std.LawfulEqOrd κ] [DecidableEq κ] in
@[ext] theorem ext {s t : SortedSet κ} (h : s.toList = t.toList) : s = t := by
  cases s; cases t; cases h; rfl

omit [Std.LawfulEqOrd κ] [DecidableEq κ] in
theorem nodup_toList (s : SortedSet κ) : s.toList.Nodup :=
  nodup_of_pairwise_compare s.sorted

omit [Std.LawfulEqOrd κ] [DecidableEq κ] in
/-- Sets with the same members are the same. -/
theorem ext_mem {s t : SortedSet κ} (h : ∀ k, k ∈ s.toList ↔ k ∈ t.toList) : s = t := by
  have hantisymm (a b : κ) (_ : a ∈ s.toList) (_ : b ∈ t.toList) (hab : compare a b = .lt)
      (hba : compare b a = .lt) : a = b := by
    rw [Std.OrientedCmp.gt_of_lt hab] at hba
    cases hba
  refine ext (List.Perm.eq_of_pairwise hantisymm s.sorted t.sorted ?_)
  exact (List.perm_ext_iff_of_nodup s.nodup_toList t.nodup_toList).2 h

omit [Std.TransOrd κ] [Std.LawfulEqOrd κ] in
theorem contains_iff {s : SortedSet κ} {k : κ} : s.contains k = true ↔ k ∈ s.toList := by
  simp [contains]

omit [Std.TransOrd κ] [Std.LawfulEqOrd κ] [DecidableEq κ] in
theorem isEmpty_iff {s : SortedSet κ} : s.isEmpty = true ↔ ∀ k, k ∉ s.toList := by
  rw [isEmpty, List.isEmpty_iff, List.eq_nil_iff_forall_not_mem]

omit [Std.TransOrd κ] [Std.LawfulEqOrd κ] [DecidableEq κ] in
theorem mem_filter {s : SortedSet κ} {p : κ → Bool} {k : κ} :
    k ∈ (s.filter p).toList ↔ k ∈ s.toList ∧ p k = true := List.mem_filter

omit [Std.LawfulEqOrd κ] in
theorem mem_ofKeys {m : SortedMap κ α} {k : κ} :
    k ∈ (ofKeys m).toList ↔ m.contains k = true := SortedMap.mem_keys_iff

theorem mem_ofList {ks : List κ} {k : κ} : k ∈ (ofList ks).toList ↔ k ∈ ks := by
  rw [ofList, mem_ofKeys, SortedMap.contains, SortedMap.get?_ofList, Option.isSome_map,
    Option.isSome_iff_ne_none, ne_eq, List.getLast?_eq_none_iff, List.filter_eq_nil_iff]
  simp

theorem ofList_toList (s : SortedSet κ) : ofList s.toList = s := ext_mem fun _ => mem_ofList

end SortedSet

end Curia
