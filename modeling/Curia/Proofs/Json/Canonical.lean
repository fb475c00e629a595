import Curia.Data.SortedMap
import Curia.Digest.Canonical
import Curia.Proofs.Json.Bytes
import Curia.Proofs.Json.Values

/-!
What the digest of a JSON value depends on. Two values have one canonical form if and only if they
differ in nothing but the order of members, and the text of the canonical form tells it from all
others.
-/

namespace Curia.Json

/-! ### Objects as maps -/

/-- A JSON value whose objects are maps from names to values. -/
inductive Meaning where
  | null
  | bool (b : Bool)
  | number (n : Number)
  | string (s : String)
  | array (items : List Meaning)
  | object (members : String → Option Meaning)

mutual

def meaning : Json → Meaning
  | .null => .null
  | .bool b => .bool b
  | .number n => .number n
  | .string s => .string s
  | .array items => .array (itemsMeaning items)
  | .object members => .object (membersMeaning members)

def itemsMeaning : List Json → List Meaning
  | [] => []
  | v :: vs => meaning v :: itemsMeaning vs

/-- Of several members of one name the last counts. -/
def membersMeaning : List (String × Json) → String → Option Meaning
  | [], _ => none
  | (name, v) :: ms, n => (membersMeaning ms n).or (if name = n then some (meaning v) else none)

end

theorem itemsMeaning_eq_map (vs : List Json) : itemsMeaning vs = vs.map meaning := by
  induction vs with
  | nil => rfl
  | cons v vs ih => rw [itemsMeaning, ih, List.map_cons]

theorem membersMeaning_append (ms ns : List (String × Json)) (n : String) :
    membersMeaning (ms ++ ns) n = (membersMeaning ns n).or (membersMeaning ms n) := by
  induction ms with
  | nil => simp [membersMeaning]
  | cons m ms ih => rw [List.cons_append, membersMeaning, ih, membersMeaning, Option.or_assoc]

theorem canonicalMembers_eq_map (ms : List (String × Json)) :
    canonicalMembers ms = ms.map fun m => (m.1, m.2.canonical) := by
  induction ms with
  | nil => rfl
  | cons m ms ih => rw [canonicalMembers, ih, List.map_cons]

/-! ### Sorted members -/

theorem insertMember_eq (name : String) (v : Json) (ms : List (String × Json)) :
    insertMember name v ms = SortedMap.insertEntry name v ms := by
  induction ms with
  | nil => rfl
  | cons m ms ih =>
      obtain ⟨n, w⟩ := m
      have hcompare : compare name n = compareOfLessAndEq name n := rfl
      rw [insertMember, SortedMap.insertEntry, hcompare, compareOfLessAndEq, ih]
      split
      · rfl
      · split <;> rfl

/-- Sorted members are the map that they make up. -/
theorem sortMembers_eq (ms : List (String × Json)) :
    sortMembers ms = (SortedMap.ofList ms).toList := by
  suffices h : ∀ m : SortedMap String Json,
      ms.foldl (fun sorted m => insertMember m.1 m.2 sorted) m.toList =
        (ms.foldl (fun m e => m.insert e.1 e.2) m).toList from h SortedMap.empty
  induction ms with
  | nil => exact fun _ => rfl
  | cons e ms ih =>
      intro m
      rw [List.foldl_cons, List.foldl_cons, insertMember_eq, ← SortedMap.toList_insert, ih]

theorem mem_of_mem_sortMembers {ms : List (String × Json)} {m : String × Json}
    (h : m ∈ sortMembers ms) : m ∈ ms := by
  rw [sortMembers_eq] at h
  exact SortedMap.mem_of_get?_ofList (SortedMap.mem_toList_iff.1 h)

/-- What is looked up in an object is what the map of its members has under the name. -/
theorem membersMeaning_eq (ms : List (String × Json)) (n : String) :
    membersMeaning ms n = ((SortedMap.ofList ms).get? n).map meaning := by
  rw [SortedMap.get?_ofList]
  induction ms with
  | nil => rfl
  | cons m ms ih =>
      rw [membersMeaning, ih]
      by_cases hn : m.1 = n
      · cases h : (ms.filter fun m => m.1 = n).getLast? <;> simp [hn, List.getLast?_cons, h]
      · simp [hn]

theorem membersMeaning_sortMembers (ms : List (String × Json)) :
    membersMeaning (sortMembers ms) = membersMeaning ms := by
  funext n
  rw [membersMeaning_eq, membersMeaning_eq, sortMembers_eq, SortedMap.ofList_toList]

/-! ### The canonical form keeps the meaning -/

mutual

theorem meaning_canonical : ∀ v : Json, meaning (canonical v) = meaning v
  | .null | .bool _ | .number _ | .string _ => rfl
  | .array vs => congrArg Meaning.array (itemsMeaning_canonicalItems vs)
  | .object ms => by
    rw [canonical, meaning, membersMeaning_sortMembers, membersMeaning_canonicalMembers, meaning]

theorem itemsMeaning_canonicalItems :
    ∀ vs : List Json, itemsMeaning (canonicalItems vs) = itemsMeaning vs
  | [] => rfl
  | v :: vs => by
    rw [canonicalItems, itemsMeaning, meaning_canonical v, itemsMeaning_canonicalItems vs,
      itemsMeaning]

theorem membersMeaning_canonicalMembers :
    ∀ ms : List (String × Json), membersMeaning (canonicalMembers ms) = membersMeaning ms
  | [] => rfl
  | (name, v) :: ms => by
    funext n
    rw [canonicalMembers, membersMeaning, meaning_canonical v, membersMeaning_canonicalMembers ms,
      membersMeaning]

end

/-! ### The meaning determines the canonical form -/

/-- Maps whose values have the same meaning have the same values in canonical form, if that holds of
every value. -/
theorem canonical_members_eq {ms ns : List (String × Json)}
    (h : membersMeaning ms = membersMeaning ns)
    (hvalues : ∀ m ∈ ms, ∀ w, meaning m.2 = meaning w → canonical m.2 = canonical w) :
    sortMembers (canonicalMembers ms) = sortMembers (canonicalMembers ns) := by
  rw [sortMembers_eq, sortMembers_eq, canonicalMembers_eq_map, canonicalMembers_eq_map,
    ← SortedMap.map_ofList, ← SortedMap.map_ofList]
  -- both sides are sorted maps now, so it is enough to look up every name
  refine congrArg SortedMap.toList (SortedMap.ext_get? fun n => ?_)
  have hn : membersMeaning ms n = membersMeaning ns n := congrFun h n
  rw [membersMeaning_eq, membersMeaning_eq] at hn
  rw [SortedMap.get?_map, SortedMap.get?_map]
  cases hms : (SortedMap.ofList ms).get? n with
  | none =>
      rw [hms] at hn
      rw [Option.map_eq_none_iff.1 hn.symm]
  | some v =>
      rw [hms] at hn
      obtain ⟨w, hw, hvw⟩ := Option.map_eq_some_iff.1 hn.symm
      rw [hw, Option.map_some, Option.map_some,
        hvalues (n, v) (SortedMap.mem_of_get?_ofList hms) w hvw.symm]

mutual

theorem canonical_eq_of_meaning : ∀ v w : Json, meaning v = meaning w → canonical v = canonical w
  | .null, w, h => by
    cases w with
    | null => rfl
    | _ => cases h
  | .bool b, w, h => by
    cases w with
    | bool c => rw [Meaning.bool.inj h]
    | _ => cases h
  | .number n, w, h => by
    cases w with
    | number m => rw [Meaning.number.inj h]
    | _ => cases h
  | .string s, w, h => by
    cases w with
    | string t => rw [Meaning.string.inj h]
    | _ => cases h
  | .array vs, w, h => by
    cases w with
    | array ws =>
        exact congrArg Json.array (canonicalItems_eq_of_meaning vs ws (Meaning.array.inj h))
    | _ => cases h
  | .object ms, w, h => by
    cases w with
    | object ns =>
        exact congrArg Json.object (canonical_members_eq (Meaning.object.inj h)
          (canonical_eq_of_meaning_of_mem ms))
    | _ => cases h

theorem canonicalItems_eq_of_meaning :
    ∀ vs ws : List Json, itemsMeaning vs = itemsMeaning ws → canonicalItems vs = canonicalItems ws
  | [], [], _ => rfl
  | [], _ :: _, h => by cases h
  | _ :: _, [], h => by cases h
  | v :: vs, w :: ws, h => by
    obtain ⟨hhead, htail⟩ := List.cons.inj h
    rw [canonicalItems, canonicalItems, canonical_eq_of_meaning v w hhead,
      canonicalItems_eq_of_meaning vs ws htail]

theorem canonical_eq_of_meaning_of_mem : ∀ ms : List (String × Json), ∀ m ∈ ms, ∀ w,
    meaning m.2 = meaning w → canonical m.2 = canonical w
  | (name, v) :: ms, m, hm, w, h => by
    rcases List.mem_cons.1 hm with rfl | hm
    · exact canonical_eq_of_meaning v w h
    · exact canonical_eq_of_meaning_of_mem ms m hm w h

end

theorem canonical_eq_iff {v w : Json} : v.canonical = w.canonical ↔ v.meaning = w.meaning := by
  refine ⟨fun h => ?_, canonical_eq_of_meaning v w⟩
  rw [← meaning_canonical v, h, meaning_canonical w]

/-! ### The text of the canonical form -/

theorem itemsIntegral_iff {vs : List Json} :
    itemsIntegral vs = true ↔ ∀ v ∈ vs, v.isIntegral = true := by
  induction vs with
  | nil => simp [itemsIntegral]
  | cons v vs ih => simp [itemsIntegral, ih]

theorem membersIntegral_iff {ms : List (String × Json)} :
    membersIntegral ms = true ↔ ∀ m ∈ ms, m.2.isIntegral = true := by
  induction ms with
  | nil => simp [membersIntegral]
  | cons m ms ih => simp [membersIntegral, ih]

mutual

theorem isIntegral_canonical : ∀ {v : Json}, v.isIntegral = true → v.canonical.isIntegral = true
  | .null, _ | .bool _, _ | .string _, _ => rfl
  | .number _, h => h
  | .array _, h => itemsIntegral_canonicalItems h
  | .object _, h =>
    membersIntegral_iff.2 fun m hm => membersIntegral_iff.1 (membersIntegral_canonicalMembers h) m
      (mem_of_mem_sortMembers hm)

theorem itemsIntegral_canonicalItems :
    ∀ {vs : List Json}, itemsIntegral vs = true → itemsIntegral (canonicalItems vs) = true
  | [], _ => rfl
  | _ :: _, h => by
    obtain ⟨hhead, htail⟩ := Bool.and_eq_true_iff.1 h
    rw [canonicalItems, itemsIntegral, isIntegral_canonical hhead,
      itemsIntegral_canonicalItems htail]
    rfl

theorem membersIntegral_canonicalMembers : ∀ {ms : List (String × Json)},
    membersIntegral ms = true → membersIntegral (canonicalMembers ms) = true
  | [], _ => rfl
  | _ :: _, h => by
    obtain ⟨hhead, htail⟩ := Bool.and_eq_true_iff.1 h
    rw [canonicalMembers, membersIntegral, isIntegral_canonical hhead,
      membersIntegral_canonicalMembers htail]
    rfl

end

/-- The bytes of which the digest of a value is taken. -/
def hashedBytes (v : Json) : List UInt8 := v.canonicalText.toUTF8.toList

theorem bytes_ofJson (v : Json) : (Digest.ofJson v).bytes = Sha256.hash v.hashedBytes := rfl

theorem hashedBytes_eq_of_meaning {v w : Json} (h : v.meaning = w.meaning) :
    v.hashedBytes = w.hashedBytes := by
  rw [hashedBytes, hashedBytes, canonicalText, canonicalText, canonical_eq_iff.2 h]

theorem hashedBytes_eq_iff {v w : Json} (hv : v.isIntegral = true) (hw : w.isIntegral = true) :
    v.hashedBytes = w.hashedBytes ↔ v.meaning = w.meaning := by
  refine ⟨fun h => ?_, hashedBytes_eq_of_meaning⟩
  have hrender : v.canonical.render = w.canonical.render := eq_of_toUTF8_toList h
  -- the canonical forms are read back from their texts, which are the same
  have hparse := parse_render (isIntegral_canonical hv)
  rw [hrender, parse_render (isIntegral_canonical hw)] at hparse
  exact canonical_eq_iff.1 (Option.some.inj hparse).symm

/-! ### Other orders of members -/

/-- The members of one object, at any depth, are put in another order. -/
inductive Reordered : Json → Json → Prop where
  | here {ms ns : List (String × Json)} (hnodup : (ms.map Prod.fst).Nodup) (hperm : ms.Perm ns) :
      Reordered (.object ms) (.object ns)
  | item {v w : Json} (before after : List Json) (h : Reordered v w) :
      Reordered (.array (before ++ v :: after)) (.array (before ++ w :: after))
  | member {v w : Json} (before after : List (String × Json)) (name : String)
      (h : Reordered v w) :
      Reordered (.object (before ++ (name, v) :: after)) (.object (before ++ (name, w) :: after))

theorem membersMeaning_of_perm {ms ns : List (String × Json)} (hnodup : (ms.map Prod.fst).Nodup)
    (hperm : ms.Perm ns) : membersMeaning ms = membersMeaning ns := by
  funext n
  induction hperm with
  | nil => rfl
  | cons m _ ih => rw [membersMeaning, ih (List.nodup_cons.1 hnodup).2, membersMeaning]
  | swap m k ms =>
      have hne : k.1 ≠ m.1 := by
        intro h
        simp [h] at hnodup
      simp only [membersMeaning, Option.or_assoc]
      -- at most one of the two has the name
      by_cases hm : m.1 = n
      · have hk : k.1 ≠ n := fun hk => hne (hk.trans hm.symm)
        simp [hm, hk]
      · simp [hm]
  | trans h _ ih ih' => rw [ih hnodup, ih' ((h.map Prod.fst).nodup_iff.1 hnodup)]

theorem meaning_eq_of_reordered {v w : Json} (h : Reordered v w) : v.meaning = w.meaning := by
  induction h with
  | here hnodup hperm =>
      rw [meaning, meaning, membersMeaning_of_perm hnodup hperm]
  | item before after _ ih =>
      simp only [meaning, itemsMeaning_eq_map, List.map_append, List.map_cons, ih]
  | member before after name _ ih =>
      rw [meaning, meaning]
      congr 1
      funext n
      simp only [membersMeaning_append, membersMeaning, ih]

end Curia.Json
