import Curia.Filter.Library
import Curia.Proofs.Json.Names
import Curia.Proofs.Json.Rearranged

/-!
The bytes of which a list of rules is known by. They tell it from every other list, be it in the
rules, in any field of one, or in their order.
-/

namespace Curia

/-! ### Fields -/

namespace Json

/-- What is written tells members from each other, and is never null. -/
structure Telling (write : α → Json) : Prop where
  injective : ∀ a b, (write a).meaning = (write b).meaning → a = b
  ne_null : ∀ a, (write a).meaning ≠ .null

theorem telling_string : Telling Json.string where
  injective _ _ h := Meaning.string.inj h
  ne_null _ := nofun

theorem telling_name [Named α] [Named.Distinct α] : Telling (Named.toJson (α := α)) where
  injective _ _ h := Named.name_injective (Meaning.string.inj h)
  ne_null _ := nofun

theorem Telling.eq_of_option {write : α → Json} (hwrite : Telling write) {o o' : Option α}
    (h : (ofOption write o).meaning = (ofOption write o').meaning) : o = o' := by
  cases o with
  | none =>
      cases o' with
      | none => rfl
      | some b => exact absurd h.symm (hwrite.ne_null b)
  | some a =>
      cases o' with
      | none => exact absurd h (hwrite.ne_null a)
      | some b => rw [hwrite.injective a b h]

end Json

namespace Rule

open Json (membersMeaning)

/-- The fields of a rule. -/
def members (r : Rule) : List (String × Json) :=
  [("id", .string r.id),
   ("category", Named.toJson r.category),
   ("severity", Named.toJson r.severity),
   ("pattern", .string r.pattern),
   ("description", .string r.description),
   ("replacement", .ofOption .string r.replacement),
   ("rejection_reason", .ofOption Named.toJson r.reason),
   ("violation_type", .ofOption Named.toJson r.violation),
   ("case_sensitive", .bool r.caseSensitive)]

theorem meaning_toJson (r : Rule) : r.toJson.meaning = .object (membersMeaning r.members) := by
  rw [← Json.membersMeaning_sortMembers]
  rfl

theorem eq_of_meaning_toJson {r r' : Rule} (h : r.toJson.meaning = r'.toJson.meaning) :
    r = r' := by
  rw [meaning_toJson, meaning_toJson] at h
  have hfield (name : String) : membersMeaning r.members name = membersMeaning r'.members name :=
    congrFun (Json.Meaning.object.inj h) name
  have hid : r.id = r'.id := Json.telling_string.injective _ _ <| by
    simpa [members, membersMeaning] using hfield "id"
  have hcategory : r.category = r'.category := Json.telling_name.injective _ _ <| by
    simpa [members, membersMeaning] using hfield "category"
  have hseverity : r.severity = r'.severity := Json.telling_name.injective _ _ <| by
    simpa [members, membersMeaning] using hfield "severity"
  have hpattern : r.pattern = r'.pattern := Json.telling_string.injective _ _ <| by
    simpa [members, membersMeaning] using hfield "pattern"
  have hdescription : r.description = r'.description := Json.telling_string.injective _ _ <| by
    simpa [members, membersMeaning] using hfield "description"
  have hreplacement : r.replacement = r'.replacement := Json.telling_string.eq_of_option <| by
    simpa [members, membersMeaning] using hfield "replacement"
  have hreason : r.reason = r'.reason := Json.telling_name.eq_of_option <| by
    simpa [members, membersMeaning] using hfield "rejection_reason"
  have hviolation : r.violation = r'.violation := Json.telling_name.eq_of_option <| by
    simpa [members, membersMeaning] using hfield "violation_type"
  have hcase : r.caseSensitive = r'.caseSensitive := by
    simpa [members, membersMeaning, Json.meaning] using hfield "case_sensitive"
  cases r
  cases r'
  simp only [mk.injEq]
  exact ⟨hid, hcategory, hseverity, hpattern, hdescription, hreplacement, hreason, hviolation,
    hcase⟩

theorem plain_members (r : Rule) : ∀ m ∈ r.members, m.2.Plain := by
  have hstring (o : Option String) : (Json.ofOption .string o).Plain :=
    Json.plain_ofOption Json.plain_string o
  have hname {α : Type} [Named α] (o : Option α) : (Json.ofOption Named.toJson o).Plain :=
    Json.plain_ofOption Json.plain_name o
  simp [members, hstring, hname]

theorem plain_toJson (r : Rule) : r.toJson.Plain := Json.plain_record r.plain_members

end Rule

namespace Library

/-- The rules in their order, as their digest is taken of them. -/
def rulesJson (rules : List Rule) : Json := .array (rules.map Rule.toJson)

theorem bytes_integrity (rules : List Rule) :
    (integrity rules).bytes = Sha256.hash (rulesJson rules).hashedBytes := rfl

theorem plain_rulesJson (rules : List Rule) : (rulesJson rules).Plain := by
  refine Json.plain_array fun v hv => ?_
  obtain ⟨r, -, rfl⟩ := List.mem_map.1 hv
  exact r.plain_toJson

theorem isIntegral_rulesJson (rules : List Rule) : (rulesJson rules).isIntegral = true :=
  (plain_rulesJson rules).integral

theorem eq_of_meaning_rulesJson {rules rules' : List Rule}
    (h : (rulesJson rules).meaning = (rulesJson rules').meaning) : rules = rules' := by
  have hitems := Json.Meaning.array.inj h
  rw [Json.itemsMeaning_eq_map, Json.itemsMeaning_eq_map, List.map_map, List.map_map] at hitems
  exact List.map_injective_iff.2 (fun _ _ => Rule.eq_of_meaning_toJson) hitems

end Library

/-- The digest of a JSON value is taken of bytes that it shares with the values of the same meaning
and, among values without fractions, with no others. So the members of objects may stand in any
order at any depth, and nothing else may differ. For lists of rules this means that they are the
same, rule for rule and field for field. -/
theorem hashed_up_to_order :
    (∀ v : Json, (Digest.ofJson v).bytes = Sha256.hash v.hashedBytes) ∧
    (∀ v w : Json, v.isIntegral = true → w.isIntegral = true →
      (v.hashedBytes = w.hashedBytes ↔ v.meaning = w.meaning)) ∧
    (∀ v w : Json, v.Reordered w → v.hashedBytes = w.hashedBytes) ∧
    (∀ rules : List Rule, (Library.integrity rules).bytes =
      Sha256.hash (Library.rulesJson rules).hashedBytes) ∧
    ∀ rules rules' : List Rule,
      (Library.rulesJson rules).hashedBytes = (Library.rulesJson rules').hashedBytes ↔
        rules = rules' := by
  refine ⟨Json.bytes_ofJson, fun v w hv hw => Json.hashedBytes_eq_iff hv hw,
    fun v w h => Json.hashedBytes_eq_of_meaning (Json.meaning_eq_of_reordered h),
    Library.bytes_integrity, fun rules rules' => ⟨fun h => ?_, fun h => h ▸ rfl⟩⟩
  exact Library.eq_of_meaning_rulesJson ((Json.hashedBytes_eq_iff (Library.isIntegral_rulesJson _)
    (Library.isIntegral_rulesJson _)).1 h)

/-- Two objects, one in the other, are written in two orders; items, numbers and texts are not
exchanged for each other. -/
theorem hashed_up_to_order_of_nested :
    let inner : Json := .object [("d", .null), ("c", .string "\n")]
    let inner' : Json := .object [("c", .string "\n"), ("d", .null)]
    let v : Json := .array [.object [("b", .nat 1), ("a", inner)], .string ""]
    let w : Json := .array [.object [("a", inner'), ("b", .nat 1)], .string ""]
    v.hashedBytes = w.hashedBytes ∧
      (Json.array [.nat 1, .null]).hashedBytes ≠ (Json.array [.null, .nat 1]).hashedBytes ∧
      (Json.nat 1).hashedBytes ≠ (Json.string "1").hashedBytes ∧
      Json.null.hashedBytes ≠ (Json.string "").hashedBytes := by
  intro inner inner' v w
  obtain ⟨-, hiff, hreordered, -, -⟩ := hashed_up_to_order
  have hinner : inner.Reordered inner' := .here (by decide) (.swap _ _ _)
  let u : Json := .array [.object [("b", .nat 1), ("a", inner')], .string ""]
  have hvu : v.Reordered u := .item [] [.string ""] (.member [("b", .nat 1)] [] "a" hinner)
  have huw : u.Reordered w := .item [] [.string ""] (.here (by decide) (.swap _ _ _))
  refine ⟨(hreordered v u hvu).trans (hreordered u w huw), fun h => ?_, fun h => ?_, fun h => ?_⟩
  · have hmeaning := (hiff _ _ (by decide) (by decide)).1 h
    simp [Json.meaning, Json.itemsMeaning, Json.nat] at hmeaning
  · cases (hiff _ _ (by decide) (by decide)).1 h
  · cases (hiff _ _ (by decide) (by decide)).1 h

end Curia
