import Mathlib.Data.List.Perm.Basic
import Curia.Council.Session
import Curia.Filter.Verdict
import Curia.Proofs.Filter.Fingerprints
import Curia.Proofs.Filter.Listing
import Curia.Proofs.Hexadecimal
import Curia.Proofs.Identifiers
import Curia.Proofs.Json.Fields
import Curia.Proofs.Time.Text

/-!
Votes, digests, versions, rules, changes, routing tables and petitions are read back from the texts
that are stored of them. So a library is made again from the rules that were written out.
-/

namespace Curia

open Json (ReadBack Reads)

theorem Json.reads_digest (d : Digest) : Reads asDigest (.string d.toHex) d :=
  reads_of_isScalar rfl (Digest.asDigest_toHex d)

namespace Vote

theorem plain_toJson (v : Vote) : v.toJson.Plain := by
  refine Json.plain_record ?_
  simp

theorem reads (v : Vote) : Reads ofJson v.toJson v := by
  intro w h
  obtain ⟨r, hr, hfields⟩ := Record.exists_read_record h ["outcome", "rationale"]
  have houtcome : r.required "outcome" Named.ofJson = .ok v.outcome :=
    hfields.required (by decide) rfl (Json.reads_name _)
  have hrationale : r.required "rationale" Json.asString = .ok v.rationale :=
    hfields.required (by decide) rfl (Json.reads_string _)
  simp only [ofJson, hr, houtcome, hrationale, Decoded.ok_bind]
  rfl

end Vote

namespace LibraryVersion

theorem plain_toJson {v : LibraryVersion} (h : v.ruleCount < UInt64.size) : v.toJson.Plain := by
  refine Json.plain_record ?_
  simp [Json.plain_nat h]

theorem reads {v : LibraryVersion} (h : v.ruleCount < UInt64.size) :
    Reads ofJson v.toJson v := by
  intro w hw
  obtain ⟨r, hr, hfields⟩ := Record.exists_read_record hw ["semver", "integrity_hash", "rule_count"]
  have hsemver : r.required "semver" Json.asString = .ok v.semver :=
    hfields.required (by decide) rfl (Json.reads_string _)
  have hintegrity : r.required "integrity_hash" Json.asDigest = .ok v.integrity :=
    hfields.required (by decide) rfl (Json.reads_digest _)
  have hcount : r.required "rule_count" (Json.asNat UInt64.size) = .ok v.ruleCount :=
    hfields.required (by decide) rfl (Json.reads_nat h)
  simp only [ofJson, hr, hsemver, hintegrity, hcount, Decoded.ok_bind]
  rfl

end LibraryVersion

namespace Rule

theorem reads (rule : Rule) : Reads ofJson rule.toJson rule := by
  intro w h
  obtain ⟨r, hr, hfields⟩ := Record.exists_read_record h fieldNames
  have hid : r.required "id" Json.asString = .ok rule.id :=
    hfields.required (by decide) rfl (Json.reads_string _)
  have hcategory : r.required "category" Named.ofJson = .ok rule.category :=
    hfields.required (by decide) rfl (Json.reads_name _)
  have hseverity : r.required "severity" Named.ofJson = .ok rule.severity :=
    hfields.required (by decide) rfl (Json.reads_name _)
  have hpattern : r.required "pattern" Json.asString = .ok rule.pattern :=
    hfields.required (by decide) rfl (Json.reads_string _)
  have hdescription : r.required "description" Json.asString = .ok rule.description :=
    hfields.required (by decide) rfl (Json.reads_string _)
  have hreplacement : r.withDefault "replacement" none (Json.asOption Json.asString) =
      .ok rule.replacement :=
    hfields.withDefault (by decide) rfl none (Json.reads_ofOption_string _)
  have hreason : r.withDefault "rejection_reason" none (Json.asOption Named.ofJson) =
      .ok rule.reason :=
    hfields.withDefault (by decide) rfl none (Json.reads_ofOption_name _)
  have hviolation : r.withDefault "violation_type" none (Json.asOption Named.ofJson) =
      .ok rule.violation :=
    hfields.withDefault (by decide) rfl none (Json.reads_ofOption_name _)
  have hcase : r.withDefault "case_sensitive" false Json.asBool = .ok rule.caseSensitive :=
    hfields.withDefault (by decide) rfl false (Json.reads_bool _)
  simp only [ofJson, hr, hid, hcategory, hseverity, hpattern, hdescription, hreplacement, hreason,
    hviolation, hcase, Decoded.ok_bind]
  rfl

end Rule

namespace Change

theorem plain_toJson {c : Change} (h : c.position < UInt64.size) : c.toJson.Plain := by
  refine Json.plain_record ?_
  simp [Json.plain_nat h]

theorem reads {c : Change} (h : c.position < UInt64.size) : Reads ofJson c.toJson c := by
  intro w hw
  obtain ⟨r, hr, hfields⟩ := Record.exists_read_record hw
    ["rule_id", "matched_pattern", "original_text", "replacement_text", "position"]
  have hrule : r.required "rule_id" Json.asString = .ok c.rule :=
    hfields.required (by decide) rfl (Json.reads_string _)
  have hpattern : r.required "matched_pattern" Json.asString = .ok c.pattern :=
    hfields.required (by decide) rfl (Json.reads_string _)
  have hfound : r.required "original_text" Json.asString = .ok c.found :=
    hfields.required (by decide) rfl (Json.reads_string _)
  have hreplacement : r.required "replacement_text" Json.asString = .ok c.replacement :=
    hfields.required (by decide) rfl (Json.reads_string _)
  have hposition : r.required "position" (Json.asNat UInt64.size) = .ok c.position :=
    hfields.required (by decide) rfl (Json.reads_nat h)
  simp only [ofJson, hr, hrule, hpattern, hfound, hreplacement, hposition, Decoded.ok_bind]
  rfl

end Change

namespace RoutingTable

/-- The member that is written of an entry. -/
def member (e : Outcome × Pipeline) : String × Json := (e.1.name, Named.toJson e.2)

theorem nodup_members (t : RoutingTable) : ((t.toList.map member).map Prod.fst).Nodup := by
  have hnames : (t.toList.map member).map Prod.fst = t.keys.map Outcome.name := by
    simp [SortedMap.keys, member, Function.comp_def]
  rw [hnames]
  exact t.nodup_keys.map fun o o' (h : Named.name o = Named.name o') => Named.name_injective h

theorem plain_toJson (t : RoutingTable) : t.toJson.Plain := by
  refine Json.plain_record fun m hm => ?_
  obtain ⟨e, -, rfl⟩ := List.mem_map.1 hm
  exact Json.plain_name e.2

/-- Each member is read for itself, and the entries make up the table in any order. -/
theorem reads (t : RoutingTable) : Reads ofJson t.toJson t := by
  intro w h
  have hscalar : ∀ m ∈ Json.sortMembers (t.toList.map member), m.2.isScalar = true := by
    intro m hm
    obtain ⟨e, -, rfl⟩ := List.mem_map.1 (Json.mem_of_mem_sortMembers hm)
    rfl
  obtain ⟨ns, rfl, hns⟩ := Json.Rearranged.perm_of_isScalar (Json.nodup_sortMembers _) hscalar h
  have hwritten : List.Forall₂ (fun m e => m = member e) (t.toList.map member) t.toList :=
    List.forall₂_map_left_iff.2 (List.forall₂_same.2 fun _ _ => rfl)
  obtain ⟨es, hes, hperm⟩ :=
    List.perm_comp_forall₂ (hns.trans (Json.sortMembers_perm t.nodup_members)) hwritten
  have hread : ns.mapM (fun m => do return (← Named.ofKey m.1, ← Named.ofJson m.2)) = .ok es := by
    refine mapM_eq_ok_iff.2 (hes.imp ?_)
    rintro m e rfl
    have hkey : Named.ofKey (α := Outcome) (member e).1 = .ok e.1 := Named.ofKey_name e.1
    have hvalue : Named.ofJson (member e).2 = .ok e.2 := Named.ofJson_toJson e.2
    rw [hkey, hvalue]
    rfl
  have htable : SortedMap.ofList es = t := SortedMap.ofList_eq_of_mem_iff fun e => hperm.mem_iff
  simp only [ofJson, Json.asObject, Decoded.ok_bind, hread, htable]
  rfl

end RoutingTable

namespace Petition

theorem plain_toJson (p : Petition) : p.toJson.Plain := by
  refine Json.plain_record ?_
  simp [PetitionId.toJson, Uuid.toJson, Instant.toJson]

theorem reads (p : Petition) : Reads ofJson p.toJson p := by
  intro w h
  obtain ⟨r, hr, hfields⟩ :=
    Record.exists_read_record h ["petition_id", "state", "priority", "submitted_at"]
  have hid : r.required "petition_id" PetitionId.ofJson = .ok p.id :=
    hfields.required (by decide) rfl (Json.reads_of_isScalar rfl (PetitionId.ofJson_toJson _))
  have hstate : r.required "state" Named.ofJson = .ok p.state :=
    hfields.required (by decide) rfl (Json.reads_name _)
  have hpriority : r.required "priority" Named.ofJson = .ok p.priority :=
    hfields.required (by decide) rfl (Json.reads_name _)
  have htime : r.required "submitted_at" Instant.ofJson = .ok p.submittedAt :=
    hfields.required (by decide) rfl (Json.reads_of_isScalar rfl (Instant.ofJson_toJson _))
  simp only [ofJson, hr, hid, hstate, hpriority, htime, Decoded.ok_bind]
  rfl

end Petition

/-! ### Rules written out and read again -/

namespace Library

variable {rules : List Rule}

/-- The fields of rules may stand in the order in which they are declared. -/
theorem rearranged_members (rules : List Rule) :
    (rulesJson rules).Rearranged (.array (rules.map fun r => .object r.members)) := by
  refine Json.rearranged_array (List.forall₂_map_left_iff.2 (List.forall₂_map_right_iff.2 ?_))
  refine List.forall₂_same.2 fun r _ => Json.rearranged_record ?_ r.plain_members
  simp

theorem readBack_rules (rules : List Rule) : ReadBack rulesJson (Json.asList Rule.ofJson) rules :=
  Json.readBack_of_reads (plain_rulesJson rules) (Json.reads_array Rule.reads rules)

/-- The rules in the order in which they are tried are those of which the library was made. -/
theorem rules_perm {props : Regex.Properties} {semver : String} {l : Library}
    (h : ofRules props semver rules = .ok l) :
    (l.matchers.map Matcher.rule).Perm rules := by
  obtain ⟨sorted, hperm, -, hmatchers⟩ := (holds_of_ofRules h).sorted
  rw [hmatchers, List.map_map]
  exact (List.map_id sorted).symm ▸ hperm

theorem ofRules_eq_of_perm {props : Regex.Properties} {semver : String} {l : Library}
    (h : ofRules props semver rules = .ok l) {listed : List Rule} (hlisted : listed.Perm rules) :
    ofRules props semver listed = .ok l := by
  obtain ⟨hsemver, hnodup⟩ := exists_ofRules_iff.1 ⟨l, h⟩
  rw [ofRules_of_nodup hsemver hnodup] at h
  rw [ofRules_of_nodup hsemver ((hlisted.map Rule.id).nodup_iff.2 hnodup),
    ← sortRules_eq_of_perm hlisted.symm hnodup, h]

end Library

end Curia
