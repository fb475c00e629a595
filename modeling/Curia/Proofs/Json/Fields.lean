import Curia.Json.Reader
import Curia.Proofs.Json.Names
import Curia.Proofs.Json.Rearranged

/-!
Records are read back from what is written of them, whatever the order in which their fields stand.
The fields of a record are read one by one, each by a reader of its own; a field that is not there
leaves its default.
-/

namespace Curia

/-! ### Going through a list up to the first error -/

theorem mapM_eq_ok_iff {f : α → Except ε β} {as : List α} {bs : List β} :
    as.mapM f = .ok bs ↔ List.Forall₂ (fun a b => f a = .ok b) as bs := by
  induction as generalizing bs with
  | nil => cases bs <;> simp [pure, Except.pure]
  | cons a as ih =>
      rw [List.mapM_cons]
      cases ha : f a with
      | error err => cases bs <;> simp [ha, bind, Except.bind]
      | ok b =>
          cases has : as.mapM f with
          | error err => cases bs <;> simp [ha, has, ← ih, bind, Except.bind]
          | ok rest => cases bs <;> simp [ha, has, ← ih, bind, Except.bind, pure, Except.pure]

theorem Decoded.ok_bind (a : α) (f : α → Decoded β) : (Except.ok a >>= f) = f a := rfl

/-! ### Values -/

namespace Json

theorem asNat_nat {n bound : Nat} (h : n < bound) : asNat bound (.nat n) = .ok n := by
  have hrange : (0 : Int) ≤ n ∧ (n : Int) < bound := ⟨Int.natCast_nonneg _, Int.ofNat_lt.2 h⟩
  rw [nat, asNat, if_pos hrange, Int.toNat_natCast]

/-- What is read of a value, whatever the order of its members. -/
def Reads (read : Json → Decoded α) (v : Json) (a : α) : Prop :=
  ∀ w, v.Rearranged w → read w = .ok a

theorem reads_of_isScalar {read : Json → Decoded α} {v : Json} {a : α} (hv : v.isScalar = true)
    (h : read v = .ok a) : Reads read v a :=
  fun _ hw => hw.eq_of_isScalar hv ▸ h

theorem reads_string (s : String) : Reads asString (.string s) s := reads_of_isScalar rfl rfl

theorem reads_bool (b : Bool) : Reads asBool (.bool b) b := reads_of_isScalar rfl rfl

theorem reads_nat {n bound : Nat} (h : n < bound) : Reads (asNat bound) (.nat n) n :=
  reads_of_isScalar rfl (asNat_nat h)

theorem reads_name [Named α] [Named.Distinct α] (a : α) : Reads Named.ofJson (Named.toJson a) a :=
  reads_of_isScalar rfl (Named.ofJson_toJson a)

/-- What is never null can be told from nothing. -/
theorem reads_ofOption {write : α → Json} {read : Json → Decoded α}
    (hread : ∀ a, Reads read (write a) a) (hnull : ∀ a, (write a).meaning ≠ .null)
    (o : Option α) : Reads (asOption read) (ofOption write o) o := by
  intro w hw
  cases o with
  | none =>
      rw [hw.eq_of_isScalar rfl]
      rfl
  | some a =>
      have hsome : asOption read w = some <$> read w := by
        cases w with
        | null => exact absurd hw.meaning.symm (hnull a)
        | _ => rfl
      rw [hsome, hread a w hw]
      rfl

theorem reads_ofOption_string (o : Option String) :
    Reads (asOption asString) (ofOption .string o) o :=
  reads_ofOption reads_string (fun _ => nofun) o

theorem reads_ofOption_name [Named α] [Named.Distinct α] (o : Option α) :
    Reads (asOption Named.ofJson) (ofOption Named.toJson o) o :=
  reads_ofOption reads_name (fun _ => nofun) o

theorem reads_array {write : α → Json} {read : Json → Decoded α}
    (hread : ∀ a, Reads read (write a) a) (as : List α) :
    Reads (asList read) (.array (as.map write)) as := by
  intro w hw
  obtain ⟨ws, rfl, hws⟩ := hw.of_array
  have hitems : List.Forall₂ (fun u a => read u = .ok a) ws as :=
    ((List.forall₂_map_left_iff.1 hws).imp fun a u h => hread a u h).flip
  exact mapM_eq_ok_iff.2 hitems

end Json

/-! ### Records -/

namespace Record

theorem hasRepeats_eq_false {ms : List (String × Json)} (h : (ms.map Prod.fst).Nodup) :
    hasRepeats ms = false := by
  induction ms with
  | nil => rfl
  | cons m ms ih =>
      obtain ⟨hfresh, hms⟩ := List.nodup_cons.1 h
      rw [hasRepeats, ih hms, Bool.or_false, List.any_eq_false]
      intro k hk hname
      exact hfresh (List.mem_map.2 ⟨k, hk, of_decide_eq_true hname⟩)

/-- Under the given names the record has what is found under them. -/
structure Holds (r : Record) (names : List String) (found : String → Option Json) : Prop where
  positional : r.positional = false
  lookup : ∀ name ∈ names, Option.Rel Json.Rearranged (found name) (r.fields.lookup name)

theorem exists_read {ms : List (String × Json)} (hms : (ms.map Prod.fst).Nodup) {w : Json}
    (h : (Json.object ms).Rearranged w) (names : List String) :
    ∃ r, read names w = .ok r ∧ r.Holds names fun name => ms.lookup name := by
  obtain ⟨ns, rfl, hns, hlookup⟩ := h.of_object hms
  let known := ns.filter fun m => names.contains m.1
  have hknown : (known.map Prod.fst).Nodup := hns.sublist (List.filter_sublist.map _)
  refine ⟨⟨known, false⟩, ?_, rfl, fun name hname => ?_⟩
  · rw [read, hasRepeats_eq_false hknown]
    rfl
  · have hsame : known.lookup name = ns.lookup name := by
      refine Option.ext fun v => ?_
      rw [Json.lookup_eq_some_iff_mem hknown, Json.lookup_eq_some_iff_mem hns, List.mem_filter]
      simp [hname]
    rw [hsame]
    exact hlookup name

theorem exists_read_record {ms : List (String × Json)} {w : Json}
    (h : (Json.record ms).Rearranged w) (names : List String) :
    ∃ r, read names w = .ok r ∧ r.Holds names fun name => ms.reverse.lookup name := by
  simpa only [Json.lookup_sortMembers] using exists_read (Json.nodup_sortMembers ms) h names

variable {r : Record} {names : List String} {found : String → Option Json}

theorem Holds.exists_lookup (h : r.Holds names found) {name : String} (hname : name ∈ names)
    {v : Json} (hv : found name = some v) :
    ∃ w, r.fields.lookup name = some w ∧ v.Rearranged w := by
  have hrel := h.lookup name hname
  rw [hv] at hrel
  cases hw : r.fields.lookup name with
  | none =>
      rw [hw] at hrel
      cases hrel
  | some w =>
      rw [hw] at hrel
      cases hrel with
      | some hvw => exact ⟨w, rfl, hvw⟩

theorem Holds.lookup_eq_none (h : r.Holds names found) {name : String} (hname : name ∈ names)
    (hv : found name = none) : r.fields.lookup name = none := by
  have hrel := h.lookup name hname
  rw [hv] at hrel
  cases hw : r.fields.lookup name with
  | none => rfl
  | some w =>
      rw [hw] at hrel
      cases hrel

theorem Holds.required (h : r.Holds names found) {name : String} (hname : name ∈ names) {v : Json}
    (hv : found name = some v) {read : Json → Decoded α} {a : α} (hread : Json.Reads read v a) :
    r.required name read = .ok a := by
  obtain ⟨w, hw, hvw⟩ := h.exists_lookup hname hv
  simp only [Record.required, hw, hread w hvw]

theorem Holds.withDefault (h : r.Holds names found) {name : String} (hname : name ∈ names)
    {v : Json} (hv : found name = some v) (default : α) {read : Json → Decoded α} {a : α}
    (hread : Json.Reads read v a) : r.withDefault name default read = .ok a := by
  obtain ⟨w, hw, hvw⟩ := h.exists_lookup hname hv
  simp only [Record.withDefault, hw, hread w hvw]

theorem Holds.withDefault_of_none (h : r.Holds names found) {name : String}
    (hname : name ∈ names) (hv : found name = none) (default : α) (read : Json → Decoded α) :
    r.withDefault name default read = .ok default := by
  simp only [Record.withDefault, h.lookup_eq_none hname hv]

theorem Holds.optional (h : r.Holds names found) {name : String} (hname : name ∈ names) {v : Json}
    (hv : found name = some v) {read : Json → Decoded α} {o : Option α}
    (hread : Json.Reads (Json.asOption read) v o) : r.optional name read = .ok o := by
  obtain ⟨w, hw, hvw⟩ := h.exists_lookup hname hv
  simp only [Record.optional, hw, hread w hvw]

theorem Holds.optional_of_none (h : r.Holds names found) {name : String} (hname : name ∈ names)
    (hv : found name = none) (read : Json → Decoded α) : r.optional name read = .ok none := by
  simp [Record.optional, h.lookup_eq_none hname hv, h.positional]

/-- A field that may have been left out. -/
theorem Holds.withDefault_ite (h : r.Holds names found) {name : String} (hname : name ∈ names)
    {p : Prop} [Decidable p] {v : Json} (hv : found name = if p then none else some v)
    (default : α) {read : Json → Decoded α} {a : α} (hread : ¬p → Json.Reads read v a) :
    r.withDefault name default read = .ok (if p then default else a) := by
  by_cases hp : p
  · rw [if_pos hp] at hv ⊢
    exact h.withDefault_of_none hname hv default read
  · rw [if_neg hp] at hv ⊢
    exact h.withDefault hname hv default (hread hp)

end Record

/-! ### Texts -/

namespace Json

/-- Reads what the text says. -/
def decode (read : Json → Decoded α) (text : String) : Decoded α :=
  match parse text with
  | none => .error .malformed
  | some v => read v

theorem Plain.decode_render {v : Json} (hv : v.Plain) (read : Json → Decoded α) :
    decode read v.render = read v := by
  rw [decode, parse_render hv.integral]

/-- What has been written is read back from its text, and from every text in which the members of
objects stand in another order. -/
structure ReadBack (write : α → Json) (read : Json → Decoded α) (a : α) : Prop where
  text : decode read (write a).render = .ok a
  rearranged : ∀ w, (write a).Rearranged w → decode read w.render = .ok a

theorem readBack_of_reads {write : α → Json} {read : Json → Decoded α} {a : α}
    (hplain : (write a).Plain) (hread : Reads read (write a) a) : ReadBack write read a where
  text := by rw [hplain.decode_render, hread _ (.refl hplain.names)]
  rearranged w hw := by rw [(hplain.of_rearranged hw).decode_render, hread w hw]

end Json

end Curia
