import Mathlib.Tactic.Ring
import Curia.Ledger.Archive
import Curia.Proofs.Json.Bytes
import Curia.Proofs.Json.Fields
import Curia.Proofs.Ledger.Reports
import Curia.Proofs.Time.Text

/-!
Sequence numbers and events are read back from the bytes that are stored of them. The bytes of
numbers are in the order of the numbers.
-/

namespace Curia

/-! ### Sequence numbers -/

namespace Archive

/-- The number that bytes stand for, the most significant first. -/
def number (bytes : List UInt8) : Nat := bytes.foldl (fun n b => 256 * n + b.toNat) 0

theorem foldl_number (n : Nat) (bytes : List UInt8) :
    bytes.foldl (fun n b => 256 * n + b.toNat) n = n * 256 ^ bytes.length + number bytes := by
  induction bytes generalizing n with
  | nil => simp [number]
  | cons b bytes ih =>
      rw [number, List.foldl_cons, List.foldl_cons, ih, ih (256 * 0 + b.toNat), List.length_cons]
      ring

theorem number_cons (b : UInt8) (bytes : List UInt8) :
    number (b :: bytes) = b.toNat * 256 ^ bytes.length + number bytes := by
  rw [number, List.foldl_cons, foldl_number, Nat.mul_zero, Nat.zero_add]

theorem number_lt (bytes : List UInt8) : number bytes < 256 ^ bytes.length := by
  induction bytes with
  | nil => decide
  | cons b bytes ih =>
      have hb : b.toNat + 1 ≤ 256 := b.toNat_lt
      calc
        number (b :: bytes) < (b.toNat + 1) * 256 ^ bytes.length := by
          rw [number_cons, Nat.add_mul, Nat.one_mul]
          omega
        _ ≤ 256 * 256 ^ bytes.length := Nat.mul_le_mul_right _ hb
        _ = 256 ^ (b :: bytes).length := by rw [List.length_cons, Nat.pow_succ, Nat.mul_comm]

/-- A greater first byte outweighs all that follow. -/
theorem number_cons_lt {b b' : UInt8} {bytes bytes' : List UInt8}
    (hlength : bytes.length = bytes'.length) (h : b.toNat < b'.toNat) :
    number (b :: bytes) < number (b' :: bytes') := by
  calc
    number (b :: bytes) < (b.toNat + 1) * 256 ^ bytes.length := by
      rw [number_cons, Nat.add_mul, Nat.one_mul]
      exact Nat.add_lt_add_left (number_lt bytes) _
    _ ≤ b'.toNat * 256 ^ bytes'.length := hlength ▸ Nat.mul_le_mul_right _ h
    _ ≤ number (b' :: bytes') := by
      rw [number_cons]
      exact Nat.le_add_right _ _

/-- Rows of equally many bytes are in the order of the numbers that they stand for. -/
theorem compare_number {bytes bytes' : List UInt8} (hlength : bytes.length = bytes'.length) :
    compare (number bytes) (number bytes') = compare bytes bytes' := by
  induction bytes generalizing bytes' with
  | nil =>
      cases bytes' with
      | nil => rfl
      | cons b' bytes' => cases hlength
  | cons b bytes ih =>
      cases bytes' with
      | nil => cases hlength
      | cons b' bytes' =>
          have hrest : bytes.length = bytes'.length := Nat.succ.inj hlength
          rw [List.compare_eq_compareLex, List.compareLex_cons_cons, ← List.compare_eq_compareLex,
            UInt8.compare_eq_toNat_compare_toNat]
          rcases Nat.lt_trichotomy b.toNat b'.toNat with hlt | heq | hgt
          · rw [Nat.compare_eq_lt.2 hlt, Nat.compare_eq_lt.2 (number_cons_lt hrest hlt)]
            rfl
          · rw [Nat.compare_eq_eq.2 heq, Ordering.eq_then, ← ih hrest, number_cons, number_cons,
              heq, hrest]
            simp only [Nat.compare_eq_ite_lt, Nat.add_lt_add_iff_left]
          · rw [Nat.compare_eq_gt.2 hgt, Nat.compare_eq_gt.2 (number_cons_lt hrest.symm hgt)]
            rfl

@[simp] theorem length_encodeSequence (n : Nat) : (encodeSequence n).length = 8 := by
  simp [encodeSequence]

theorem number_encodeSequence {n : Nat} (h : n < 2 ^ 64) : number (encodeSequence n) = n := by
  have hbytes := Uuid.foldl_bytes n 8
  rw [Nat.mod_eq_of_lt (show n < 1 <<< (8 * 8) from h)] at hbytes
  rw [number, encodeSequence, List.foldl_map]
  simpa only [List.foldl_map, UInt8.toNat_ofNat', Nat.reducePow] using hbytes

theorem decodeSequence_encodeSequence {n : Nat} (h : n < 2 ^ 64) :
    decodeSequence (encodeSequence n) = .ok n := by
  rw [decodeSequence, if_pos (length_encodeSequence n)]
  exact congrArg _ (number_encodeSequence h)

theorem compare_encodeSequence {m n : Nat} (h : m < n) (hn : n < 2 ^ 64) :
    compare (encodeSequence m) (encodeSequence n) = .lt := by
  rw [← compare_number (by simp), number_encodeSequence (Nat.lt_trans h hn),
    number_encodeSequence hn]
  exact Nat.compare_eq_lt.2 h

end Archive

/-! ### Events -/

/-- What is read of a field that is there is handed on. -/
theorem Record.required_bind {r : Record} {name : String} {v : Json} {read : Json → Decoded α}
    {a : α} (hv : r.fields.lookup name = some v) (ha : read v = .ok a) (f : α → Decoded β) :
    (r.required name read >>= f) = f a := by
  simp only [required, hv, ha, Decoded.ok_bind]

theorem EventId.ofJson_toJson (i : EventId) : ofJson i.toJson = .ok i := by
  rw [ofJson, toJson, Uuid.ofJson_toJson]
  rfl

namespace Json

mutual

theorem isFinite_of_isIntegral : ∀ {v : Json}, v.isIntegral = true → v.isFinite = true
  | .null, _ | .bool _, _ | .string _, _ | .number (.int _), _ => rfl
  | .number (.float _), h => by cases h
  | .array _, h => itemsFinite_of_itemsIntegral h
  | .object _, h => membersFinite_of_membersIntegral h

theorem itemsFinite_of_itemsIntegral :
    ∀ {vs : List Json}, itemsIntegral vs = true → itemsFinite vs = true
  | [], _ => rfl
  | _ :: _, h => by
    obtain ⟨hhead, htail⟩ := Bool.and_eq_true_iff.1 h
    rw [itemsFinite, isFinite_of_isIntegral hhead, itemsFinite_of_itemsIntegral htail]
    rfl

theorem membersFinite_of_membersIntegral :
    ∀ {ms : List (String × Json)}, membersIntegral ms = true → membersFinite ms = true
  | [], _ => rfl
  | _ :: _, h => by
    obtain ⟨hhead, htail⟩ := Bool.and_eq_true_iff.1 h
    rw [membersFinite, isFinite_of_isIntegral hhead, membersFinite_of_membersIntegral htail]
    rfl

end

end Json

namespace Event

/-- What is required of an event that is to be read back: the number of its schema has 32 bits, and
its payload is without fractions, not nested too deep and, as any payload that has been made here or
read, in its canonical form. -/
structure Storable (e : Event) : Prop where
  schema : e.schemaVersion < UInt32.size
  integral : e.payload.isIntegral = true
  depth : e.payload.depth ≤ payloadDepth
  canonical : e.payload.canonical = e.payload

theorem lookup_members (e : Event) :
    e.members.lookup "event_id" = some e.id.toJson ∧
      e.members.lookup "event_type" = some (.string e.kind) ∧
      e.members.lookup "schema_version" = some (.nat e.schemaVersion) ∧
      e.members.lookup "occurred_at" = some e.occurredAt.toJson ∧
      e.members.lookup "payload" = some e.payload := by
  simp [members, Json.lookup_cons_ite]

theorem read_members (e : Event) :
    Record.read ["event_id", "event_type", "schema_version", "occurred_at", "payload"]
      (.object e.members) = .ok ⟨e.members, false⟩ := by
  simp [Record.read, members, Record.hasRepeats]

theorem ofJson_members {e : Event} (h : e.Storable) : ofJson (.object e.members) = .ok e := by
  have hpayload : Json.asValue payloadDepth e.payload = .ok e.payload := by
    rw [Json.asValue, if_pos ⟨Json.isFinite_of_isIntegral h.integral, h.depth⟩, h.canonical]
  have htext : Json.asString (.string e.kind) = .ok e.kind := rfl
  obtain ⟨hid, hkind, hschema, htime, hbody⟩ := e.lookup_members
  rw [ofJson, read_members, Decoded.ok_bind,
    Record.required_bind hid (EventId.ofJson_toJson _), Record.required_bind hkind htext,
    Record.required_bind hschema (Json.asNat_nat h.schema),
    Record.required_bind htime (Instant.ofJson_toJson _), Record.required_bind hbody hpayload]
  rfl

theorem isIntegral_members {e : Event} (h : e.Storable) :
    (Json.object e.members).isIntegral = true := by
  have hschema : Json.Number.InRange e.schemaVersion := by
    have hlt := h.schema
    simp only [UInt32.size] at hlt
    constructor <;> omega
  simp [members, Json.isIntegral, Json.membersIntegral, h.integral, hschema, Json.nat,
    EventId.toJson, Uuid.toJson, Instant.toJson]

end Event

namespace Archive

theorem decodeEvent?_encodeEvent {e : Event} (h : e.Storable) :
    decodeEvent? (encodeEvent e) = some e := by
  have hparse : Json.parseBytes (encodeEvent e) = some (.object e.members) := by
    rw [encodeEvent, Json.parseBytes_toUTF8, Json.parse_render (Event.isIntegral_members h)]
  simp [decodeEvent?, hparse, Event.ofJson_members h]

theorem readEntry_encode {n : Nat} (hn : n < 2 ^ 64) {e : Event} (h : e.Storable) :
    readEntry (encodeSequence n, encodeEvent e) = .ok (n, e) := by
  simp [readEntry, decodeSequence_encodeSequence hn, decodeEvent?_encodeEvent h, bind, Except.bind]

end Archive

end Curia
