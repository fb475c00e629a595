import Curia.Proofs.Json.Fields
import Curia.Proofs.Ledger.Archive

/-!
A table that may hold anything at all, as it does after damage on disk. It reads back only if every
entry of it is sound, and the first that is not is the one reported. An append puts an entry where
there was none or fails, and what stands in the table stays as it is.
-/

namespace Curia

/-! ### Going through a list up to the first error -/

section

variable {f : α → Except ε β} {as : List α}

theorem exists_mapM_eq_ok_iff : (∃ bs, as.mapM f = .ok bs) ↔ ∀ a ∈ as, ∃ b, f a = .ok b := by
  simp only [mapM_eq_ok_iff]
  induction as with
  | nil => simp
  | cons a as ih => simp [List.forall₂_cons_left_iff, ← ih]

theorem mapM_cons_of_error {a : α} {err : ε} (ha : f a = .error err) :
    (a :: as).mapM f = .error err := by
  rw [List.mapM_cons, ha]
  rfl

theorem mapM_cons_eq_error_iff {a : α} {b : β} (ha : f a = .ok b) {err : ε} :
    (a :: as).mapM f = .error err ↔ as.mapM f = .error err := by
  rw [List.mapM_cons, ha]
  cases as.mapM f <;> simp [bind, Except.bind, pure, Except.pure]

/-- In a list in order, what fails first is what comes before all else that fails. -/
theorem mapM_eq_error_iff {r : α → α → Prop} (hasymm : ∀ a b, r a b → ¬r b a)
    (hsorted : as.Pairwise r) {err : ε} :
    as.mapM f = .error err ↔
      ∃ a ∈ as, f a = .error err ∧ ∀ x ∈ as, r x a → ∃ b, f x = .ok b := by
  induction as with
  | nil => simp [pure, Except.pure]
  | cons a as ih =>
      obtain ⟨hfirst, hrest⟩ := List.pairwise_cons.1 hsorted
      cases ha : f a with
      | error err' =>
          rw [mapM_cons_of_error ha]
          constructor
          · intro h
            have hleast : ∀ x ∈ a :: as, ¬r x a := by
              refine List.forall_mem_cons.2 ⟨fun h => hasymm a a h h, fun x hx => ?_⟩
              exact hasymm a x (hfirst x hx)
            rw [← Except.error.inj h]
            exact ⟨a, List.mem_cons_self, ha, fun x hx h => absurd h (hleast x hx)⟩
          · rintro ⟨x, hx, herror, hbefore⟩
            rcases List.mem_cons.1 hx with rfl | hx
            · rw [Except.error.inj (ha.symm.trans herror)]
            · obtain ⟨b, hb⟩ := hbefore a List.mem_cons_self (hfirst x hx)
              cases ha.symm.trans hb
      | ok b =>
          rw [mapM_cons_eq_error_iff ha, ih hrest]
          constructor
          · rintro ⟨x, hx, herror, hbefore⟩
            refine ⟨x, List.mem_cons_of_mem a hx, herror, ?_⟩
            exact List.forall_mem_cons.2 ⟨fun _ => ⟨b, ha⟩, hbefore⟩
          · rintro ⟨x, hx, herror, hbefore⟩
            rcases List.mem_cons.1 hx with rfl | hx
            · cases ha.symm.trans herror
            · exact ⟨x, hx, herror, fun y hy => hbefore y (List.mem_cons_of_mem a hy)⟩

end

namespace SortedMap

variable [Ord κ] [Std.TransOrd κ] [Std.LawfulEqOrd κ] [DecidableEq κ]

/-- Where a key is free, its entry is added to the others. -/
theorem toList_insert_perm {m : SortedMap κ α} {k : κ} (a : α) (h : m.get? k = none) :
    (m.insert k a).toList.Perm ((k, a) :: m.toList) := by
  have hfree (b : α) : (k, b) ∉ m.toList := fun hb => by
    rw [mem_toList_iff, h] at hb
    cases hb
  refine (List.perm_ext_iff_of_nodup (nodup_toList _)
    (List.nodup_cons.2 ⟨hfree a, m.nodup_toList⟩)).2 fun ⟨j, b⟩ => ?_
  rw [mem_toList_iff, get?_insert, List.mem_cons]
  by_cases hj : k = j
  · subst hj
    simp [hfree b, eq_comm]
  · simp [hj, Ne.symm hj, mem_toList_iff]

end SortedMap

namespace Archive

/-! ### Reading -/

/-- The key is a sequence number of eight bytes and the value is the text of an event. -/
structure Sound (entry : List UInt8 × List UInt8) : Prop where
  key : entry.1.length = 8
  value : (decodeEvent? entry.2).isSome = true

/-- The entry is sound, with this number and this event. -/
structure ReadsAs (entry : List UInt8 × List UInt8) (read : Nat × Event) : Prop where
  key : entry.1.length = 8
  number : number entry.1 = read.1
  event : decodeEvent? entry.2 = some read.2

/-- What is wrong with an entry. Of one with a good key it is told what number it has. -/
inductive Flawed : List UInt8 × List UInt8 → LedgerError → Prop where
  | key {entry} (h : entry.1.length ≠ 8) : Flawed entry (.keyLength entry.1.length)
  | value {entry} (hkey : entry.1.length = 8) (hvalue : decodeEvent? entry.2 = none) :
      Flawed entry (.undecodable (number entry.1))

variable {entry : List UInt8 × List UInt8}

theorem readEntry_of_key_ne (h : entry.1.length ≠ 8) :
    readEntry entry = .error (.keyLength entry.1.length) := by
  rw [readEntry, decodeSequence, if_neg h]
  rfl

theorem readEntry_of_key (h : entry.1.length = 8) :
    readEntry entry = match decodeEvent? entry.2 with
      | some e => .ok (number entry.1, e)
      | none => .error (.undecodable (number entry.1)) := by
  rw [readEntry, decodeSequence, if_pos h]
  rfl

theorem readEntry_eq_ok_iff {read : Nat × Event} :
    readEntry entry = .ok read ↔ ReadsAs entry read := by
  by_cases hkey : entry.1.length = 8
  · rw [readEntry_of_key hkey]
    constructor
    · intro h
      cases hvalue : decodeEvent? entry.2 with
      | none =>
          rw [hvalue] at h
          cases h
      | some e =>
          rw [hvalue] at h
          obtain rfl := Except.ok.inj h
          exact ⟨hkey, rfl, hvalue⟩
    · intro h
      rw [h.event, h.number]
  · rw [readEntry_of_key_ne hkey]
    exact iff_of_false nofun fun h => hkey h.key

theorem readEntry_eq_error_iff {err : LedgerError} :
    readEntry entry = .error err ↔ Flawed entry err := by
  constructor
  · intro h
    by_cases hkey : entry.1.length = 8
    · rw [readEntry_of_key hkey] at h
      cases hvalue : decodeEvent? entry.2 with
      | none =>
          rw [hvalue] at h
          obtain rfl := Except.error.inj h
          exact .value hkey hvalue
      | some e =>
          rw [hvalue] at h
          cases h
    · rw [readEntry_of_key_ne hkey] at h
      obtain rfl := Except.error.inj h
      exact .key hkey
  · rintro (hkey | ⟨hkey, hvalue⟩)
    · exact readEntry_of_key_ne hkey
    · rw [readEntry_of_key hkey, hvalue]

theorem sound_iff : Sound entry ↔ ∃ read, readEntry entry = .ok read := by
  simp only [readEntry_eq_ok_iff]
  constructor
  · rintro ⟨hkey, hvalue⟩
    obtain ⟨e, he⟩ := Option.isSome_iff_exists.1 hvalue
    exact ⟨(number entry.1, e), hkey, rfl, he⟩
  · rintro ⟨read, h⟩
    exact ⟨h.key, Option.isSome_of_eq_some h.event⟩

/-- The error says that an entry is corrupt, and which. -/
theorem Flawed.describes {err : LedgerError} (h : Flawed entry err) :
    ¬ Sound entry ∧ err.kind = "CorruptEntry" ∧
      if entry.1.length = 8 then err.sequence = number entry.1
      else err.sequence = 0 ∧ err.detail? = some s!"key of {entry.1.length} bytes" := by
  have hunsound : ¬ Sound entry := fun hsound => by
    obtain ⟨read, hread⟩ := sound_iff.1 hsound
    rw [readEntry_eq_error_iff.2 h] at hread
    cases hread
  refine ⟨hunsound, rfl, ?_⟩
  cases h with
  | key hkey =>
      rw [if_neg hkey]
      exact ⟨rfl, rfl⟩
  | value hkey hvalue =>
      rw [if_pos hkey]
      rfl

theorem readAll_eq_ok_iff {a : Archive} {reads : List (Nat × Event)} :
    a.readAll = .ok reads ↔ List.Forall₂ ReadsAs a.entries.toList reads := by
  simp only [readAll, mapM_eq_ok_iff, readEntry_eq_ok_iff]

theorem exists_readAll_eq_ok_iff {a : Archive} :
    (∃ reads, a.readAll = .ok reads) ↔ ∀ entry ∈ a.entries.toList, Sound entry := by
  simp only [readAll, exists_mapM_eq_ok_iff, sound_iff]

theorem readAll_eq_error_iff {a : Archive} {err : LedgerError} :
    a.readAll = .error err ↔ ∃ entry ∈ a.entries.toList, Flawed entry err ∧
      ∀ other ∈ a.entries.toList, compare other.1 entry.1 = .lt → Sound other := by
  have hasymm (x y : List UInt8 × List UInt8) (h : compare x.1 y.1 = .lt) :
      ¬ compare y.1 x.1 = .lt := Std.OrientedCmp.not_lt_of_lt h
  simp only [readAll, mapM_eq_error_iff hasymm a.entries.sorted, readEntry_eq_error_iff, sound_iff]

theorem map_fst_reads {entries : List (List UInt8 × List UInt8)} {reads : List (Nat × Event)}
    (h : List.Forall₂ ReadsAs entries reads) :
    reads.map Prod.fst = entries.map fun entry => number entry.1 := by
  induction h with
  | nil => rfl
  | cons hread _ ih => rw [List.map_cons, List.map_cons, hread.number, ih]

theorem ascending_of_readAll {a : Archive} {reads : List (Nat × Event)}
    (h : a.readAll = .ok reads) : (reads.map Prod.fst).Pairwise (· < ·) := by
  have hsound := exists_readAll_eq_ok_iff.1 ⟨reads, h⟩
  rw [map_fst_reads (readAll_eq_ok_iff.1 h), List.pairwise_map]
  refine a.entries.sorted.imp_of_mem fun {x y} hx hy hlt => ?_
  -- keys of different lengths would be in the order of their bytes only
  rw [← compare_number ((hsound x hx).key.trans (hsound y hy).key.symm)] at hlt
  exact Nat.compare_eq_lt.1 hlt

/-! ### Appending -/

theorem append_of_free {a : Archive} (e : Event)
    (h : a.entries.get? (encodeSequence (a.issued + 1)) = none) :
    a.append e = (.ok (a.issued + 1),
      ⟨a.entries.insert (encodeSequence (a.issued + 1)) (encodeEvent e), a.issued + 1⟩) := by
  rw [append, SortedMap.contains, h]
  rfl

theorem append_of_taken {a : Archive} (e : Event)
    (h : a.entries.get? (encodeSequence (a.issued + 1)) ≠ none) :
    a.append e = (.error (.occupied (a.issued + 1)), { a with issued := a.issued + 1 }) := by
  rw [append, SortedMap.contains, Option.isSome_iff_ne_none.2 h]
  rfl

theorem get?_step {a : Archive} {k v : List UInt8} (call : Call)
    (h : a.entries.get? k = some v) : (a.step call).entries.get? k = some v := by
  cases call with
  | append e =>
      rw [step]
      cases hkey : a.entries.get? (encodeSequence (a.issued + 1)) with
      | none =>
          have hne : encodeSequence (a.issued + 1) ≠ k := fun heq => by
            rw [heq, h] at hkey
            cases hkey
          rw [append_of_free e hkey, SortedMap.get?_insert, if_neg hne, h]
      | some w => rw [append_of_taken e (Option.ne_none_iff_exists'.2 ⟨w, hkey⟩), h]
  | skip numbers => exact h
  | reopen skipped => exact h

theorem get?_run {a : Archive} {k v : List UInt8} (calls : List Call)
    (h : a.entries.get? k = some v) : (a.run calls).entries.get? k = some v := by
  induction calls generalizing a with
  | nil => exact h
  | cons call calls ih => exact ih (get?_step call h)

/-- Whatever a table holds, all of it is read if and only if every entry is sound, and then in the
order of the numbers, each once. Otherwise the error is about the unsound entry whose key comes
first. An append adds an entry at a key that was free, or fails and adds none. An entry, sound or
not, stays in the table as it is, whatever is appended and however often it is opened again. -/
theorem fails_closed (a : Archive) :
    ((∃ reads, a.readAll = .ok reads) ↔ ∀ entry ∈ a.entries.toList, Sound entry) ∧
    (∀ reads, a.readAll = .ok reads → List.Forall₂ ReadsAs a.entries.toList reads ∧
      (reads.map Prod.fst).Pairwise (· < ·)) ∧
    (∀ err, a.readAll = .error err ↔ ∃ entry ∈ a.entries.toList, Flawed entry err ∧
      ∀ other ∈ a.entries.toList, compare other.1 entry.1 = .lt → Sound other) ∧
    (∀ entry err, Flawed entry err → ¬ Sound entry ∧ err.kind = "CorruptEntry" ∧
      if entry.1.length = 8 then err.sequence = number entry.1
      else err.sequence = 0 ∧ err.detail? = some s!"key of {entry.1.length} bytes") ∧
    (∀ e, let key := encodeSequence (a.issued + 1)
      (a.entries.get? key = none ∧ (a.append e).1 = .ok (a.issued + 1) ∧
        (a.append e).2.entries.toList.Perm ((key, encodeEvent e) :: a.entries.toList)) ∨
      (a.entries.get? key ≠ none ∧ (a.append e).1 = .error (.occupied (a.issued + 1)) ∧
        (LedgerError.occupied (a.issued + 1)).kind = "CorruptEntry" ∧
        (a.append e).2.entries = a.entries)) ∧
    ∀ calls, ∀ entry ∈ a.entries.toList, entry ∈ (a.run calls).entries.toList := by
  refine ⟨exists_readAll_eq_ok_iff, fun reads h => ⟨readAll_eq_ok_iff.1 h, ascending_of_readAll h⟩,
    fun err => readAll_eq_error_iff, fun entry err => Flawed.describes, fun e => ?_,
    fun calls entry h => ?_⟩
  · by_cases hfree : a.entries.get? (encodeSequence (a.issued + 1)) = none
    · refine .inl ⟨hfree, ?_⟩
      rw [append_of_free e hfree]
      exact ⟨rfl, SortedMap.toList_insert_perm _ hfree⟩
    · refine .inr ⟨hfree, ?_⟩
      rw [append_of_taken e hfree]
      exact ⟨rfl, rfl, rfl⟩
  · exact SortedMap.mem_of_get? (get?_run calls (SortedMap.mem_toList_iff.1 h))

/-- A key of nine bytes stands between those of the numbers that differ in the last byte, so that it
is reported, and not the value of no bytes behind it. The first number is taken. -/
theorem fails_closed_of_damaged :
    let e : Event := ⟨⟨.ofNat 1⟩, "petition.received", 1, .epoch, .null⟩
    let table : Archive :=
      ⟨⟨[(encodeSequence 1, encodeEvent e), (encodeSequence 1 ++ [0], []), (encodeSequence 2, [])],
        by decide⟩, 0⟩
    table.readAll = .error (.keyLength 9) ∧
      (table.append e).1 = .error (.occupied 1) ∧ (table.append e).2.entries = table.entries ∧
      (encodeSequence 1, encodeEvent e) ∈ (table.run [.reopen 0, .append e]).entries.toList := by
  intro e table
  have hstorable : e.Storable := ⟨by decide, rfl, by decide, rfl⟩
  have hsound : Sound (encodeSequence 1, encodeEvent e) :=
    ⟨rfl, Option.isSome_of_eq_some (decodeEvent?_encodeEvent hstorable)⟩
  obtain ⟨-, -, herror, -, happend, hkept⟩ := fails_closed table
  refine ⟨(herror _).2 ⟨(encodeSequence 1 ++ [0], []), by simp [table], .key (by decide), ?_⟩, ?_⟩
  · intro other hother hlt
    simp only [table, List.mem_cons, List.not_mem_nil, or_false] at hother
    rcases hother with rfl | rfl | rfl
    · exact hsound
    · exact absurd hlt (by decide)
    · exact absurd hlt (by decide)
  · rcases happend e with ⟨hfree, -⟩ | ⟨-, hanswer, -, hentries⟩
    · have htaken : table.entries.get? (encodeSequence 1) = some (encodeEvent e) :=
        SortedMap.mem_toList_iff.1 List.mem_cons_self
      cases hfree.symm.trans htaken
    · exact ⟨hanswer, hentries, hkept _ _ List.mem_cons_self⟩

end Archive

end Curia
