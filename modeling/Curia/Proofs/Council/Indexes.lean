import Mathlib.Data.Finset.Card
import Mathlib.Data.List.Induction
import Curia.Council.DissentStore
import Curia.Data.Repeated

/-!
The indexes of the store of dissents agree with its records: what is asked for by a petition or by
an archon are the stored records, in the order in which they were saved. Of all the records that are
to be saved for a session, the first is the one that is stored.
-/

namespace Curia

namespace DissentStore

/-- An index has, under each key, the sessions of the records with that key in their order. -/
def Files [Ord κ] [DecidableEq κ] (index : SortedMap κ (List SessionId)) (key : Dissent → κ)
    (kept : List Dissent) : Prop :=
  ∀ k, (index.get? k).getD [] = (kept.filter fun d => key d = k).map Dissent.session

theorem Files.file [Ord κ] [Std.TransOrd κ] [Std.LawfulEqOrd κ] [DecidableEq κ]
    {index : SortedMap κ (List SessionId)} {key : Dissent → κ} {kept : List Dissent}
    (h : Files index key kept) (d : Dissent) :
    Files (file index (key d) d.session) key (kept ++ [d]) := by
  intro k
  rw [DissentStore.file, SortedMap.get?_insert, List.filter_append, List.map_append, ← h k]
  by_cases hk : key d = k
  · simp [hk]
  · simp [hk]

/-- The store is in reach and has the given records, of which no two are of one session; both
indexes agree with them. -/
structure Indexed (s : DissentStore) (kept : List Dissent) : Prop where
  reach : ∀ n, s.refuses n = false
  distinct : (kept.map Dissent.session).Nodup
  records : ∀ t, s.ofSession? t = kept.find? fun d => d.session = t
  petitions : Files s.byPetition Dissent.petition kept
  archons : Files s.byArchon Dissent.archon kept

theorem indexed_empty : empty.Indexed [] :=
  ⟨fun _ => rfl, .nil, fun _ => rfl, fun _ => rfl, fun _ => rfl⟩

namespace Indexed

variable {s : DissentStore} {kept : List Dissent}

theorem mem_iff (h : s.Indexed kept) {d : Dissent} :
    d ∈ kept ↔ s.ofSession? d.session = some d := by
  rw [h.records, find?_key_eq_some_iff h.distinct]
  exact (and_iff_left rfl).symm

/-- No session that an index names is passed over when its record is fetched. -/
theorem collect [Ord κ] [DecidableEq κ] {index : SortedMap κ (List SessionId)}
    {key : Dissent → κ} (h : s.Indexed kept) (hindex : Files index key kept) (k : κ) :
    s.collect (index.get? k) = kept.filter fun d => key d = k := by
  have hfetch : ∀ d ∈ kept.filter fun d => key d = k, s.ofSession? d.session = some d :=
    fun d hd => h.mem_iff.1 (List.mem_of_mem_filter hd)
  rw [DissentStore.collect, hindex k, List.filterMap_map]
  exact (List.filterMap_congr hfetch).trans List.filterMap_some

theorem size (h : s.Indexed kept) : s.size = kept.length := by
  have hmem (t : SessionId) : t ∈ s.records.keys ↔ t ∈ kept.map Dissent.session := by
    rw [SortedMap.mem_keys_iff, SortedMap.contains, ← ofSession?, h.records]
    simp
  have hperm : s.records.keys.Perm (kept.map Dissent.session) :=
    (List.perm_ext_iff_of_nodup s.records.nodup_keys h.distinct).2 hmem
  have hlength := hperm.length_eq
  rwa [SortedMap.keys, List.length_map, List.length_map] at hlength

/-! ### Saving -/

theorem save_of_stored (h : s.Indexed kept) {d e : Dissent}
    (hstored : s.ofSession? d.session = some e) :
    s.save d = (.error (.dissentRecorded d.session), { s with attempts := s.attempts + 1 }) := by
  have hcontains : s.records.contains d.session = true := by
    rw [SortedMap.contains, ← ofSession?, hstored]
    rfl
  simp only [save, h.reach, put, hcontains, if_true, Bool.false_eq_true, if_false]

/-- The record of a session that has none goes to the end of the records and of its lists in the
indexes. -/
theorem save_of_new (h : s.Indexed kept) {d : Dissent} (hnew : s.ofSession? d.session = none) :
    ∃ s', s.save d = (.ok (), s') ∧ s'.Indexed (kept ++ [d]) := by
  have hcontains : s.records.contains d.session = false := by
    rw [SortedMap.contains, ← ofSession?, hnew]
    rfl
  simp only [save, h.reach, put, hcontains, Bool.false_eq_true, if_false]
  refine ⟨_, rfl, h.reach, ?_, fun t => ?_, h.petitions.file d, h.archons.file d⟩
  · rw [h.records, List.find?_eq_none] at hnew
    rw [List.map_append, List.map_singleton, ← List.concat_eq_append, List.nodup_concat]
    refine ⟨fun hmem => ?_, h.distinct⟩
    obtain ⟨e, he, hsession⟩ := List.mem_map.1 hmem
    exact hnew e he (decide_eq_true hsession)
  · rw [ofSession?, SortedMap.get?_insert, ← ofSession?, h.records, List.find?_append]
    split
    · next hsession =>
      rw [← hsession, ← h.records, hnew]
      simp
    · next hsession => simp [hsession]

end Indexed

/-! ### All saves -/

/-- The store after the records have been saved in turn, or refused. -/
def run (s : DissentStore) (ds : List Dissent) : DissentStore :=
  ds.foldl (fun s d => (s.save d).2) s

theorem run_concat (s : DissentStore) (ds : List Dissent) (d : Dissent) :
    s.run (ds ++ [d]) = ((s.run ds).save d).2 := by
  rw [run, List.foldl_concat, ← run]

theorem indexed_run (ds : List Dissent) : (empty.run ds).Indexed (firsts Dissent.session ds) := by
  induction ds using List.reverseRecOn with
  | nil => exact indexed_empty
  | append_singleton ds d ih =>
      rw [run_concat, firsts_concat]
      cases hstored : (empty.run ds).ofSession? d.session with
      | none =>
          obtain ⟨s', hsave, h⟩ := ih.save_of_new hstored
          have hmem : d.session ∉ ds.map Dissent.session := by
            rw [ih.records, find?_firsts] at hstored
            simpa using hstored
          rwa [hsave, if_neg hmem]
      | some e =>
          have hmem : d.session ∈ ds.map Dissent.session := by
            rw [ih.records, find?_firsts] at hstored
            exact List.mem_map.2 ⟨e, (List.mem_of_find?_eq_some hstored),
              by simpa using List.find?_some hstored⟩
          rw [ih.save_of_stored hstored, if_pos hmem]
          exact ⟨ih.reach, ih.distinct, ih.records, ih.petitions, ih.archons⟩

/-- After any saves the store has exactly the first record of each session. A save is answered if
and only if its session has no record, and is refused otherwise, with nothing stored or filed. What
is asked for by a petition or an archon are all stored records of the kind, each once, in the order
in which they were saved. -/
theorem indexes_agree (ds : List Dissent) :
    let s := empty.run ds
    let kept := firsts Dissent.session ds
    (∀ d, ((s.save d).1 = .ok () ↔ s.ofSession? d.session = none) ∧
      ((s.save d).1 = .ok () ∨ s.save d =
        (.error (.dissentRecorded d.session), { s with attempts := s.attempts + 1 }))) ∧
    (∀ t, s.ofSession? t = ds.find? fun d => d.session = t) ∧
    (kept.Sublist ds ∧ kept.Nodup ∧ ∀ d, d ∈ kept ↔ s.ofSession? d.session = some d) ∧
    (∀ p, s.ofPetition p = kept.filter fun d => d.petition = p) ∧
    (∀ a, s.ofArchon a = kept.filter fun d => d.archon = a) ∧
    s.size = (ds.map Dissent.session).toFinset.card := by
  intro s kept
  have h : s.Indexed kept := indexed_run ds
  refine ⟨fun d => ?_, fun t => ?_, ⟨sublist_firsts ds, h.distinct.of_map, fun d => h.mem_iff⟩,
    h.collect h.petitions, h.collect h.archons, ?_⟩
  · cases hstored : s.ofSession? d.session with
    | none =>
        obtain ⟨s', hsave, -⟩ := h.save_of_new hstored
        have hok : (s.save d).1 = .ok () := congrArg Prod.fst hsave
        exact ⟨iff_of_true hok rfl, .inl hok⟩
    | some e =>
        have hsave := h.save_of_stored hstored
        have herror : (s.save d).1 ≠ .ok () := by
          rw [hsave]
          nofun
        exact ⟨iff_of_false herror nofun, .inr hsave⟩
  · rw [h.records, find?_firsts]
  · have hsame : (ds.map Dissent.session).toFinset = (kept.map Dissent.session).toFinset :=
      Finset.ext fun t => by rw [List.mem_toFinset, List.mem_toFinset, mem_map_firsts]
    rw [h.size, hsame, List.toFinset_card_of_nodup h.distinct, List.length_map]

end DissentStore

end Curia
