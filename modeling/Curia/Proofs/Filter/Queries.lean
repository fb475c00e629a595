import Mathlib.Data.List.Induction
import Mathlib.Data.List.Infix
import Mathlib.Tactic.Tauto
import Curia.Data.Repeated
import Curia.Filter.DecisionLog
import Curia.Proofs.Time.Order

/-!
What the log of decisions answers. A query finds the entries that it asks for, as many of the first
as it allows, in the order in which they were appended. So what is found in a span of time is found
in either part when the span is cut in two, and a query that allows more finds the same and then
more.
-/

namespace Curia

namespace DecisionLog

/-! ### The entries -/

/-- The log after entries have been appended in turn, or refused. -/
def run (l : DecisionLog) (ds : List Decision) : DecisionLog :=
  ds.foldl (fun l d => (l.append d).2) l

theorem run_concat (l : DecisionLog) (ds : List Decision) (d : Decision) :
    l.run (ds ++ [d]) = ((l.run ds).append d).2 := by
  rw [run, List.foldl_concat, ← run]

section

variable {l : DecisionLog} (hreach : ∀ n, l.refuses n = false) {d : Decision}

include hreach

theorem append_of_logged (h : d.id ∈ l.entries.map Decision.id) :
    l.append d = (.error (.alreadyLogged d.id), { l with attempts := l.attempts + 1 }) := by
  have hany : l.entries.any (fun e => e.id = d.id) = true := by simpa using h
  simp only [append, hreach, hany, Bool.false_eq_true, if_false, if_true]

theorem append_of_new (h : d.id ∉ l.entries.map Decision.id) :
    l.append d =
      (.ok (), { l with attempts := l.attempts + 1, entries := l.entries ++ [d] }) := by
  have hany : l.entries.any (fun e => e.id = d.id) = false := by simpa using h
  simp only [append, hreach, hany, Bool.false_eq_true, if_false]

end

theorem refuses_append (l : DecisionLog) (d : Decision) :
    (l.append d).2.refuses = l.refuses := by
  rw [append]
  split
  · rfl
  · split <;> rfl

theorem refuses_run (ds : List Decision) (n : Nat) : (empty.run ds).refuses n = false := by
  induction ds using List.reverseRecOn with
  | nil => rfl
  | append_singleton ds d ih => rw [run_concat, refuses_append, ih]

theorem entries_run (ds : List Decision) : (empty.run ds).entries = firsts Decision.id ds := by
  induction ds using List.reverseRecOn with
  | nil => rfl
  | append_singleton ds d ih =>
      rw [run_concat, firsts_concat]
      by_cases hmem : d.id ∈ (empty.run ds).entries.map Decision.id
      · rw [append_of_logged (refuses_run ds) hmem, if_pos (mem_map_firsts.1 (ih ▸ hmem)), ← ih]
      · have hnew : d.id ∉ ds.map Decision.id := fun h => hmem (ih ▸ mem_map_firsts.2 h)
        rw [append_of_new (refuses_run ds) hmem, if_neg hnew, ← ih]

/-! ### What a query asks for -/

/-- The entry is by the submitter and of the kind that is asked for, and its time is in the span,
of which the beginning belongs to it and the end does not. -/
structure Query.Wants (q : Query) (d : Decision) : Prop where
  submitter : ∀ s ∈ q.submitter, d.submitter = s
  decision : ∀ k ∈ q.decision, d.decision = k
  since : ∀ t ∈ q.since, t ≤ d.timestamp
  before : ∀ t ∈ q.before, d.timestamp < t

theorem Query.matches_iff {q : Query} {d : Decision} : q.matches d = true ↔ q.Wants d := by
  have hsince (t : Instant) : (!decide (d.timestamp < t)) = true ↔ t ≤ d.timestamp := by
    rw [Bool.not_eq_true', decide_eq_false_iff_not, Instant.not_lt]
  simp only [Query.matches, Bool.and_eq_true, Option.all_eq_true, decide_eq_true_eq, hsince]
  exact ⟨fun ⟨⟨⟨hs, hk⟩, ht⟩, ht'⟩ => ⟨hs, hk, ht, ht'⟩,
    fun h => ⟨⟨⟨h.submitter, h.decision⟩, h.since⟩, h.before⟩⟩

instance (q : Query) : DecidablePred q.Wants :=
  fun _ => decidable_of_iff _ Query.matches_iff

theorem query_eq (l : DecisionLog) (q : Query) : l.query q = match q.limit with
    | some n => (l.entries.filter fun d => q.Wants d).take n
    | none => l.entries.filter fun d => q.Wants d := by
  have hfound : l.entries.filter q.matches = l.entries.filter fun d => q.Wants d :=
    List.filter_congr fun d _ => by rw [Bool.eq_iff_iff, decide_eq_true_eq, Query.matches_iff]
  rw [← hfound]
  rfl

/-- The same query for all entries in a span of time. -/
def Query.within (q : Query) (s t : Instant) : Query :=
  { q with since := some s, before := some t, limit := none }

theorem Query.wants_within_iff {q : Query} {s t : Instant} {d : Decision} :
    (q.within s t).Wants d ↔
      ((∀ s ∈ q.submitter, d.submitter = s) ∧ ∀ k ∈ q.decision, d.decision = k) ∧
        s ≤ d.timestamp ∧ d.timestamp < t :=
  ⟨fun h => ⟨⟨h.submitter, h.decision⟩, h.since s rfl, h.before t rfl⟩,
    fun ⟨⟨hsubmitter, hdecision⟩, hsince, hbefore⟩ =>
      ⟨hsubmitter, hdecision, fun _ hs => Option.some.inj hs ▸ hsince,
        fun _ ht => Option.some.inj ht ▸ hbefore⟩⟩

/-- The entries in a span of time are those before an instant in it and those from then on. -/
theorem query_within (l : DecisionLog) (q : Query) {a b c : Instant} (hab : a ≤ b) (hbc : b ≤ c) :
    l.query (q.within a b) =
        (l.query (q.within a c)).filter (fun d => decide (d.timestamp < b)) ∧
      l.query (q.within b c) =
        (l.query (q.within a c)).filter (fun d => !decide (d.timestamp < b)) := by
  have hquery (s t : Instant) :
      l.query (q.within s t) = l.entries.filter fun d => (q.within s t).Wants d :=
    l.query_eq (q.within s t)
  rw [hquery, hquery, hquery, List.filter_filter, List.filter_filter]
  constructor
  · refine List.filter_congr fun d _ => ?_
    have hlate (h : d.timestamp < b) : d.timestamp < c := Instant.lt_of_lt_of_le h hbc
    rw [Bool.eq_iff_iff]
    simp only [Bool.and_eq_true, decide_eq_true_eq, Query.wants_within_iff]
    tauto
  · refine List.filter_congr fun d _ => ?_
    have hearly (h : b ≤ d.timestamp) : a ≤ d.timestamp := Instant.le_trans hab h
    rw [Bool.eq_iff_iff]
    simp only [Bool.and_eq_true, Bool.not_eq_true', decide_eq_true_eq, decide_eq_false_iff_not,
      Instant.not_lt, Query.wants_within_iff]
    tauto

/-- However entries are appended, the log has the first of each identifier, in their order. An
entry is taken if and only if its identifier is new, and is refused otherwise, with nothing
appended. Under an identifier there is the one entry that has it, if any was appended. A query finds
the first of the entries that it asks for, up to its limit. The entries in a span of time are those
in its two parts, none in both; with a greater limit, or none, more entries follow and no other
comes before. -/
theorem queries_exact (ds : List Decision) :
    let l := empty.run ds
    (l.entries = firsts Decision.id ds ∧ l.entries.Sublist ds ∧
      (l.entries.map Decision.id).Nodup) ∧
    (∀ d, ((l.append d).1 = .ok () ↔ l.get? d.id = none) ∧
      ((l.append d).1 = .ok () ∨
        l.append d = (.error (.alreadyLogged d.id), { l with attempts := l.attempts + 1 }))) ∧
    (∀ id, (∀ d, l.get? id = some d ↔ d ∈ l.entries ∧ d.id = id) ∧
      ((l.get? id).isSome = true ↔ ∃ d ∈ ds, d.id = id)) ∧
    (∀ q, l.query q = match q.limit with
      | some n => (l.entries.filter fun d => q.Wants d).take n
      | none => l.entries.filter fun d => q.Wants d) ∧
    (∀ (q : Query) (a b c : Instant), a ≤ b → b ≤ c →
      (l.query (q.within a b)).Disjoint (l.query (q.within b c)) ∧
      (l.query (q.within a b) ++ l.query (q.within b c)).Perm (l.query (q.within a c))) ∧
    ∀ (q : Query) (m n : Nat), m ≤ n →
      l.query { q with limit := some m } <+: l.query { q with limit := some n } ∧
      l.query { q with limit := some n } <+: l.query { q with limit := none } := by
  intro l
  have hentries : l.entries = firsts Decision.id ds := entries_run ds
  have hdistinct : (l.entries.map Decision.id).Nodup := hentries ▸ nodup_firsts ds
  have hget (id : DecisionId) : l.get? id = ds.find? fun d => d.id = id := by
    rw [get?, hentries, find?_firsts]
  refine ⟨⟨hentries, hentries ▸ sublist_firsts ds, hdistinct⟩, fun d => ?_,
    fun id => ⟨fun d => ?_, ?_⟩, l.query_eq, fun q a b c hab hbc => ?_, fun q m n hmn => ?_⟩
  · by_cases hmem : d.id ∈ l.entries.map Decision.id
    · have happend := append_of_logged (refuses_run ds) hmem
      have herror : (l.append d).1 ≠ .ok () := by
        rw [happend]
        nofun
      have hlogged : l.get? d.id ≠ none := by simpa [get?] using hmem
      exact ⟨iff_of_false herror hlogged, .inr happend⟩
    · have hok : (l.append d).1 = .ok () :=
        congrArg Prod.fst (append_of_new (refuses_run ds) hmem)
      have hnew : l.get? d.id = none := by simpa [get?] using hmem
      exact ⟨iff_of_true hok hnew, .inl hok⟩
  · exact find?_key_eq_some_iff hdistinct
  · rw [hget, List.find?_isSome]
    simp only [decide_eq_true_eq]
  · obtain ⟨hbefore, hafter⟩ := l.query_within q hab hbc
    rw [hbefore, hafter]
    refine ⟨fun d hd hd' => ?_, List.filter_append_perm _ _⟩
    have hnot : (!decide (d.timestamp < b)) = true := (List.mem_filter.1 hd').2
    rw [(List.mem_filter.1 hd).2] at hnot
    cases hnot
  · let found := l.entries.filter q.matches
    show found.take m <+: found.take n ∧ found.take n <+: found
    exact ⟨List.take_prefix_take_left hmn, List.take_prefix n found⟩

/-- Three entries, of which the last is refused; the second is at the instant that parts the
span. -/
theorem queries_exact_of_adjacent :
    let minute (n : Nat) (h : Instant.Valid (60 * n) 0) : Instant := ⟨60 * n, 0, h⟩
    let start := minute 0 (by decide)
    let middle := minute 1 (by decide)
    let stop := minute 2 (by decide)
    let entry (n : Nat) (t : Instant) : Decision :=
      { id := ⟨.ofNat n⟩, inputHash := ⟨List.replicate 32 0, rfl⟩, filterVersion := "1"
        libraryVersion := none, kind := .reminder, submitter := "clerk", timestamp := t
        payload := .rejected .guiltInduction }
    let l := empty.run [entry 1 start, entry 2 middle, entry 1 middle]
    let q : Query := ⟨some "clerk", some .rejected, none, none, none⟩
    start ≤ middle ∧ middle ≤ stop ∧ 1 ≤ 2 ∧
      (l.query (q.within start stop)).map Decision.id = [⟨.ofNat 1⟩, ⟨.ofNat 2⟩] ∧
      (l.query (q.within start middle) ++ l.query (q.within middle stop)).Perm
        (l.query (q.within start stop)) ∧
      l.query { q with limit := some 1 } <+: l.query { q with limit := some 2 } := by
  intro minute start middle stop entry l q
  have hstart : start ≤ middle := by decide
  have hstop : middle ≤ stop := by decide
  obtain ⟨-, -, -, -, hspan, hlimit⟩ :=
    queries_exact [entry 1 start, entry 2 middle, entry 1 middle]
  exact ⟨hstart, hstop, by decide, by decide +kernel, (hspan q start middle stop hstart hstop).2,
    (hlimit q 1 2 (by decide)).1⟩

end DecisionLog

end Curia
