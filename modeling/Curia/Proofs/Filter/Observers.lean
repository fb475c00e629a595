import Mathlib.Data.List.Infix
import Curia.Proofs.Filter.Auditing

/-!
What observers are told of. They hear of an entry when the message it was made for is answered; an
entry that had to be held goes into the log later, and nobody is told.
-/

namespace Curia

/-! ### No decision is logged twice -/

/-- No two entries have one identifier. -/
def DecisionLog.Distinct (l : DecisionLog) : Prop := (l.entries.map Decision.id).Nodup

theorem DecisionLog.Distinct.append {l : DecisionLog} (h : l.Distinct) (d : Decision) :
    (l.append d).2.Distinct := by
  rw [DecisionLog.append]
  split
  · exact h
  · split
    · exact h
    · next hany =>
      have hnew : d.id ∉ l.entries.map Decision.id := by simpa using hany
      have hentries : ((l.entries ++ [d]).map Decision.id).Nodup := by
        rw [List.map_append, List.map_singleton, ← List.concat_eq_append, List.nodup_concat]
        exact ⟨hnew, h⟩
      exact hentries

namespace Filter

theorem distinct_logHeld (held : List Decision) {log : DecisionLog} (h : log.Distinct) :
    (logHeld held log).2.2.Distinct := by
  induction held generalizing log with
  | nil => exact h
  | cons d ds ih =>
      have happend := h.append d
      rw [logHeld]
      split
      · next hd =>
        rw [hd] at happend
        exact ih happend
      · next hd =>
        rw [hd] at happend
        exact happend

theorem distinct_audit {f : Filter} (h : f.log.Distinct) (l : Ledger) (d : Decision) :
    (f.audit l d).2.1.log.Distinct := by
  have hheld := distinct_logHeld f.held h
  rw [audit]
  split
  · next hlog =>
    rw [hlog] at hheld
    exact hheld
  · next hlog =>
    rw [hlog] at hheld
    have hown := hheld.append d
    simp only
    split
    · exact hheld
    · split
      · next happend =>
        rw [happend] at hown
        exact hown
      · next happend =>
        rw [happend] at hown
        exact hown

/-! ### One message -/

theorem observed_audit (f : Filter) (l : Ledger) (d : Decision) :
    (f.audit l d).2.1.observed = f.observed := by
  rw [audit]
  split
  · rfl
  · simp only
    split
    · rfl
    · split <;> rfl

section

variable (f : Filter) (library : Option Library) (c : Clock) (l : Ledger) (text : String)
  (kind : MessageKind) (submitter : String) (id : DecisionId)

theorem log_run :
    (f.run library c l text kind submitter id).2.1.log =
      (f.audit l (.ofResult id (f.resultOf library c text) text kind submitter)).2.1.log := by
  rw [run]
  simp only [resultOf]
  split
  · next haudit => rw [haudit]
  · next haudit => rw [haudit]

/-- Observers are told of an entry if and only if its message is answered. -/
theorem observed_run :
    (f.run library c l text kind submitter id).2.1.observed =
      f.observed ++ ((f.run library c l text kind submitter id).1.toOption.map fun r =>
        Decision.ofResult id r text kind submitter).toList := by
  have haudited :=
    f.observed_audit l (.ofResult id (f.resultOf library c text) text kind submitter)
  rw [run]
  simp only [resultOf] at haudited ⊢
  split
  · next haudit =>
    rw [haudit] at haudited
    rw [haudited]
    exact (List.append_nil _).symm
  · next haudit =>
    rw [haudit] at haudited
    rw [haudited]
    rfl

end

/-- If its message gets no answer, an entry is not logged either; only entries that are held can
be. -/
theorem Attempt.entries_of_error {α : Type} {f f' : Filter} {l l' : Ledger} {d : Decision} {a : α}
    {e : FilterError} (h : Attempt f l d a (.error e) f' l') :
    ∃ caught, caught ⊆ f.held ∧ f'.log.entries = f.log.entries ++ caught := by
  cases h with
  | stalled _ _ booked grows =>
      obtain ⟨caught, hentries⟩ := grows
      refine ⟨caught, ?_, hentries.symm⟩
      rw [Filter.booked, Filter.booked, ← hentries, List.append_assoc] at booked
      exact List.append_cancel_left booked ▸ List.subset_append_left _ _
  | refused _ booked held =>
      exact ⟨f.held, List.Subset.refl _, (entries_of_held_eq_nil held).trans booked⟩
  | late _ _ _ booked held =>
      refine ⟨f.held, List.Subset.refl _, ?_⟩
      rw [Filter.booked, held] at booked
      exact List.append_cancel_right booked

end Filter

namespace Desk

/-! ### One request -/

/-- The entry of a message that is answered. -/
def decided? (x : Desk) : Request → Option Decision
  | .filter library c text kind submitter id =>
    (x.serve library c text kind submitter id).1.toOption.map fun r =>
      .ofResult id r text kind submitter
  | .preview .. => none

theorem id_of_decided? {x : Desk} {request : Request} {d : Decision}
    (h : x.decided? request = some d) : request.id? = some d.id := by
  cases request with
  | filter library c text kind submitter id =>
      obtain ⟨r, -, rfl⟩ := Option.map_eq_some_iff.1 h
      rfl
  | preview library c text => cases h

theorem observed_step (x : Desk) (request : Request) :
    (x.step request).filter.observed = x.filter.observed ++ (x.decided? request).toList := by
  cases request with
  | filter library c text kind submitter id =>
      exact x.filter.observed_run library c x.ledger text kind submitter id
  | preview library c text => exact (List.append_nil _).symm

/-- What a request adds to the log: entries that were held and, last of all, the entry of its own
message. -/
theorem entries_step (x : Desk) (request : Request) :
    ∃ caught, caught ⊆ x.filter.held ∧ (x.step request).filter.log.entries =
      x.filter.log.entries ++ caught ++ (x.decided? request).toList := by
  cases request with
  | filter library c text kind submitter id =>
      have hattempt := x.filter.run_attempt library c text kind submitter id x.ledger
      simp only [step, decided?, serve]
      cases hanswer : (x.filter.run library c x.ledger text kind submitter id).1 with
      | error e =>
          rw [hanswer] at hattempt
          obtain ⟨caught, hcaught, hentries⟩ := hattempt.entries_of_error
          exact ⟨caught, hcaught, hentries.trans (List.append_nil _).symm⟩
      | ok r =>
          exact ⟨x.filter.held, List.Subset.refl _, (Filter.run_eq_ok hanswer).2.2⟩
  | preview library c text =>
      refine ⟨[], List.nil_subset _, ?_⟩
      rw [List.append_nil]
      exact (List.append_nil _).symm

theorem distinct_step {x : Desk} (h : x.filter.log.Distinct) (request : Request) :
    (x.step request).filter.log.Distinct := by
  cases request with
  | filter library c text kind submitter id =>
      rw [step, serve, Filter.log_run]
      exact Filter.distinct_audit h _ _
  | preview library c text => exact h

/-! ### All requests -/

/-- The entries of the messages that are answered, in the order of the requests. -/
def answered (x : Desk) : List Request → List Decision
  | [] => []
  | request :: requests => (x.decided? request).toList ++ (x.step request).answered requests

theorem observed_run (x : Desk) (requests : List Request) :
    (x.run requests).filter.observed = x.filter.observed ++ x.answered requests := by
  induction requests generalizing x with
  | nil => exact (List.append_nil _).symm
  | cons request requests ih =>
      calc
        (x.run (request :: requests)).filter.observed
            = (x.step request).filter.observed ++ (x.step request).answered requests := ih _
        _ = x.filter.observed ++ x.answered (request :: requests) := by
          rw [observed_step, List.append_assoc, answered]

theorem distinct_run {x : Desk} (h : x.filter.log.Distinct) (requests : List Request) :
    (x.run requests).filter.log.Distinct := by
  induction requests generalizing x with
  | nil => exact h
  | cons request requests ih => exact ih (distinct_step h request)

/-- Observers have been told of entries that are in the log, in the order of the log. -/
theorem sublist_run {x : Desk} (h : x.filter.observed.Sublist x.filter.log.entries)
    (requests : List Request) :
    (x.run requests).filter.observed.Sublist (x.run requests).filter.log.entries := by
  induction requests generalizing x with
  | nil => exact h
  | cons request requests ih =>
      refine ih ?_
      obtain ⟨caught, -, hentries⟩ := x.entries_step request
      rw [observed_step, hentries]
      exact (h.trans (List.sublist_append_left _ _)).append (List.Sublist.refl _)

/-! ### Entries that had to wait -/

/-- The entries that are held after any of the requests. -/
def waited (x : Desk) (requests : List Request) : List Decision :=
  requests.inits.flatMap fun before => (x.run before).filter.held

theorem mem_waited {x : Desk} {requests : List Request} {d : Decision} :
    d ∈ x.waited requests ↔ ∃ before, before <+: requests ∧ d ∈ (x.run before).filter.held := by
  simp only [waited, List.mem_flatMap, List.mem_inits]

theorem mem_waited_concat {x : Desk} {requests : List Request} {request : Request}
    {d : Decision} : d ∈ x.waited (requests ++ [request]) ↔
      d ∈ x.waited requests ∨ d ∈ (x.run (requests ++ [request])).filter.held := by
  simp only [mem_waited, List.prefix_concat_iff]
  constructor
  · rintro ⟨before, rfl | hbefore, hd⟩
    · exact .inr hd
    · exact .inl ⟨before, hbefore, hd⟩
  · rintro (⟨before, hbefore, hd⟩ | hd)
    · exact ⟨before, .inr hbefore, hd⟩
    · exact ⟨_, .inl rfl, hd⟩

/-- An entry that is held is not in the log. -/
theorem InStep.not_mem_held {x : Desk} {ids : List DecisionId} (h : x.InStep ids) {d : Decision}
    (hd : d ∈ x.filter.log.entries) : d ∉ x.filter.held := by
  have hbooked : (x.filter.log.entries ++ x.filter.held).Nodup := h.nodup.of_map _
  exact fun hheld => (List.nodup_append'.1 hbooked).2.2 hd hheld

section

variable (version : String) (budget : Nat) (logRefuses ledgerRefuses : Nat → Bool)
  {requests : List Request}

theorem drawn_of_mem_waited (hids : (drawn requests).Nodup) {d : Decision}
    (hd : d ∈ (blank version budget logRefuses ledgerRefuses).waited requests) :
    d.id ∈ drawn requests := by
  obtain ⟨before, hbefore, hheld⟩ := mem_waited.1 hd
  have hdrawn : (drawn before).Sublist (drawn requests) := hbefore.sublist.filterMap _
  have hstep := inStep_run version budget logRefuses ledgerRefuses (hids.sublist hdrawn)
  exact hdrawn.subset (hstep.drawn d (List.mem_append_right _ hheld))

/-- Observers have been told of the entries in the log that never had to wait. -/
theorem observed_eq_filter (hids : (drawn requests).Nodup) :
    let x := blank version budget logRefuses ledgerRefuses
    (x.run requests).filter.observed =
      (x.run requests).filter.log.entries.filter fun d => d ∉ x.waited requests := by
  intro x
  induction requests using List.reverseRecOn with
  | nil => rfl
  | append_singleton requests request ih =>
      have hafter : (x.run (requests ++ [request])).InStep (drawn (requests ++ [request])) :=
        inStep_run version budget logRefuses ledgerRefuses hids
      rw [drawn_concat] at hids
      obtain ⟨hbefore, -, hnew⟩ := List.nodup_append'.1 hids
      obtain ⟨caught, hcaught, hentries⟩ := (x.run requests).entries_step request
      rw [← run_concat] at hentries
      have hsame : (x.run (requests ++ [request])).filter.log.entries.filter
          (fun d => d ∉ x.waited (requests ++ [request])) =
          (x.run (requests ++ [request])).filter.log.entries.filter
            (fun d => d ∉ x.waited requests) := by
        refine List.filter_congr fun d hd => decide_eq_decide.2 (not_congr ?_)
        rw [mem_waited_concat, or_iff_left (hafter.not_mem_held hd)]
      rw [hsame, hentries, List.filter_append, List.filter_append, run_concat, observed_step,
        ih hbefore]
      -- what was held has waited; the entry of the message itself has not, for its identifier is new
      have hold : caught.filter (fun d => d ∉ x.waited requests) = [] := by
        refine List.filter_eq_nil_iff.2 fun d hd => ?_
        have hwaited : d ∈ x.waited requests :=
          mem_waited.2 ⟨requests, List.prefix_rfl, hcaught hd⟩
        simpa using hwaited
      have hown : ((x.run requests).decided? request).toList.filter
          (fun d => d ∉ x.waited requests) = ((x.run requests).decided? request).toList := by
        refine List.filter_eq_self.2 fun d hd => ?_
        have hid := id_of_decided? (Option.mem_toList.1 hd)
        have hunseen : d ∉ x.waited requests := fun hwaited =>
          hnew (drawn_of_mem_waited version budget logRefuses ledgerRefuses hbefore hwaited)
            (Option.mem_toList.2 hid)
        simpa using hunseen
      rw [hold, hown, List.append_nil]

end

/-- Observers are told of the entries of the messages that are answered, one after the other. All of
these are in the log, in this order, and none is there twice. What is in the log besides had to be
held before: nobody is told of an entry that goes into the log after the failure of its own message,
and observers know the whole log if and only if there is no such entry. -/
theorem observers_told (version : String) (budget : Nat) (logRefuses ledgerRefuses : Nat → Bool)
    (requests : List Request) :
    let x := blank version budget logRefuses ledgerRefuses
    let f := (x.run requests).filter
    f.observed = x.answered requests ∧ f.observed.Sublist f.log.entries ∧
      (f.log.entries.map Decision.id).Nodup ∧
      ((drawn requests).Nodup →
        f.observed = f.log.entries.filter (fun d => d ∉ x.waited requests) ∧
          (f.observed = f.log.entries ↔ ∀ d ∈ f.log.entries, d ∉ x.waited requests)) := by
  intro x f
  have hdistinct : x.filter.log.Distinct := List.nodup_nil
  refine ⟨x.observed_run requests, sublist_run (x := x) .slnil requests,
    distinct_run hdistinct requests, fun hids => ?_⟩
  have htold : f.observed = f.log.entries.filter fun d => d ∉ x.waited requests :=
    observed_eq_filter version budget logRefuses ledgerRefuses hids
  refine ⟨htold, ?_⟩
  rw [htold, List.filter_eq_self]
  simp only [decide_eq_true_eq]

/-- A desk where the log refuses the first entry, which is logged along with the second. -/
def tardy : Desk := blank "1" 200 (· = 1) fun _ => false

theorem observers_told_of_tardy :
    (drawn (repeated [1, 2, 3])).Nodup ∧
      (tardy.waited (repeated [1, 2, 3])).map Decision.id = [⟨.ofNat 1⟩] ∧
      (tardy.run (repeated [1, 2, 3])).filter.log.entries.map Decision.id =
        [⟨.ofNat 1⟩, ⟨.ofNat 2⟩, ⟨.ofNat 3⟩] ∧
      (tardy.run (repeated [1, 2, 3])).filter.observed.map Decision.id =
        [⟨.ofNat 2⟩, ⟨.ofNat 3⟩] := by
  have hids : (drawn (repeated [1, 2, 3])).Nodup := by decide +kernel
  have htold : (tardy.run (repeated [1, 2, 3])).filter.observed =
      (tardy.run (repeated [1, 2, 3])).filter.log.entries.filter fun d =>
        d ∉ tardy.waited (repeated [1, 2, 3]) :=
    ((observers_told "1" 200 (· = 1) (fun _ => false) _).2.2.2 hids).1
  refine ⟨hids, by decide +kernel, by decide +kernel, ?_⟩
  rw [htold]
  decide +kernel

/-- The first entry goes into the log, and observers never hear of it. -/
theorem unobserved_when_logged_late :
    (tardy.run (repeated [1, 2])).filter.log.entries.map Decision.id =
        [⟨.ofNat 1⟩, ⟨.ofNat 2⟩] ∧
      (tardy.run (repeated [1, 2])).filter.observed.map Decision.id = [⟨.ofNat 2⟩] ∧
      (tardy.run (repeated [1, 2])).filter.observed ≠
        (tardy.run (repeated [1, 2])).filter.log.entries := by
  decide +kernel

end Desk

end Curia
