import Mathlib.Data.List.Induction
import Mathlib.Data.List.Nodup
import Curia.Filter.Basic
import Curia.Proofs.Ledger.Reports

/-!
How decisions are written down. An entry goes on the ledger and then into the log, and either may be
out of reach. What the ledger has and the log has not is held and goes into the log before anything
else, so the two never tell of different decisions or of the same ones in a different order.
-/

namespace Curia

/-! ### Decisions on the ledger -/

/-- The decision that the event tells of, if it tells of one. -/
def Event.decision? (e : Event) : Option DecisionId :=
  if e.kind = Decision.eventKind then
    (e.payload.member? "decision_id").bind fun v => (DecisionId.ofJson v).toOption
  else none

@[simp] theorem Decision.event_decision? (d : Decision) : d.event.decision? = some d.id := by
  have hkind : d.event.kind = eventKind := rfl
  have hmember : d.event.payload.member? "decision_id" = some d.id.toJson :=
    Json.member?_record ..
  rw [Event.decision?, if_pos hkind, hmember, Option.bind_some, DecisionId.ofJson_toJson]
  rfl

/-- The decisions that the ledger tells of, in their order. -/
def Ledger.decisions (l : Ledger) : List DecisionId := l.events.filterMap Event.decision?

/-! ### Into the log -/

/-- An attempt to append fails and adds nothing, or it adds the entry. The ledger has no part in a
failure. -/
theorem DecisionLog.append_cases (l : DecisionLog) (d : Decision) :
    (∃ e l', l.append d = (.error e, l') ∧ l'.entries = l.entries ∧ ∀ err, e ≠ .ledger err) ∨
      ∃ l', l.append d = (.ok (), l') ∧ l'.entries = l.entries ++ [d] := by
  rw [append]
  split
  · exact .inl ⟨_, _, rfl, rfl, fun err h => nomatch h⟩
  · split
    · exact .inl ⟨_, _, rfl, rfl, fun err h => nomatch h⟩
    · exact .inr ⟨_, rfl, rfl⟩

namespace Filter

/-- Held entries go into the log, all of them or those before the first that is refused. -/
theorem logHeld_cases (held : List Decision) (log : DecisionLog) :
    (∃ log', logHeld held log = (.ok (), [], log') ∧ log'.entries = log.entries ++ held) ∨
      ∃ e logged d rest log', logHeld held log = (.error e, d :: rest, log') ∧
        held = logged ++ d :: rest ∧ log'.entries = log.entries ++ logged := by
  induction held generalizing log with
  | nil => exact .inl ⟨log, rfl, (List.append_nil _).symm⟩
  | cons d ds ih =>
      obtain ⟨e, l', happend, hl, -⟩ | ⟨l', happend, hl⟩ := log.append_cases d
      · refine .inr ⟨e, [], d, ds, l', ?_, rfl, by rw [hl, List.append_nil]⟩
        rw [logHeld, happend]
      · have hheld : logHeld (d :: ds) log = logHeld ds l' := by rw [logHeld, happend]
        obtain ⟨log', hrest, hlog⟩ | ⟨e, logged, x, rest, log', hrest, hds, hlog⟩ := ih l'
        · refine .inl ⟨log', hheld.trans hrest, ?_⟩
          rw [hlog, hl, List.append_assoc, List.singleton_append]
        · refine .inr ⟨e, d :: logged, x, rest, log', hheld.trans hrest, ?_, ?_⟩
          · rw [hds, List.cons_append]
          · rw [hlog, hl, List.append_assoc, List.singleton_append]

/-- The entries that are in the log and, behind them, those that are held. -/
def booked (f : Filter) : List Decision := f.log.entries ++ f.held

theorem entries_of_held_eq_nil {f : Filter} (h : f.held = []) : f.log.entries = f.booked := by
  rw [booked, h, List.append_nil]

/-! ### Writing down one entry -/

/-- How the attempt to write an entry down may end: with an answer, which is `a` if the attempt is
successful, and with a filter and a ledger. -/
inductive Attempt {α : Type} (f : Filter) (l : Ledger) (d : Decision) (a : α) :
    Except FilterError α → Filter → Ledger → Prop where
  /-- An entry that is held cannot be logged. -/
  | stalled {e f' l'} (stalls : (logHeld f.held f.log).1 = .error e) (events : l'.events = l.events)
      (booked : f'.booked = f.booked) (grows : f.log.entries <+: f'.log.entries) :
      Attempt f l d a (.error e) f' l'
  /-- The ledger refuses the event. -/
  | refused {e f' l'} (events : l'.events = l.events) (booked : f'.booked = f.booked)
      (held : f'.held = []) : Attempt f l d a (.error (.ledger e)) f' l'
  /-- The event is on the ledger, and the entry itself is held. -/
  | late {e f' l'} (clears : (logHeld f.held f.log).1 = .ok ()) (error : ∀ err, e ≠ .ledger err)
      (events : l'.events = l.events ++ [d.event]) (booked : f'.booked = f.booked ++ [d])
      (held : f'.held = [d]) : Attempt f l d a (.error e) f' l'
  | logged {f' l'} (clears : (logHeld f.held f.log).1 = .ok ())
      (events : l'.events = l.events ++ [d.event]) (booked : f'.booked = f.booked ++ [d])
      (held : f'.held = []) : Attempt f l d a (.ok a) f' l'

theorem audit_attempt (f : Filter) (l : Ledger) (d : Decision) :
    Attempt f l d () (f.audit l d).1 (f.audit l d).2.1 (f.audit l d).2.2 := by
  rw [audit]
  -- three things can fail in turn: to log what is held, to append the event, to log the entry
  obtain ⟨log, hheld, hlog⟩ | ⟨e, logged, x, rest, log, hheld, hsplit, hlog⟩ :=
    logHeld_cases f.held f.log
  · have hclears : (logHeld f.held f.log).1 = .ok () := by rw [hheld]
    simp only [hheld]
    obtain ⟨e, l', happend, hl⟩ | ⟨l', happend, hl⟩ := l.append_cases d.event
    · rw [happend]
      exact .refused hl (by rw [booked, booked, hlog, List.append_nil]) rfl
    · rw [happend]
      simp only
      obtain ⟨e, log', hown, hlog', herror⟩ | ⟨log', hown, hlog'⟩ := log.append_cases d
      · rw [hown]
        exact .late hclears herror hl (by rw [booked, booked, hlog', hlog, List.nil_append]) rfl
      · rw [hown]
        exact .logged hclears hl (by rw [booked, booked, hlog', hlog, List.append_nil]) rfl
  · simp only [hheld]
    refine .stalled (by rw [hheld]) rfl ?_ (hlog ▸ List.prefix_append _ _)
    rw [booked, booked, hlog, hsplit, List.append_assoc]

namespace Attempt

variable {α β : Type} {f f' : Filter} {l l' : Ledger} {d : Decision} {a : α}
  {answer : Except FilterError α}

theorem of_error {e : FilterError} (h : Attempt f l d a (.error e) f' l') (b : β) :
    Attempt f l d b (.error e) f' l' := by
  cases h with
  | stalled stalls events booked grows => exact .stalled stalls events booked grows
  | refused events booked held => exact .refused events booked held
  | late clears error events booked held => exact .late clears error events booked held

/-- Ledger and log do not go apart: either both books are as they were, or both tell of the entry
in the end. -/
theorem books_cases (h : Attempt f l d a answer f' l') :
    (l'.events = l.events ∧ f'.booked = f.booked) ∨
      (l'.events = l.events ++ [d.event] ∧ f'.booked = f.booked ++ [d]) := by
  cases h with
  | stalled _ events booked _ => exact .inl ⟨events, booked⟩
  | refused events booked _ => exact .inl ⟨events, booked⟩
  | late _ _ events booked _ => exact .inr ⟨events, booked⟩
  | logged _ events booked _ => exact .inr ⟨events, booked⟩

theorem of_ok {b : α} (h : Attempt f l d a (.ok b) f' l') :
    b = a ∧ l'.events = l.events ++ [d.event] ∧ f'.log.entries = f.booked ++ [d] := by
  cases h with
  | logged _ events booked held =>
      refine ⟨rfl, events, ?_⟩
      rw [← booked, entries_of_held_eq_nil held]

/-- No entry is made if the ledger refuses its event or if it is not yet the turn of the entry. -/
theorem of_fails (h : Attempt f l d a answer f' l')
    (hfails : (∃ e, answer = .error (.ledger e)) ∨
      ∃ e, (logHeld f.held f.log).1 = .error e) :
    l'.events = l.events ∧ f'.booked = f.booked := by
  cases h with
  | stalled _ events booked _ => exact ⟨events, booked⟩
  | refused events booked _ => exact ⟨events, booked⟩
  | late clears error _ _ _ =>
      rcases hfails with ⟨e, he⟩ | ⟨e, he⟩
      · exact absurd (Except.error.inj he) (error e)
      · exact nomatch clears.symm.trans he
  | logged clears _ _ _ =>
      rcases hfails with ⟨e, he⟩ | ⟨e, he⟩
      · cases he
      · exact nomatch clears.symm.trans he

/-- Nothing is taken off the books. -/
theorem prefixes (h : Attempt f l d a answer f' l') :
    l.events <+: l'.events ∧ f.log.entries <+: f'.log.entries := by
  have hbooked : f.log.entries <+: f.booked := List.prefix_append _ _
  cases h with
  | stalled _ events _ grows => exact ⟨events ▸ List.prefix_rfl, grows⟩
  | refused events booked held =>
      refine ⟨events ▸ List.prefix_rfl, ?_⟩
      rw [entries_of_held_eq_nil held, booked]
      exact hbooked
  | late _ _ events booked held =>
      refine ⟨events ▸ List.prefix_append _ _, ?_⟩
      -- the last of the entries that are booked is the one that is held
      rw [Filter.booked, held] at booked
      rw [List.append_cancel_right booked]
      exact hbooked
  | logged _ events booked held =>
      refine ⟨events ▸ List.prefix_append _ _, ?_⟩
      rw [entries_of_held_eq_nil held, booked]
      exact hbooked.trans (List.prefix_append _ _)

end Attempt

/-! ### Results -/

theorem release_accepted (text : String) {content : String} {r : FilterResult String}
    {changes : List Change} (h : r.verdict = .accepted content changes) :
    (release text r).verdict =
      .accepted ⟨content, Digest.ofText text, r.filterVersion, r.timestamp⟩ changes := by
  rw [release, FilterResult.map, h]
  rfl

theorem accepted_of_release {text : String} {r : FilterResult String} {released : Released}
    {changes : List Change} (h : (release text r).verdict = .accepted released changes) :
    r.verdict = .accepted released.text changes := by
  rw [release, FilterResult.map] at h
  cases hverdict : r.verdict with
  | accepted content changes' =>
      rw [hverdict] at h
      cases h
      rfl
  | rejected reason =>
      rw [hverdict] at h
      cases h
  | blocked violation details =>
      rw [hverdict] at h
      cases h

/-- A text that may be delivered tells where it comes from. -/
theorem eq_of_release {text : String} {r : FilterResult String} {content : Released}
    {changes : List Change} (h : (release text r).verdict = .accepted content changes) :
    content = ⟨content.text, Digest.ofText text, r.filterVersion, r.timestamp⟩ := by
  have hrelease := release_accepted text (accepted_of_release h)
  rw [h] at hrelease
  exact (Verdict.accepted.inj hrelease).1

section

variable (f : Filter) (library : Option Library) (c : Clock) (text : String) (kind : MessageKind)
  (submitter : String) (id : DecisionId)

/-- The result of a message, which is what gets audited. -/
def resultOf : FilterResult Released := release text (f.evaluate library c text).1

/-- To filter a message is to write its result down. -/
theorem run_attempt (l : Ledger) :
    Attempt f l (.ofResult id (f.resultOf library c text) text kind submitter)
      (f.resultOf library c text) (f.run library c l text kind submitter id).1
      (f.run library c l text kind submitter id).2.1
      (f.run library c l text kind submitter id).2.2.2 := by
  have h := f.audit_attempt l (.ofResult id (f.resultOf library c text) text kind submitter)
  rw [run]
  simp only [resultOf] at h ⊢
  split
  · next haudit =>
    rw [haudit] at h
    exact h.of_error _
  · next haudit =>
    rw [haudit] at h
    cases h with
    | logged clears events booked held => exact .logged clears events booked held

end

/-- A message is answered only when its entry is the last one on the ledger and in the log. -/
theorem run_eq_ok {f : Filter} {library : Option Library} {c : Clock} {l : Ledger} {text : String}
    {kind : MessageKind} {submitter : String} {id : DecisionId} {r : FilterResult Released}
    (h : (f.run library c l text kind submitter id).1 = .ok r) :
    r = f.resultOf library c text ∧
      (f.run library c l text kind submitter id).2.2.2.events =
        l.events ++ [(Decision.ofResult id r text kind submitter).event] ∧
      (f.run library c l text kind submitter id).2.1.log.entries =
        f.booked ++ [.ofResult id r text kind submitter] := by
  have hattempt := f.run_attempt library c text kind submitter id l
  rw [h] at hattempt
  obtain ⟨rfl, hevents, hentries⟩ := hattempt.of_ok
  exact ⟨rfl, hevents, hentries⟩

end Filter

/-! ### A filter at work -/

/-- A filter and the ledger that it writes to. -/
structure Desk where
  filter : Filter
  ledger : Ledger

namespace Desk

/-- What may be asked of a filter. -/
inductive Request where
  | filter (library : Option Library) (c : Clock) (text : String) (kind : MessageKind)
      (submitter : String) (id : DecisionId)
  | preview (library : Option Library) (c : Clock) (text : String)

/-- The identifier that is drawn for the decision. -/
def Request.id? : Request → Option DecisionId
  | .filter _ _ _ _ _ id => some id
  | .preview .. => none

/-- The identifiers that are drawn, in the order of the requests. -/
def drawn (requests : List Request) : List DecisionId := requests.filterMap Request.id?

/-- A desk where nothing has been decided yet. Any attempt to append may find the log or the ledger
out of reach. -/
def blank (version : String) (budget : Nat) (logRefuses ledgerRefuses : Nat → Bool) : Desk where
  filter := { Filter.new version budget with log.refuses := logRefuses }
  ledger := { Ledger.empty with refuses := ledgerRefuses }

/-- The answer to a message that is to be filtered, and the desk afterwards. -/
def serve (x : Desk) (library : Option Library) (c : Clock) (text : String) (kind : MessageKind)
    (submitter : String) (id : DecisionId) : Except FilterError (FilterResult Released) × Desk :=
  let r := x.filter.run library c x.ledger text kind submitter id
  (r.1, ⟨r.2.1, r.2.2.2⟩)

def step (x : Desk) : Request → Desk
  | .filter library c text kind submitter id => (x.serve library c text kind submitter id).2
  | .preview .. => x

def run (x : Desk) (requests : List Request) : Desk := requests.foldl step x

theorem run_concat (x : Desk) (requests : List Request) (request : Request) :
    x.run (requests ++ [request]) = (x.run requests).step request :=
  List.foldl_append

/-- The ledger tells of the entries that are in the log or held, one by one, and of nothing else; no
two have one identifier, and all their identifiers have been drawn. -/
structure InStep (x : Desk) (ids : List DecisionId) : Prop where
  events : x.ledger.events = x.filter.booked.map Decision.event
  nodup : (x.filter.booked.map Decision.id).Nodup
  drawn : ∀ d ∈ x.filter.booked, d.id ∈ ids

namespace InStep

variable {x y : Desk} {ids : List DecisionId}

theorem decisions (h : x.InStep ids) : x.ledger.decisions = x.filter.booked.map Decision.id := by
  rw [Ledger.decisions, h.events, List.filterMap_map]
  have hid : Event.decision? ∘ Decision.event = fun d => some d.id := by
    funext d
    rw [Function.comp_apply, Decision.event_decision?]
  rw [hid, List.filterMap_eq_map']

theorem not_mem_decisions (h : x.InStep ids) {id : DecisionId} (hid : id ∉ ids) :
    id ∉ x.ledger.decisions := by
  rw [h.decisions, List.mem_map]
  rintro ⟨d, hd, rfl⟩
  exact hid (h.drawn d hd)

theorem blank (version : String) (budget : Nat) (logRefuses ledgerRefuses : Nat → Bool) :
    (blank version budget logRefuses ledgerRefuses).InStep [] :=
  ⟨rfl, List.nodup_nil, fun d hd => by cases hd⟩

/-- Nothing has been written down under the identifier that was drawn. -/
theorem keep (h : x.InStep ids) (hevents : y.ledger.events = x.ledger.events)
    (hbooked : y.filter.booked = x.filter.booked) (id : DecisionId) : y.InStep (ids ++ [id]) := by
  refine ⟨by rw [hevents, hbooked, h.events], hbooked ▸ h.nodup, fun d hd => ?_⟩
  rw [hbooked] at hd
  exact List.mem_append_left _ (h.drawn d hd)

/-- An entry has been written down under the identifier that was drawn. -/
theorem add (h : x.InStep ids) {d : Decision} (hid : d.id ∉ ids)
    (hevents : y.ledger.events = x.ledger.events ++ [d.event])
    (hbooked : y.filter.booked = x.filter.booked ++ [d]) : y.InStep (ids ++ [d.id]) := by
  refine ⟨?_, ?_, fun e he => ?_⟩
  · rw [hevents, hbooked, h.events, List.map_append, List.map_singleton]
  · rw [hbooked, List.map_append, List.map_singleton, ← List.concat_eq_append, List.nodup_concat]
    refine ⟨fun hmem => ?_, h.nodup⟩
    obtain ⟨e, he, heq⟩ := List.mem_map.1 hmem
    exact hid (heq ▸ h.drawn e he)
  · rw [hbooked] at he
    rcases List.mem_append.1 he with he | he
    · exact List.mem_append_left _ (h.drawn e he)
    · rw [List.mem_singleton.1 he]
      exact List.mem_append_right _ List.mem_cons_self

theorem step (h : x.InStep ids) {request : Request} (hid : ∀ id ∈ request.id?, id ∉ ids) :
    (x.step request).InStep (ids ++ request.id?.toList) := by
  cases request with
  | filter library c text kind submitter id =>
      obtain ⟨hevents, hbooked⟩ | ⟨hevents, hbooked⟩ :=
        (x.filter.run_attempt library c text kind submitter id x.ledger).books_cases
      · exact h.keep hevents hbooked id
      · exact h.add (y := x.step (.filter library c text kind submitter id)) (hid id rfl) hevents
          hbooked
  | preview library c text =>
      show x.InStep (ids ++ [])
      rw [List.append_nil]
      exact h

end InStep

theorem drawn_concat (requests : List Request) (request : Request) :
    drawn (requests ++ [request]) = drawn requests ++ request.id?.toList := by
  rw [drawn, List.filterMap_append, drawn]
  cases request <;> rfl

/-- Whatever fails, ledger and log keep in step as long as no identifier is drawn twice. -/
theorem inStep_run (version : String) (budget : Nat) (logRefuses ledgerRefuses : Nat → Bool)
    {requests : List Request} (hids : (drawn requests).Nodup) :
    ((blank version budget logRefuses ledgerRefuses).run requests).InStep (drawn requests) := by
  -- from the end: the last identifier has to differ from all that were drawn before it
  induction requests using List.reverseRecOn with
  | nil => exact .blank version budget logRefuses ledgerRefuses
  | append_singleton requests request ih =>
      rw [drawn_concat] at hids ⊢
      obtain ⟨hbefore, -, hnew⟩ := List.nodup_append'.1 hids
      rw [run_concat]
      refine (ih hbefore).step fun id hid hmem => hnew hmem ?_
      exact Option.mem_toList.2 hid

/-- The decisions that the ledger tells of are those in the log and, behind them, those that are
held, and no decision is told of twice. A message is answered with its result only when the entry
is in both books; no entry is made where the ledger refuses its event or where entries that are held
cannot be logged first. -/
theorem never_drifts (version : String) (budget : Nat) (logRefuses ledgerRefuses : Nat → Bool)
    {requests : List Request} (hids : (drawn requests).Nodup) :
    let x := (blank version budget logRefuses ledgerRefuses).run requests
    x.ledger.decisions =
        x.filter.log.entries.map Decision.id ++ x.filter.held.map Decision.id ∧
      x.ledger.decisions.Nodup ∧
      ∀ library c text kind submitter id, id ∉ drawn requests →
        let served := x.serve library c text kind submitter id
        (∀ r, served.1 = .ok r →
          .ofResult id r text kind submitter ∈ served.2.filter.log.entries ∧
            (Decision.ofResult id r text kind submitter).event ∈ served.2.ledger.events) ∧
        ((∃ e, served.1 = .error (.ledger e)) ∨
            (∃ e, (Filter.logHeld x.filter.held x.filter.log).1 = .error e) →
          served.2.ledger.events = x.ledger.events ∧ id ∉ served.2.ledger.decisions ∧
            (∀ d ∈ served.2.filter.log.entries, d.id ≠ id) ∧
            ∀ d ∈ served.2.filter.held, d.id ≠ id) := by
  intro x
  have hx : x.InStep (drawn requests) :=
    inStep_run version budget logRefuses ledgerRefuses hids
  refine ⟨?_, hx.decisions ▸ hx.nodup, fun library c text kind submitter id hid => ?_⟩
  · rw [hx.decisions, Filter.booked, List.map_append]
  intro served
  refine ⟨fun r hr => ?_, fun hfails => ?_⟩
  · obtain ⟨-, hevents, hentries⟩ := Filter.run_eq_ok hr
    change served.2.ledger.events = _ at hevents
    change served.2.filter.log.entries = _ at hentries
    rw [hevents, hentries]
    exact ⟨List.mem_append_right _ List.mem_cons_self, List.mem_append_right _ List.mem_cons_self⟩
  · obtain ⟨hevents, hbooked⟩ :=
      (x.filter.run_attempt library c text kind submitter id x.ledger).of_fails hfails
    change served.2.ledger.events = x.ledger.events at hevents
    change served.2.filter.booked = x.filter.booked at hbooked
    have hnew (d : Decision) (hd : d ∈ served.2.filter.booked) : d.id ≠ id := by
      rintro rfl
      exact hid (hx.drawn d (hbooked ▸ hd))
    refine ⟨hevents, ?_, fun d hd => ?_, fun d hd => ?_⟩
    · rw [Ledger.decisions, hevents]
      exact hx.not_mem_decisions hid
    · exact hnew d (List.mem_append_left _ hd)
    · exact hnew d (List.mem_append_right _ hd)

/-- The same message, filtered under a number of identifiers. -/
def repeated (ids : List Nat) : List Request :=
  ids.map fun n => .filter none (.start .epoch 0) "text" .reminder "a" ⟨.ofNat n⟩

/-- A desk where the first entry is logged late, the second message leaves no trace, and the last
entry is held. -/
def mishap : Desk :=
  (blank "1" 200 (fun n => n = 1 ∨ n = 4) (· = 2)).run
    (repeated [1, 2] ++ .preview none (.start .epoch 0) "text" :: repeated [3, 4])

theorem never_drifts_after_failures :
    (drawn (repeated [1, 2] ++ .preview none (.start .epoch 0) "text" :: repeated [3, 4])).Nodup ∧
      mishap.filter.log.entries.map Decision.id = [⟨.ofNat 1⟩, ⟨.ofNat 3⟩] ∧
      mishap.filter.held.map Decision.id = [⟨.ofNat 4⟩] ∧
      mishap.ledger.decisions = [⟨.ofNat 1⟩, ⟨.ofNat 3⟩, ⟨.ofNat 4⟩] := by
  have hids : (drawn (repeated [1, 2] ++
      .preview none (.start .epoch 0) "text" :: repeated [3, 4])).Nodup := by decide +kernel
  have hlogged : mishap.filter.log.entries.map Decision.id = [⟨.ofNat 1⟩, ⟨.ofNat 3⟩] := by
    decide +kernel
  have hheld : mishap.filter.held.map Decision.id = [⟨.ofNat 4⟩] := by decide +kernel
  have hdecisions : mishap.ledger.decisions =
      mishap.filter.log.entries.map Decision.id ++ mishap.filter.held.map Decision.id :=
    (never_drifts "1" 200 (fun n => n = 1 ∨ n = 4) (· = 2) hids).1
  rw [hlogged, hheld] at hdecisions
  exact ⟨hids, hlogged, hheld, hdecisions⟩

end Desk

end Curia
