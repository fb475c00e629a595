import Mathlib.Data.List.Induction
import Curia.Proofs.Chamber.Completing

/-!
How far the deliberation of each session has got. The chamber's entries on a session and the reports
on the ledger go through the same stages together: nothing, the dissent and the disposition, the
report of the completion, and in the end the report of the routing and the outcome. Whatever fails,
the next call for the session goes on from the stage that was reached.
-/

namespace Curia

namespace Sitting

/-- What a chamber has of the deliberation of a session. -/
structure Entry where
  dissent : Option Dissent
  disposition : Option Disposition
  /-- The number of the report of the completion, while that of the routing is missing. -/
  number : Option Nat
  outcome : Option Completed

def entry (x : Sitting) (s : SessionId) : Entry :=
  ⟨x.chamber.recorder.store.ofSession? s, x.chamber.router.emitted.get? s,
    x.chamber.appended.get? s, x.chamber.completed.get? s⟩

/-- A dissent and a disposition repeat the consensus that was counted when all had voted. -/
structure Grounds (u : Session) (c : Consensus) (dissent : Option Dissent) (d : Disposition) :
    Prop where
  allVoted : u.AllVoted
  counts : ∃ winner now, c.Counts u winner now
  disposition : d.Follows u c
  dissent_isSome : dissent.isSome = c.dissenter.isSome
  dissent : ∀ r, dissent = some r → r.Follows u c

/-- There is such a state among those that have been passed. -/
def Grounded (history : List Session) (s : SessionId) (c : Consensus) (dissent : Option Dissent)
    (d : Disposition) : Prop :=
  ∃ u ∈ history, u.id = s ∧ Grounds u c dissent d

/-- The report of a dissent, if there is one. -/
def Told : Option Dissent → List Event → Prop
  | none, es => es = []
  | some r, es => ∃ id, es = [r.event id]

/-- The deliberation has been routed, and perhaps its completion has been reported. -/
structure Underway (base : List Event) (history : List Session) (x : Sitting) (s : SessionId)
    (c : Consensus) (dissent : Option Dissent) (d : Disposition) (number : Option Nat) : Prop where
  grounded : Grounded history s c dissent d
  entry : x.entry s = ⟨dissent, some d, number, none⟩
  reports : ∃ es, Told dissent es ∧
    x.ledger.reportsOf s = base ++ es ++ number.toList.map fun _ => d.completion.event
  number : ∀ n, number = some n → x.ledger.event? n = some d.completion.event

/-- The deliberation has been completed with an outcome. -/
structure Closed (base : List Event) (history : List Session) (x : Sitting) (s : SessionId)
    (out : Completed) : Prop where
  grounded : Grounded history s out.consensus out.dissent out.disposition
  entry : x.entry s = ⟨out.dissent, some out.disposition, none, some out⟩
  reports : ∃ es, Told out.dissent es ∧ x.ledger.reportsOf s =
    base ++ es ++ [out.disposition.completion.event, out.disposition.routing.event]
  completion : x.ledger.event? out.completionSequence = some out.disposition.completion.event
  routing : x.ledger.event? out.routingSequence = some out.disposition.routing.event

/-- The stages of a deliberation; the base is what the ledger said of the session before. -/
inductive Stage (base : List Event) (history : List Session) (x : Sitting) (s : SessionId) : Prop
  | idle (entry : x.entry s = ⟨none, none, none, none⟩) (reports : x.ledger.reportsOf s = base)
  | underway (c : Consensus) (dissent : Option Dissent) (d : Disposition) (number : Option Nat)
      (h : Underway base history x s c dissent d number)
  | closed (out : Completed) (h : Closed base history x s out)

/-! ### Sessions that are left alone -/

/-- Nothing has happened to a session. -/
structure Kept (x y : Sitting) (s : SessionId) : Prop where
  entry : y.entry s = x.entry s
  reports : y.ledger.reportsOf s = x.ledger.reportsOf s
  grows : x.ledger.Grows y.ledger

theorem Kept.trans {x y z : Sitting} {s : SessionId} (h : Kept x y s) (h' : Kept y z s) :
    Kept x z s :=
  ⟨h'.entry.trans h.entry, h'.reports.trans h.reports, h.grows.trans h'.grows⟩

theorem Grounded.mono {history more : List Session} {s : SessionId} {c : Consensus}
    {dissent : Option Dissent} {d : Disposition} (h : Grounded history s c dissent d)
    (hmore : history ⊆ more) : Grounded more s c dissent d := by
  obtain ⟨u, hu, hid, hgrounds⟩ := h
  exact ⟨u, hmore hu, hid, hgrounds⟩

theorem Underway.kept {base : List Event} {history more : List Session} {x y : Sitting}
    {s : SessionId} {c : Consensus} {dissent : Option Dissent} {d : Disposition}
    {number : Option Nat} (h : Underway base history x s c dissent d number) (hxy : Kept x y s)
    (hmore : history ⊆ more) : Underway base more y s c dissent d number := by
  refine ⟨h.grounded.mono hmore, hxy.entry.trans h.entry, ?_, fun n hn => ?_⟩
  · rw [hxy.reports]
    exact h.reports
  · exact hxy.grows.event? (h.number n hn)

theorem Closed.kept {base : List Event} {history more : List Session} {x y : Sitting}
    {s : SessionId} {out : Completed} (h : Closed base history x s out) (hxy : Kept x y s)
    (hmore : history ⊆ more) : Closed base more y s out := by
  refine ⟨h.grounded.mono hmore, hxy.entry.trans h.entry, ?_, ?_, ?_⟩
  · rw [hxy.reports]
    exact h.reports
  · exact hxy.grows.event? h.completion
  · exact hxy.grows.event? h.routing

theorem Stage.kept {base : List Event} {history more : List Session} {x y : Sitting}
    {s : SessionId} (h : Stage base history x s) (hxy : Kept x y s) (hmore : history ⊆ more) :
    Stage base more y s := by
  cases h with
  | idle entry reports => exact .idle (hxy.entry.trans entry) (hxy.reports.trans reports)
  | underway c dissent d number h => exact .underway c dissent d number (h.kept hxy hmore)
  | closed out h => exact .closed out (h.kept hxy hmore)

theorem kept_of_events_eq {x : Sitting} {l : Ledger} (hl : l.events = x.ledger.events)
    (s : SessionId) : Kept x { x with ledger := l } s :=
  ⟨rfl, Ledger.reportsOf_of_eq hl s, .of_eq hl⟩

theorem Aside.kept {x y : Sitting} (h : Aside x y) (s : SessionId) : Kept x y s := by
  have hentry : y.entry s = x.entry s := by
    rw [entry, entry, h.recorder, h.emitted, h.appended, h.completed]
  rcases h.events with hl | ⟨e, he, hl⟩
  · exact ⟨hentry, Ledger.reportsOf_of_eq hl s, .of_eq hl⟩
  · refine ⟨hentry, ?_, .of_append hl fun h => absurd h he⟩
    rw [Ledger.reportsOf_append hl, if_neg fun h => he h.1, List.append_nil]

/-! ### Recording and routing -/

theorem entry_eq_iff {x : Sitting} {s : SessionId} {e : Entry} :
    x.entry s = e ↔ x.chamber.recorder.store.ofSession? s = e.dissent ∧
      x.chamber.router.emitted.get? s = e.disposition ∧ x.chamber.appended.get? s = e.number ∧
      x.chamber.completed.get? s = e.outcome := by
  rw [entry, Entry.mk.injEq]

theorem Witnessed.kept {r r' : Recorder} {l l' : Ledger} {s : Session} {c : Consensus}
    {d : Option Dissent} (h : Witnessed r l s c d r' l') {t : SessionId} (ht : s.id ≠ t) :
    r'.store.ofSession? t = r.store.ofSession? t ∧ l'.reportsOf t = l.reportsOf t := by
  cases h with
  | unanimous hc => exact ⟨rfl, rfl⟩
  | known d hc hd => exact ⟨rfl, rfl⟩
  | written d r' l' eventId hnone hd hl hr hstore =>
      refine ⟨by rw [hstore, if_neg ht], ?_⟩
      exact Ledger.reportsOf_of_ne hl (d.event_session? eventId) (hd.session ▸ ht)

theorem Witnessed.grows {r r' : Recorder} {l l' : Ledger} {s : Session} {c : Consensus}
    {d : Option Dissent} (h : Witnessed r l s c d r' l') : l.Grows l' := by
  cases h with
  | unanimous hc => exact .of_eq rfl
  | known d hc hd => exact .of_eq rfl
  | written d r' l' eventId hnone hd hl hr hstore =>
      exact .of_append hl fun _ => ⟨d.session, d.event_session? eventId⟩

theorem get?_emitted_of_ne {r r' : Router} {s : Session} {c : Consensus}
    {a : Except RoutingError Disposition} (h : r.Emitted s c (a, r')) {t : SessionId}
    (ht : s.id ≠ t) : r'.emitted.get? t = r.emitted.get? t := by
  cases h with
  | known d hd => rfl
  | refused e => rfl
  | fresh d hnone hfree hd hs =>
      rw [Router.get?_emitted_commit, hd.pending_session, hs.session, if_neg ht]

theorem Prepared.kept {x y : Sitting} {s : Session} {c : Consensus} {dissent : Option Dissent}
    {d : Disposition} (h : Prepared x s c dissent d y) {t : SessionId} (ht : s.id ≠ t) :
    Kept x y t := by
  obtain ⟨hstore, hreports⟩ := h.witnessed.kept ht
  refine ⟨?_, hreports, h.witnessed.grows⟩
  rw [entry, entry, hstore, get?_emitted_of_ne h.emitted ht, h.appended, h.completed]

/-- From nothing, a dissent and a disposition are made. -/
theorem Prepared.of_idle {base : List Event} {history : List Session} {x y : Sitting} {s : Session}
    {c : Consensus} {winner : Outcome} {now : Instant} {dissent : Option Dissent} {d : Disposition}
    (h : Prepared x s c dissent d y) (hall : s.AllVoted) (hc : c.Counts s winner now)
    (hentry : x.entry s.id = ⟨none, none, none, none⟩) (hbase : x.ledger.reportsOf s.id = base) :
    Underway base (history ++ [s]) y s.id c dissent d none := by
  obtain ⟨hstore, hemitted, happended, hcompleted⟩ := entry_eq_iff.1 hentry
  obtain ⟨⟨config, recorder, router, filter, completed, appended⟩, ledger⟩ := y
  obtain ⟨hwitnessed, hrouter, rfl, rfl⟩ := h
  simp only at hwitnessed hrouter
  have hdisposition : d.Follows s c ∧ router.emitted.get? s.id = some d := by
    cases hrouter with
    | known d hd =>
        rw [hemitted] at hd
        cases hd
    | fresh d hnone hfree hd hs =>
        refine ⟨hs, ?_⟩
        rw [Router.get?_emitted_commit, hd.pending_session, hs.session, if_pos rfl]
  have hgrounded (hsome : dissent.isSome = c.dissenter.isSome)
      (hdissent : ∀ r, dissent = some r → r.Follows s c) :
      Grounded (history ++ [s]) s.id c dissent d :=
    ⟨s, List.mem_append_right _ List.mem_cons_self, rfl,
      hall, ⟨winner, now, hc⟩, hdisposition.1, hsome, hdissent⟩
  cases hwitnessed with
  | unanimous hnone =>
      refine ⟨hgrounded (by rw [hnone]; rfl) fun r hr => (by cases hr), ?_, ⟨[], rfl, ?_⟩, ?_⟩
      · exact entry_eq_iff.2 ⟨hstore, hdisposition.2, happended, hcompleted⟩
      · simpa using hbase
      · intro n hn
        cases hn
  | known r hsome hr =>
      -- no dissent is stored for a session of which there is nothing
      rw [hstore] at hr
      cases hr
  | written r r' l' eventId hnone hr hl hsettled hput =>
      refine ⟨hgrounded (by rw [hr.archon]; rfl) fun r' h => ?_, ?_, ⟨[r.event eventId], ⟨_, rfl⟩, ?_⟩, ?_⟩
      · exact (Option.some.inj h) ▸ hr
      · refine entry_eq_iff.2 ⟨?_, hdisposition.2, happended, hcompleted⟩
        rw [hput, if_pos rfl]
      · rw [Ledger.reportsOf_of_isReport hl (hr.session ▸ r.event_session? eventId)
          (r.event_isReport eventId), hbase]
        simp
      · intro n hn
        cases hn

/-- What there is already is found again: nothing is made anew. -/
theorem Prepared.of_underway {base : List Event} {history : List Session} {x y : Sitting}
    {s : Session} {c c₀ : Consensus} {winner : Outcome} {now : Instant}
    {dissent dissent₀ : Option Dissent} {d d₀ : Disposition} {number : Option Nat}
    (h : Prepared x s c dissent d y) (hs : s.Valid)
    (hhistory : ∀ u ∈ history, u.id = s.id → u.Valid ∧ u.Akin s) (hall : s.AllVoted)
    (hc : c.Counts s winner now)
    (hunderway : Underway base history x s.id c₀ dissent₀ d₀ number) :
    Underway base (history ++ [s]) y s.id c dissent d number := by
  obtain ⟨⟨u, hu, hid, hgrounds⟩, hentry, hreports, hnumber⟩ := hunderway
  obtain ⟨hstore, hemitted, happended, hcompleted⟩ := entry_eq_iff.1 hentry
  obtain ⟨winner₀, now₀, hc₀⟩ := hgrounds.counts
  obtain ⟨huvalid, hakin⟩ := hhistory u hu hid
  have hsame : u.SameCount c₀ s c := hc₀.same hakin huvalid hs hgrounds.allVoted hall hc
  obtain ⟨⟨config, recorder, router, filter, completed, appended⟩, ledger⟩ := y
  obtain ⟨hwitnessed, hrouter, rfl, rfl⟩ := h
  simp only at hwitnessed hrouter
  have hdissent₀ : dissent₀.isSome = c.dissenter.isSome := by
    rw [hsame.dissenter, hgrounds.dissent_isSome]
  obtain ⟨rfl, rfl⟩ : d₀ = d ∧ router = x.chamber.router := by
    cases hrouter with
    | known d hd => exact ⟨Option.some.inj (hemitted.symm.trans hd), rfl⟩
    | fresh d hnone hfree hd hs =>
        rw [hemitted] at hnone
        cases hnone
  obtain ⟨rfl, rfl, rfl⟩ :
      dissent₀ = dissent ∧ recorder = x.chamber.recorder ∧ ledger = x.ledger := by
    cases hwitnessed with
    | unanimous hnone =>
        rw [hnone] at hdissent₀
        exact ⟨Option.isNone_iff_eq_none.1 (Option.isSome_eq_false_iff.1 hdissent₀), rfl, rfl⟩
    | known r hsome hr => exact ⟨hstore.symm.trans hr, rfl, rfl⟩
    | written r r' l' eventId hnone hr hl hsettled hput =>
        -- there was a dissent, and it was stored
        simp only at hstore
        rw [hstore] at hnone
        rw [hnone, hr.archon] at hdissent₀
        cases hdissent₀
  refine ⟨⟨s, List.mem_append_right _ List.mem_cons_self, rfl, hall, ⟨winner, now, hc⟩, ?_, ?_, ?_⟩,
    ?_, hreports, hnumber⟩
  · exact hgrounds.disposition.congr hsame
  · exact hdissent₀
  · exact fun r hr => (hgrounds.dissent r hr).congr hsame
  · exact entry_eq_iff.2 ⟨hstore, hemitted, happended, hcompleted⟩

/-! ### Reporting -/

theorem Grounded.session {history : List Session} {s : SessionId} {c : Consensus}
    {dissent : Option Dissent} {d : Disposition} (h : Grounded history s c dissent d) :
    d.completion.session = s := by
  obtain ⟨u, -, hid, hgrounds⟩ := h
  exact hgrounds.disposition.session.trans hid

theorem Appended.kept_of_ne {y z : Sitting} {s t : SessionId} {d : Disposition} {n : Nat}
    (h : Appended y s d n z) (hd : d.completion.session = s) (ht : s ≠ t) : Kept y z t := by
  cases h with
  | known n h => exact ⟨rfl, rfl, .of_eq rfl⟩
  | fresh l' hnone hl =>
      refine ⟨?_, ?_, .of_append hl fun _ => ⟨_, d.completion.event_session?⟩⟩
      · refine entry_eq_iff.2 ⟨rfl, rfl, ?_, rfl⟩
        exact (SortedMap.get?_insert ..).trans (if_neg ht)
      · exact Ledger.reportsOf_of_ne hl d.completion.event_session? (hd ▸ ht)

theorem Appended.underway {base : List Event} {history : List Session} {y z : Sitting}
    {s : SessionId} {c : Consensus} {dissent : Option Dissent} {d : Disposition}
    {number : Option Nat} {n : Nat} (h : Appended y s d n z)
    (hy : Underway base history y s c dissent d number) :
    Underway base history z s c dissent d (some n) := by
  obtain ⟨hstore, hemitted, happended, hcompleted⟩ := entry_eq_iff.1 hy.entry
  cases h with
  | known n h =>
      obtain rfl : number = some n := happended.symm.trans h
      exact hy
  | fresh l' hnone hl =>
      obtain rfl : number = none := happended.symm.trans hnone
      have hsession : d.completion.event.session? = some s :=
        hy.grounded.session ▸ d.completion.event_session?
      obtain ⟨es, htold, hreports⟩ := hy.reports
      refine ⟨hy.grounded, ?_, ⟨es, htold, ?_⟩, fun n hn => ?_⟩
      · refine entry_eq_iff.2 ⟨hstore, hemitted, ?_, hcompleted⟩
        exact (SortedMap.get?_insert ..).trans (if_pos rfl)
      · rw [Ledger.reportsOf_of_isReport hl hsession d.completion.event_isReport, hreports]
        simp
      · obtain rfl := Option.some.inj hn
        exact Ledger.event?_next hl

theorem closed_kept {z : Sitting} {l : Ledger} {s t : SessionId} {out : Completed}
    (hl : l.events = z.ledger.events ++ [out.disposition.routing.event])
    (hs : out.disposition.routing.session = s) (ht : s ≠ t) :
    Kept z ⟨closed z.chamber s out, l⟩ t := by
  refine ⟨?_, ?_, .of_append hl fun _ => ⟨_, out.disposition.routing.event_session?⟩⟩
  · refine entry_eq_iff.2 ⟨rfl, rfl, ?_, ?_⟩
    · exact (SortedMap.get?_erase ..).trans (if_neg ht)
    · exact (SortedMap.get?_insert ..).trans (if_neg ht)
  · exact Ledger.reportsOf_of_ne hl out.disposition.routing.event_session? (hs ▸ ht)

theorem Underway.closed {base : List Event} {history : List Session} {z : Sitting} {s : SessionId}
    {c : Consensus} {dissent : Option Dissent} {d : Disposition} {n : Nat} {l : Ledger}
    (hz : Underway base history z s c dissent d (some n))
    (hs : d.routing.session = d.completion.session)
    (hl : l.events = z.ledger.events ++ [d.routing.event]) :
    Closed base history
      ⟨Sitting.closed z.chamber s ⟨c, dissent, d, n, z.ledger.length + 1⟩, l⟩ s
      ⟨c, dissent, d, n, z.ledger.length + 1⟩ := by
  obtain ⟨hstore, hemitted, happended, hcompleted⟩ := entry_eq_iff.1 hz.entry
  obtain ⟨es, htold, hreports⟩ := hz.reports
  have hsession : d.routing.event.session? = some s := by
    rw [d.routing.event_session?, hs, hz.grounded.session]
  refine ⟨hz.grounded, ?_, ⟨es, htold, ?_⟩, ?_, ?_⟩
  · refine entry_eq_iff.2 ⟨hstore, hemitted, ?_, ?_⟩
    · exact (SortedMap.get?_erase ..).trans (if_pos rfl)
    · exact (SortedMap.get?_insert ..).trans (if_pos rfl)
  · rw [Ledger.reportsOf_of_isReport hl hsession d.routing.event_isReport, hreports]
    simp
  · exact Ledger.event?_append hl (hz.number n rfl)
  · exact Ledger.event?_next hl

/-! ### All sessions -/

/-- Every session that there may be is at some stage, and nothing else has been reported. -/
structure Accounted (table : RoutingTable) (l₀ : Ledger) (history : List Session) (x : Sitting) :
    Prop where
  ready : x.Ready
  table : x.chamber.router.table = table
  stage : ∀ s, Stage (l₀.reportsOf s) history x s
  grows : l₀.Grows x.ledger

namespace Accounted

variable {table : RoutingTable} {l₀ : Ledger} {history : List Session} {x y : Sitting}

theorem opened {config : Config} {ch : Chamber} (h : Chamber.new config = .ok ch) (l : Ledger) :
    Accounted config.routing l [] ⟨ch, l⟩ := by
  refine ⟨.opened h l, ?_, fun s => ?_, .of_eq rfl⟩
  all_goals
    rw [Chamber.new] at h
    split at h
    · cases h
    · cases h
      first | rfl | exact .idle rfl rfl

theorem kept (hx : Accounted table l₀ history x) (hready : y.Ready)
    (htable : y.chamber.router.table = x.chamber.router.table) (hxy : ∀ s, Kept x y s)
    (hgrows : x.ledger.Grows y.ledger) {more : List Session} (hmore : history ⊆ more) :
    Accounted table l₀ more y :=
  ⟨hready, htable.trans hx.table, fun s => (hx.stage s).kept (hxy s) hmore, hx.grows.trans hgrows⟩

theorem aside (hx : Accounted table l₀ history x) (h : x.Aside y) :
    Accounted table l₀ history y := by
  refine hx.kept (hx.ready.aside h) h.table h.kept ?_ (List.Subset.refl _)
  rcases h.events with hl | ⟨e, he, hl⟩
  · exact .of_eq hl
  · exact .of_append hl fun h => absurd h he

/-- Where one session has moved on, the others stay where they are. -/
theorem moved (hx : Accounted table l₀ history x) {s : SessionId} {more : List Session}
    (hready : y.Ready) (htable : y.chamber.router.table = x.chamber.router.table)
    (hs : Stage (l₀.reportsOf s) more y s) (hxy : ∀ t, s ≠ t → Kept x y t)
    (hgrows : x.ledger.Grows y.ledger) (hmore : history ⊆ more) : Accounted table l₀ more y := by
  refine ⟨hready, htable.trans hx.table, fun t => ?_, hx.grows.trans hgrows⟩
  by_cases ht : s = t
  · exact ht ▸ hs
  · exact (hx.stage t).kept (hxy t ht) hmore

theorem underway (hx : Accounted table l₀ history x) {s : Session} (hs : s.Valid)
    (hhistory : ∀ u ∈ history, u.id = s.id → u.Valid ∧ u.Akin s)
    (hnone : x.chamber.completed.get? s.id = none) (hall : s.AllVoted) {c : Consensus}
    {winner : Outcome} {now : Instant} (hc : c.Counts s winner now) {dissent : Option Dissent}
    {d : Disposition} (hy : Prepared x s c dissent d y) :
    ∃ number, Underway (l₀.reportsOf s.id) (history ++ [s]) y s.id c dissent d number := by
  cases hx.stage s.id with
  | idle entry reports => exact ⟨none, hy.of_idle hall hc entry reports⟩
  | underway c₀ dissent₀ d₀ number h => exact ⟨number, hy.of_underway hs hhistory hall hc h⟩
  | closed out h =>
      rw [(entry_eq_iff.1 h.entry).2.2.2] at hnone
      cases hnone

end Accounted

theorem Appended.grows {y z : Sitting} {s : SessionId} {d : Disposition} {n : Nat}
    (h : Appended y s d n z) : y.ledger.Grows z.ledger := by
  cases h with
  | known n h => exact .of_eq rfl
  | fresh l' hnone hl => exact .of_append hl fun _ => ⟨_, d.completion.event_session?⟩

theorem Prepared.table {x y : Sitting} {s : Session} {c : Consensus} {dissent : Option Dissent}
    {d : Disposition} (h : Prepared x s c dissent d y) :
    y.chamber.router.table = x.chamber.router.table := by
  obtain ⟨⟨config, recorder, router, filter, completed, appended⟩, ledger⟩ := y
  obtain ⟨-, hrouter, -, -⟩ := h
  simp only at hrouter
  cases hrouter with
  | known d hd => rfl
  | fresh d hnone hfree hd hs => rfl

/-- A call to complete a deliberation moves its session on, and an outcome that it answers with is
kept. -/
theorem Accounted.complete {table : RoutingTable} {l₀ : Ledger} {history : List Session}
    {x : Sitting} (hx : Accounted table l₀ history x) {s : Session} (hs : s.Valid)
    (hhistory : ∀ u ∈ history, u.id = s.id → u.Valid ∧ u.Akin s) (p : Petition)
    (times : CompletionTimes) (ids : CompletionIds) {z : Except ChamberError Completed × Sitting}
    (h : x.complete s p times ids = z) :
    Accounted table l₀ (history ++ [s]) z.2 ∧
      ∀ out, z.1 = .ok out → z.2.chamber.completed.get? s.id = some out := by
  have hmore : history ⊆ history ++ [s] := List.subset_append_left ..
  have hready : z.2.Ready := h ▸ hx.ready.complete hs p times ids
  have hcases := complete_cases hx.ready hs p times ids
  rw [h] at hcases
  cases hcases with
  | known out hout =>
      refine ⟨hx.kept hready rfl (fun t => ⟨rfl, rfl, .of_eq rfl⟩) (.of_eq rfl) hmore, ?_⟩
      rintro _ ⟨⟩
      exact hout
  | refused e he he' =>
      refine ⟨hx.kept hready rfl (fun t => ⟨rfl, rfl, .of_eq rfl⟩) (.of_eq rfl) hmore, ?_⟩
      rintro _ ⟨⟩
  | unwritten e l' hl =>
      refine ⟨hx.kept hready rfl (kept_of_events_eq hl) (.of_eq hl) hmore, ?_⟩
      rintro _ ⟨⟩
  | disposed c winner resolved dissent d y hnone hall hc hy z hz =>
      -- the session is under way by now; how far it gets is up to the ledger
      obtain ⟨number, hunderway⟩ := hx.underway hs hhistory hnone hall hc hy
      have hsession := hunderway.grounded.session
      have htable : z.2.chamber.router.table = x.chamber.router.table := hz.kept.2 ▸ hy.table
      cases hz with
      | unreported e l' hl =>
          have hkept (t : SessionId) : Kept y { y with ledger := l' } t := kept_of_events_eq hl t
          refine ⟨hx.moved hready htable ?_ (fun t ht => (hy.kept ht).trans (hkept t))
            (hy.witnessed.grows.trans (.of_eq hl)) hmore, ?_⟩
          · exact .underway c dissent d number
              (hunderway.kept (hkept s.id) (List.Subset.refl _))
          · rintro _ ⟨⟩
      | unrouted e n z hz l' hl =>
          have hkept (t : SessionId) : Kept z { z with ledger := l' } t := kept_of_events_eq hl t
          refine ⟨hx.moved hready htable ?_
            (fun t ht => ((hy.kept ht).trans (hz.kept_of_ne hsession ht)).trans (hkept t))
            ((hy.witnessed.grows.trans hz.grows).trans (.of_eq hl)) hmore, ?_⟩
          · exact .underway c dissent d (some n)
              ((hz.underway hunderway).kept (hkept s.id) (List.Subset.refl _))
          · rintro _ ⟨⟩
      | done n z hz l' hl =>
          have hz' := hz.underway hunderway
          have hemitted : z.chamber.router.emitted.get? s.id = some d :=
            (entry_eq_iff.1 hz'.entry).2.1
          have hcoherent : d.Coherent _ := hready.sound.coherent hemitted
          have hrouting : d.routing.session = s.id := hcoherent.routing_session.trans hsession
          refine ⟨hx.moved hready htable ?_
            (fun t ht => ((hy.kept ht).trans (hz.kept_of_ne hsession ht)).trans
              (closed_kept hl hrouting ht))
            ((hy.witnessed.grows.trans hz.grows).trans
              (.of_append hl fun _ => ⟨_, d.routing.event_session?⟩)) hmore, ?_⟩
          · exact .closed _ (hz'.closed hcoherent.routing_session hl)
          · rintro _ ⟨⟩
            exact (SortedMap.get?_insert ..).trans (if_pos rfl)

/-- In an orderly sitting every session is at some stage. -/
theorem accounted_run {config : Config} {ch : Chamber} (hch : Chamber.new config = .ok ch)
    (l : Ledger) {calls : List Call} (hcalls : Orderly calls) :
    Accounted config.routing l (passed calls) (run ⟨ch, l⟩ calls) := by
  -- the last call meets the stages to which the others have led
  induction calls using List.reverseRecOn with
  | nil => exact .opened hch l
  | append_singleton calls call ih =>
      have hx := ih hcalls.left
      rw [run_concat, passed_append]
      cases hsession : call.session? with
      | none =>
          have hpassed : passed [call] = [] := by simp [passed, hsession]
          rw [hpassed, List.append_nil]
          exact hx.aside (step_aside _ call (hcalls.mediated call (by simp)) hsession)
      | some s =>
          have hpassed : passed [call] = [s] := by simp [passed, hsession]
          rw [hpassed]
          cases call with
          | complete s p times ids =>
              cases hsession
              exact (hx.complete hcalls.last.1 hcalls.last.2 p times ids rfl).1
          | _ => cases hsession

end Sitting

end Curia
