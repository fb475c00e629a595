import Curia.Proofs.Chamber.Sitting

/-!
What reaches a participant. A text is handed over only when its entry is on the ledger and in the
log, and the entry tells what was submitted and what is to be delivered. Whether delivery fails then
makes no difference to the books.
-/

namespace Curia

/-! ### One message -/

theorem eq_ok_of_mapError {α ε δ : Type} {x : Except ε α} {f : ε → δ} {a : α}
    (h : x.mapError f = .ok a) : x = .ok a := by
  cases x with
  | error e => cases h
  | ok b =>
      cases h
      rfl

section

variable (ch : Chamber) (library : Option Library) (c : Clock) (l : Ledger)
  (deliver : Released → Option DeliveryError) (text : String) (kind : MessageKind)
  (submitter : String) (id : DecisionId)

/-- To filter a message in a chamber is to let its filter run. -/
theorem Chamber.filterMessage_eq_run :
    ch.filterMessage library c l text kind submitter id =
      let r := ch.filter.run library c l text kind submitter id
      (r.1.mapError .filter, { ch with filter := r.2.1 }, r.2.2.1, r.2.2.2) := by
  rw [filterMessage]
  split
  · next h =>
    rw [h]
    rfl
  · next h =>
    rw [h]
    rfl

/-- What is handed over is the content of the result, if there is a result and it has content. -/
theorem Chamber.handed_send :
    (ch.send library c l deliver text kind submitter id).1.handed =
      (ch.filterMessage library c l text kind submitter id).1.toOption.bind
        fun r => r.verdict.content? := by
  rw [send]
  split
  · next h =>
    rw [h]
    rfl
  · next r _ _ _ h =>
    rw [h]
    show _ = r.verdict.content?
    split
    · next hcontent => exact hcontent.symm
    · next content hcontent => split <;> exact hcontent.symm

/-- The sender is asked about nothing but the text that is handed over. -/
theorem Chamber.send_congr {deliver' : Released → Option DeliveryError}
    (h : ∀ content, (ch.send library c l deliver text kind submitter id).1.handed = some content →
      deliver' content = deliver content) :
    ch.send library c l deliver' text kind submitter id =
      ch.send library c l deliver text kind submitter id := by
  simp only [handed_send] at h
  rw [send, send]
  cases hfilter : ch.filterMessage library c l text kind submitter id with
  | mk answer rest =>
      cases answer with
      | error e => rfl
      | ok r =>
          cases hcontent : r.verdict.content? with
          | none => simp only [hcontent]
          | some content =>
              have hsame : deliver' content = deliver content := by
                refine h content ?_
                rw [hfilter]
                exact hcontent
              simp only [hcontent, hsame]

end

theorem Verdict.content?_eq_some {α : Type} {v : Verdict α} {content : α} :
    v.content? = some content ↔ ∃ changes, v = .accepted content changes := by
  cases v <;> simp [content?]

namespace Sitting

/-! ### Errands -/

/-- What is asked of a chamber when messages are to be delivered. -/
inductive Errand where
  | send (library : Option Library) (c : Clock) (deliver : Released → Option DeliveryError)
      (text : String) (kind : MessageKind) (submitter : String) (id : DecisionId)
  | filter (library : Option Library) (c : Clock) (text : String) (kind : MessageKind)
      (submitter : String) (id : DecisionId)
  | preview (library : Option Library) (c : Clock) (text : String)

def Errand.isSend : Errand → Bool
  | .send .. => true
  | _ => false

/-- The answer to a message that is to be filtered, and the sitting afterwards. -/
def filtered (x : Sitting) (library : Option Library) (c : Clock) (text : String)
    (kind : MessageKind) (submitter : String) (id : DecisionId) :
    Except ChamberError (FilterResult Released) × Sitting :=
  let r := x.chamber.filterMessage library c x.ledger text kind submitter id
  (r.1, ⟨r.2.1, r.2.2.2⟩)

/-- What has come of a message that is to be sent, and the sitting afterwards. -/
def sent (x : Sitting) (library : Option Library) (c : Clock)
    (deliver : Released → Option DeliveryError) (text : String) (kind : MessageKind)
    (submitter : String) (id : DecisionId) : Chamber.Sending × Sitting :=
  let r := x.chamber.send library c x.ledger deliver text kind submitter id
  (r.1, ⟨r.2.1, r.2.2.2⟩)

def attend (x : Sitting) : Errand → Sitting
  | .send library c deliver text kind submitter id =>
    (x.sent library c deliver text kind submitter id).2
  | .filter library c text kind submitter id => (x.filtered library c text kind submitter id).2
  | .preview .. => x

def attendAll (x : Sitting) (errands : List Errand) : Sitting := errands.foldl attend x

/-- A text in the hands of the sender, what it was when it was submitted, and what the ledger and
the log hold at that moment. -/
structure Handover where
  submitted : String
  content : Released
  events : List Event
  entries : List Decision

/-- What an errand makes the sender be handed. The moment is that when the message has been filtered
and the sender has not said yet whether delivery fails. -/
def handover? (x : Sitting) : Errand → Option Handover
  | .send library c deliver text kind submitter id =>
    let books := (x.filtered library c text kind submitter id).2
    (x.sent library c deliver text kind submitter id).1.handed.map fun content =>
      ⟨text, content, books.ledger.events, books.chamber.filter.log.entries⟩
  | _ => none

/-- All that the sender is handed, in the order of the errands. -/
def handovers (x : Sitting) : List Errand → List Handover
  | [] => []
  | errand :: errands => (x.handover? errand).toList ++ (x.attend errand).handovers errands

/-- The entry is in both books, and it tells what was submitted and what is delivered. -/
structure Handover.Backed (h : Handover) (d : Decision) : Prop where
  reported : d.event ∈ h.events
  logged : d ∈ h.entries
  accepted : d.decision = .accepted
  submitted : d.inputHash = Digest.ofText h.submitted
  token : d.inputHash = h.content.submittedHash
  delivered : d.payload.outputHash? = some (Digest.ofText h.content.text)
  version : d.filterVersion = h.content.filterVersion
  time : d.timestamp = h.content.filteredAt

/-- Both books have grown, if they have changed. -/
def BooksGrow (x y : Sitting) : Prop :=
  x.ledger.events <+: y.ledger.events ∧
    x.chamber.filter.log.entries <+: y.chamber.filter.log.entries

theorem BooksGrow.trans {x y z : Sitting} (h : x.BooksGrow y) (h' : y.BooksGrow z) :
    x.BooksGrow z :=
  ⟨h.1.trans h'.1, h.2.trans h'.2⟩

section

variable (x : Sitting) (library : Option Library) (c : Clock)
  (deliver : Released → Option DeliveryError) (text : String) (kind : MessageKind)
  (submitter : String) (id : DecisionId)

/-- What becomes of a text that has been handed over leaves no trace. -/
theorem sent_snd : (x.sent library c deliver text kind submitter id).2 =
    (x.filtered library c text kind submitter id).2 := by
  rw [sent, filtered]
  simp only [send_eq_filterMessage]

theorem handed_sent {content : Released} :
    (x.sent library c deliver text kind submitter id).1.handed = some content ↔
      ∃ r changes, (x.filtered library c text kind submitter id).1 = .ok r ∧
        r.verdict = .accepted content changes := by
  rw [sent]
  simp only [Chamber.handed_send]
  rw [filtered]
  cases (x.chamber.filterMessage library c x.ledger text kind submitter id).1 with
  | error e => simp [Except.toOption]
  | ok r => simp [Except.toOption, Verdict.content?_eq_some]

theorem filtered_snd : (x.filtered library c text kind submitter id).2 =
    ⟨{ x.chamber with
        filter := (x.chamber.filter.run library c x.ledger text kind submitter id).2.1 },
      (x.chamber.filter.run library c x.ledger text kind submitter id).2.2.2⟩ := by
  rw [filtered]
  simp only [Chamber.filterMessage_eq_run]

theorem run_of_filtered {r : FilterResult Released}
    (h : (x.filtered library c text kind submitter id).1 = .ok r) :
    (x.chamber.filter.run library c x.ledger text kind submitter id).1 = .ok r := by
  rw [filtered] at h
  simp only [Chamber.filterMessage_eq_run] at h
  exact eq_ok_of_mapError h

theorem filtered_booksGrow : x.BooksGrow (x.filtered library c text kind submitter id).2 := by
  rw [filtered_snd]
  exact (x.chamber.filter.run_attempt library c text kind submitter id x.ledger).prefixes

/-- A message that is accepted has its entry in both books. -/
theorem backed_of_accepted {r : FilterResult Released} {content : Released} {changes : List Change}
    (hr : (x.filtered library c text kind submitter id).1 = .ok r)
    (hcontent : r.verdict = .accepted content changes) :
    let y := (x.filtered library c text kind submitter id).2
    (Handover.mk text content y.ledger.events y.chamber.filter.log.entries).Backed
      (.ofResult id r text kind submitter) := by
  obtain ⟨hresult, hevents, hentries⟩ := Filter.run_eq_ok (x.run_of_filtered _ _ _ _ _ _ hr)
  have htoken : content = ⟨content.text, Digest.ofText text, r.filterVersion, r.timestamp⟩ := by
    rw [hresult] at hcontent ⊢
    exact Filter.eq_of_release hcontent
  have hpayload : DecisionPayload.ofVerdict r.verdict =
      .accepted (Digest.ofText content.text) (changes.map .ofChange) := by
    rw [hcontent]
    rfl
  rw [filtered_snd]
  refine ⟨?_, ?_, ?_, rfl, ?_, ?_, ?_, ?_⟩
  · exact hevents ▸ List.mem_append_right _ List.mem_cons_self
  · exact hentries ▸ List.mem_append_right _ List.mem_cons_self
  · show (DecisionPayload.ofVerdict r.verdict).decision = .accepted
    rw [hpayload]
    rfl
  · rw [htoken]
    rfl
  · show (DecisionPayload.ofVerdict r.verdict).outputHash? = _
    rw [hpayload]
    rfl
  · rw [htoken]
    rfl
  · rw [htoken]
    rfl

end

/-! ### Errands in turn -/

theorem attend_booksGrow (x : Sitting) (errand : Errand) : x.BooksGrow (x.attend errand) := by
  cases errand with
  | send library c deliver text kind submitter id =>
      rw [attend, sent_snd]
      exact x.filtered_booksGrow library c text kind submitter id
  | filter library c text kind submitter id =>
      exact x.filtered_booksGrow library c text kind submitter id
  | preview library c text => exact ⟨List.prefix_rfl, List.prefix_rfl⟩

theorem attendAll_booksGrow (x : Sitting) (errands : List Errand) :
    x.BooksGrow (x.attendAll errands) := by
  induction errands generalizing x with
  | nil => exact ⟨List.prefix_rfl, List.prefix_rfl⟩
  | cons errand errands ih => exact (x.attend_booksGrow errand).trans (ih (x.attend errand))

/-- What is handed over has been handed over on one of the errands. -/
theorem exists_of_mem_handovers {x : Sitting} {errands : List Errand} {h : Handover}
    (hmem : h ∈ x.handovers errands) :
    ∃ before errand after, errands = before ++ errand :: after ∧
      (x.attendAll before).handover? errand = some h := by
  induction errands generalizing x with
  | nil => cases hmem
  | cons errand errands ih =>
      rw [handovers, List.mem_append, Option.mem_toList] at hmem
      rcases hmem with hfirst | hlater
      · exact ⟨[], errand, errands, rfl, hfirst⟩
      · obtain ⟨before, errand', after, rfl, hlast⟩ := ih hlater
        exact ⟨errand :: before, errand', after, rfl, hlast⟩

/-- What an errand hands over is the content of a message that it has made accepted. -/
theorem backed_of_handover? {x : Sitting} {errand : Errand} {h : Handover}
    (hhanded : x.handover? errand = some h) :
    ∃ library c deliver kind submitter id r changes,
      errand = .send library c deliver h.submitted kind submitter id ∧
        (x.filtered library c h.submitted kind submitter id).1 = .ok r ∧
        r.verdict = .accepted h.content changes ∧
        h.Backed (.ofResult id r h.submitted kind submitter) ∧
        h.events = (x.attend errand).ledger.events ∧
        h.entries = (x.attend errand).chamber.filter.log.entries := by
  cases errand with
  | send library c deliver text kind submitter id =>
      obtain ⟨content, hcontent, rfl⟩ := Option.map_eq_some_iff.1 hhanded
      obtain ⟨r, changes, hr, hverdict⟩ :=
        (x.handed_sent library c deliver text kind submitter id).1 hcontent
      have hbacked := x.backed_of_accepted library c text kind submitter id hr hverdict
      rw [attend, sent_snd]
      exact ⟨library, c, deliver, kind, submitter, id, r, changes, rfl, hr, hverdict, hbacked, rfl,
        rfl⟩
  | filter library c text kind submitter id => cases hhanded
  | preview library c text => cases hhanded

/-- Only sending hands over, and no more than one text. -/
theorem length_handover? (x : Sitting) (errand : Errand) :
    (x.handover? errand).toList.length ≤ if errand.isSend then 1 else 0 := by
  cases errand with
  | send library c deliver text kind submitter id => exact Option.length_toList_le
  | filter library c text kind submitter id => exact Nat.le_refl 0
  | preview library c text => exact Nat.le_refl 0

theorem length_handovers (x : Sitting) (errands : List Errand) :
    (x.handovers errands).length ≤ errands.countP Errand.isSend := by
  induction errands generalizing x with
  | nil => exact Nat.le_refl 0
  | cons errand errands ih =>
      rw [handovers, List.length_append, List.countP_cons, Nat.add_comm]
      exact Nat.add_le_add (ih (x.attend errand)) (x.length_handover? errand)

/-- Everything that the sender is ever handed has its entry in both books at that moment, from the
very errand on which it is handed over, and both books keep it. Every errand hands over one text at
most, which is the content of a message that has been accepted, and asks the sender about nothing
else; whether delivery fails, the books are as if the message had been filtered only. -/
theorem backed_handovers (x : Sitting) (errands : List Errand) :
    (∀ h ∈ x.handovers errands, ∃ before library c deliver kind submitter id after r changes,
      errands = before ++ .send library c deliver h.submitted kind submitter id :: after ∧
        ((x.attendAll before).filtered library c h.submitted kind submitter id).1 = .ok r ∧
        r.verdict = .accepted h.content changes ∧
        h.Backed (.ofResult id r h.submitted kind submitter) ∧
        h.events <+: (x.attendAll errands).ledger.events ∧
        h.entries <+: (x.attendAll errands).chamber.filter.log.entries) ∧
      (x.handovers errands).length ≤ errands.countP Errand.isSend ∧
      ∀ before library c deliver text kind submitter id after,
        errands = before ++ .send library c deliver text kind submitter id :: after →
        let y := x.attendAll before
        (∀ content,
          (y.sent library c deliver text kind submitter id).1.handed = some content ↔
            ∃ r changes, (y.filtered library c text kind submitter id).1 = .ok r ∧
              r.verdict = .accepted content changes) ∧
          (∀ deliver', (∀ content,
              (y.sent library c deliver text kind submitter id).1.handed = some content →
                deliver' content = deliver content) →
            y.sent library c deliver' text kind submitter id =
              y.sent library c deliver text kind submitter id) ∧
          (y.sent library c deliver text kind submitter id).2 =
            (y.filtered library c text kind submitter id).2 ∧
          y.BooksGrow (y.sent library c deliver text kind submitter id).2 := by
  refine ⟨fun h hmem => ?_, x.length_handovers errands, ?_⟩
  · obtain ⟨before, errand, after, rfl, hhanded⟩ := exists_of_mem_handovers hmem
    obtain ⟨library, c, deliver, kind, submitter, id, r, changes, rfl, hr, hverdict, hbacked,
      hevents, hentries⟩ := backed_of_handover? hhanded
    -- the books at the moment are those that the errand leaves, and they only grow from there
    have hall : x.attendAll (before ++ .send library c deliver h.submitted kind submitter id ::
          after) =
        ((x.attendAll before).attend
          (.send library c deliver h.submitted kind submitter id)).attendAll after :=
      List.foldl_append
    obtain ⟨hledger, hlog⟩ := attendAll_booksGrow ((x.attendAll before).attend
      (.send library c deliver h.submitted kind submitter id)) after
    refine ⟨before, library, c, deliver, kind, submitter, id, after, r, changes, rfl, hr, hverdict,
      hbacked, ?_, ?_⟩
    · rw [hall, hevents]
      exact hledger
    · rw [hall, hentries]
      exact hlog
  · intro before library c deliver text kind submitter id after _ y
    refine ⟨fun content => y.handed_sent .., fun deliver' h => ?_, y.sent_snd .., ?_⟩
    · rw [sent, sent, y.chamber.send_congr library c y.ledger deliver text kind submitter id h]
    · rw [sent_snd]
      exact y.filtered_booksGrow ..

/-- Of two texts the sender is handed the second, which is accepted and cannot be delivered. -/
example :
    ((Sitting.mk .standard .empty).handovers
      [.send none (.start .epoch 0) (fun _ => none) "first" .reminder "a" ⟨.ofNat 1⟩,
       .send (Library.ofRules .none "1" []).toOption (.start .epoch 0)
         (fun _ => some (.unknownRecipient "b")) "second" .reminder "a" ⟨.ofNat 2⟩]).map
        (fun h => (h.submitted, h.events.length, h.entries.length)) =
      [("second", 2, 2)] := by
  decide +kernel

end Sitting

end Curia
