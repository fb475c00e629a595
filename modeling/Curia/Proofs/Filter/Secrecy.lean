import Curia.Proofs.Filter.Cleanness
import Curia.Proofs.Filter.Rules
import Curia.Proofs.Ledger.Reasons

/-!
What the books tell of a text. An entry has in it the digest of the text, and for the rest it goes by
the verdict. A rule is known by its name, so a verdict shows no more of the text than which rules
have found something, where, and the digests of what they found and of what was made of it.
-/

namespace Curia

variable {props : Regex.Properties}

/-- What shows of a text in the verdict on it: the name of the rule that blocks it, or the reason for
which it is rejected, or the digest of what was made of it and, of every change, the name of the
rule, the position and the digest of what was found. -/
inductive Trace where
  | accepted (outputHash : Digest) (changes : List (String × Nat × Digest))
  | rejected (reason : Reason)
  | blocked (rule : Option String)
  deriving DecidableEq

def Change.trace (c : Change) : String × Nat × Digest :=
  (c.rule, c.position, Digest.ofText c.found)

/-- The verdict, when the rule is the one that blocks the text. -/
def Verdict.trace (rule : Option String) : Verdict String → Trace
  | accepted content changes => .accepted (Digest.ofText content) (changes.map Change.trace)
  | rejected reason => .rejected reason
  | blocked _ _ => .blocked rule

/-- The name of the first rule for blocking that finds something in the text. -/
def Library.blocker? (l : Library) (text : List Char) : Option String :=
  (l.blocking.find? fun m => m.finds text).map fun m => m.rule.id

def Filter.trace (f : Filter) (library : Option Library) (c : Clock) (text : String) : Trace :=
  (f.evaluate library c text).1.verdict.trace (library.bind fun l => l.blocker? text.toList)

/-! ### Rules are known by their names -/

/-- The change is one that the rule makes. -/
structure Change.MadeBy (c : Change) (r : Rule) : Prop where
  rule : c.rule = r.id
  pattern : c.pattern = r.pattern
  replacement : r.replacement = some c.replacement

theorem Change.MadeBy.record_eq {c c' : Change} {r : Rule} (h : c.MadeBy r) (h' : c'.MadeBy r)
    (htrace : c.trace = c'.trace) : ChangeRecord.ofChange c = .ofChange c' := by
  simp only [trace, Prod.mk.injEq] at htrace
  have hreplacement : c.replacement = c'.replacement :=
    Option.some.inj (h.replacement.symm.trans h'.replacement)
  simp only [ChangeRecord.ofChange, htrace, h.pattern, h'.pattern, hreplacement]

theorem madeBy_of_mem_applyRule {m : Matcher} {text : List Char} {c : Change}
    (h : c ∈ (applyRule m text).2) : c.MadeBy m.rule := by
  rw [applyRule] at h
  split at h
  · next hreplacement =>
    obtain ⟨s, -, rfl⟩ := List.mem_map.1 h
    exact ⟨rfl, rfl, hreplacement⟩
  · cases h

theorem exists_of_mem_applyRules {ms : List Matcher} {text : List Char} {c : Change}
    (h : c ∈ (applyRules text ms).2) : ∃ m ∈ ms, c.MadeBy m.rule := by
  induction ms generalizing text with
  | nil => cases h
  | cons m ms ih =>
      rw [applyRules] at h
      rcases List.mem_append.1 h with h | h
      · exact ⟨m, List.mem_cons_self, madeBy_of_mem_applyRule h⟩
      · obtain ⟨n, hn, hc⟩ := ih h
        exact ⟨n, List.mem_cons_of_mem m hn, hc⟩

namespace Library

variable {semver : String} {rules : List Rule} {l : Library}

theorem rule_eq_of_id (hl : ofRules props semver rules = .ok l) {m n : Matcher}
    (hm : m ∈ l.matchers) (hn : n ∈ l.matchers) (hid : m.rule.id = n.rule.id) : m.rule = n.rule := by
  obtain ⟨r, hr, rfl⟩ := (mem_matchers hl).1 hm
  obtain ⟨s, hs, rfl⟩ := (mem_matchers hl).1 hn
  exact List.inj_on_of_nodup_map (ofRules_eq_ok hl).1 hr hs hid

/-- Two lists of changes that show the same are recorded the same way. -/
theorem records_eq_of_trace (hl : ofRules props semver rules = .ok l)
    {changes changes' : List Change} (h : ∀ c ∈ changes, ∃ m ∈ l.matchers, c.MadeBy m.rule)
    (h' : ∀ c ∈ changes', ∃ m ∈ l.matchers, c.MadeBy m.rule)
    (htrace : changes.map Change.trace = changes'.map Change.trace) :
    changes.map ChangeRecord.ofChange = changes'.map ChangeRecord.ofChange := by
  induction changes generalizing changes' with
  | nil =>
      obtain rfl := List.map_eq_nil_iff.1 htrace.symm
      rfl
  | cons c changes ih =>
      cases changes' with
      | nil => cases htrace
      | cons c' changes' =>
          obtain ⟨hhead, htail⟩ := List.cons.inj htrace
          obtain ⟨m, hm, hc⟩ := h c List.mem_cons_self
          obtain ⟨n, hn, hc'⟩ := h' c' List.mem_cons_self
          have hrule : m.rule = n.rule :=
            rule_eq_of_id hl hm hn (hc.rule.symm.trans ((congrArg Prod.fst hhead).trans hc'.rule))
          rw [hrule] at hc
          rw [List.map_cons, List.map_cons, hc.record_eq hc' hhead,
            ih (fun c hc => h c (List.mem_cons_of_mem _ hc))
              (fun c hc => h' c (List.mem_cons_of_mem _ hc)) htail]

theorem stages_blocked {text : List Char} {start budget : Nat} {c : Clock} {violation : Violation}
    {details : String}
    (h : (l.stages text start budget c).1 = .ok (.blocked violation details)) :
    withhold Rule.blocked? text l.blocking = .ok (some (.blocked violation details)) := by
  obtain hblocked | ⟨-, hrejected | ⟨-, hrework⟩⟩ := stages_eq_ok h
  · exact hblocked
  · obtain ⟨m, -, -, hm⟩ := exists_of_withhold_some hrejected
    obtain ⟨reason, -, hreason⟩ := Option.map_eq_some_iff.1 hm
    cases hreason
  · cases eq_reworked_of_rework hrework

/-- The verdict is one that the rules of the library come to; if the text is blocked, then by the
rule of the given name. -/
inductive Comes (l : Library) (rule : Option String) : Verdict String → Prop
  | accepted (content : String) (changes : List Change)
      (h : ∀ c ∈ changes, ∃ m ∈ l.matchers, c.MadeBy m.rule) :
      Comes l rule (.accepted content changes)
  | rejected (reason : Reason) : Comes l rule (.rejected reason)
  | blocked (violation : Violation) (details : String) (m : Matcher) (hm : m ∈ l.matchers)
      (hrule : rule = some m.rule.id)
      (h : m.rule.blocked? = some (.blocked violation details)) :
      Comes l rule (.blocked violation details)

theorem comes_judge (l : Library) (text : List Char) (start budget : Nat) (c : Clock) :
    l.Comes (l.blocker? text) (l.judge text start budget c).1 := by
  cases hv : (l.judge text start budget c).1 with
  | accepted content changes =>
      obtain ⟨-, -, rfl⟩ := judge_accepted hv
      refine .accepted _ _ fun c hc => ?_
      obtain ⟨m, hm, hmade⟩ := exists_of_mem_applyRules hc
      exact ⟨m, List.mem_append_right _ hm, hmade⟩
  | rejected reason => exact .rejected reason
  | blocked violation details =>
      rw [judge] at hv
      split at hv
      · next v _ hstages =>
        obtain rfl : v = .blocked violation details := hv
        obtain ⟨m, hfind, hblocked⟩ :=
          find?_of_withhold_some (stages_blocked (congrArg Prod.fst hstages))
        have hm : m ∈ l.matchers :=
          List.mem_append_left _ (List.mem_append_left _ (List.mem_of_find?_eq_some hfind))
        refine .blocked violation details m hm ?_ hblocked
        rw [blocker?, hfind]
        rfl
      · cases hv

/-- Of verdicts that show the same the same is written down. -/
theorem payload_eq_of_trace (hl : ofRules props semver rules = .ok l) {rule rule' : Option String}
    {v v' : Verdict String} (hv : l.Comes rule v) (hv' : l.Comes rule' v')
    (htrace : v.trace rule = v'.trace rule') {release release' : String → Released}
    (hrelease : ∀ content, (release content).text = content)
    (hrelease' : ∀ content, (release' content).text = content) :
    DecisionPayload.ofVerdict (v.map release) = .ofVerdict (v'.map release') := by
  cases hv with
  | accepted content changes h =>
      cases hv' with
      | accepted content' changes' h' =>
          obtain ⟨hcontent, hchanges⟩ := Trace.accepted.inj htrace
          simp only [Verdict.map, DecisionPayload.ofVerdict, hrelease, hrelease', hcontent,
            records_eq_of_trace hl h h' hchanges]
      | rejected reason' => cases htrace
      | blocked violation' details' m' hm' hrule' h' => cases htrace
  | rejected reason =>
      cases hv' with
      | accepted content' changes' h' => cases htrace
      | rejected reason' =>
          cases htrace
          rfl
      | blocked violation' details' m' hm' hrule' h' => cases htrace
  | blocked violation details m hm hrule h =>
      cases hv' with
      | accepted content' changes' h' => cases htrace
      | rejected reason' => cases htrace
      | blocked violation' details' m' hm' hrule' h' =>
          have hid : m.rule.id = m'.rule.id :=
            Option.some.inj (hrule.symm.trans ((Trace.blocked.inj htrace).trans hrule'))
          rw [rule_eq_of_id hl hm hm' hid, h'] at h
          cases h
          rfl

end Library

/-! ### The entry -/

/-- The entry as it is made for another text on which the verdict is the same. -/
def Decision.forText (d : Decision) (text : String) : Decision :=
  { d with inputHash := Digest.ofText text }

/-- The digest of the text is one member of what the event reports. -/
theorem Decision.event_forText (d : Decision) (text : String) :
    (d.forText text).event = { d.event with
      payload := d.event.payload.overwrite [some "input_hash"]
        (.string (Digest.ofText text).toHex) } := by
  have hpayload : d.event.payload.overwrite [some "input_hash"]
      (.string (Digest.ofText text).toHex) = (d.forText text).toJson := by
    simp [event, toJson, Json.overwrite_record, Json.overwrite, forText]
  rw [hpayload]
  rfl

namespace Filter

/-- What an entry tells of a verdict is what shows of the text in it. -/
theorem payload_eq_of_trace {library : Option Library}
    (hlibrary : ∀ l, library = some l → ∃ semver rules, Library.ofRules props semver rules = .ok l)
    {f : Filter} {c c' : Clock} {text text' : String}
    (h : f.trace library c text = f.trace library c' text') :
    DecisionPayload.ofVerdict (f.resultOf library c text).verdict =
      .ofVerdict (f.resultOf library c' text').verdict := by
  cases library with
  | none =>
      have hfault (c : Clock) (text : String) : DecisionPayload.ofVerdict
          (f.resultOf none c text).verdict = .rejected .internalFault := rfl
      rw [hfault, hfault]
  | some l =>
      obtain ⟨semver, rules, hl⟩ := hlibrary l rfl
      have hcomes := l.comes_judge text.toList c.read.1 f.budget c.read.2
      have hcomes' := l.comes_judge text'.toList c'.read.1 f.budget c'.read.2
      let release (content : String) : Released :=
        ⟨content, Digest.ofText text, f.version, c.wall⟩
      let release' (content : String) : Released :=
        ⟨content, Digest.ofText text', f.version, c'.wall⟩
      have hrelease (content : String) : (release content).text = content := rfl
      have hrelease' (content : String) : (release' content).text = content := rfl
      exact Library.payload_eq_of_trace hl hcomes hcomes' h hrelease hrelease'

theorem ofResult_eq_forText {library : Option Library}
    (hlibrary : ∀ l, library = some l → ∃ semver rules, Library.ofRules props semver rules = .ok l)
    {f : Filter} {c c' : Clock} (hwall : c.wall = c'.wall) {text text' : String}
    (h : f.trace library c text = f.trace library c' text') (kind : MessageKind)
    (submitter : String) (id : DecisionId) :
    Decision.ofResult id (f.resultOf library c' text') text' kind submitter =
      (Decision.ofResult id (f.resultOf library c text) text kind submitter).forText text' := by
  have hpayload := payload_eq_of_trace hlibrary h
  have htime : (f.resultOf library c text).timestamp = (f.resultOf library c' text').timestamp :=
    hwall
  have hversion (c : Clock) (text : String) :
      (f.resultOf library c text).filterVersion = f.version := rfl
  have hrules (c : Clock) (text : String) :
      (f.resultOf library c text).library = library.map Library.version := rfl
  simp only [Decision.ofResult, Decision.forText, hpayload, htime, hversion, hrules]

end Filter

/-! ### The books -/

/-- An append takes no notice of what the event reports. -/
theorem Ledger.append_forms (l : Ledger) :
    (∃ e, ∃ m : Ledger, m.events = l.events ∧ ∀ event, l.append event = (.error e, m)) ∨
      ∃ n, ∃ m : Ledger, m.events = l.events ∧
        ∀ event, l.append event = (.ok n, { m with events := m.events ++ [event] }) := by
  cases hrefuses : l.refuses (l.attempts + 1) with
  | true =>
      refine .inl ⟨.refused l.length, { l with attempts := l.attempts + 1 }, rfl, fun event => ?_⟩
      rw [append, if_pos hrefuses]
  | false =>
      refine .inr ⟨l.length + 1, { l with attempts := l.attempts + 1 }, rfl, fun event => ?_⟩
      rw [append, if_neg (by simp [hrefuses])]

/-- The log knows an entry by its identifier. -/
theorem DecisionLog.append_forms (log : DecisionLog) (d : Decision) :
    (∃ e, ∃ log' : DecisionLog, log'.entries = log.entries ∧
        ∀ text, log.append (d.forText text) = (.error e, log')) ∨
      ∃ log' : DecisionLog, log'.entries = log.entries ∧ ∀ text, log.append (d.forText text) =
        (.ok (), { log' with entries := log'.entries ++ [d.forText text] }) := by
  let log' : DecisionLog := { log with attempts := log.attempts + 1 }
  by_cases hrefuses : log.refuses (log.attempts + 1) = true
  · refine .inl ⟨.storeUnavailable d.id, log', rfl, fun text => ?_⟩
    rw [append, if_pos hrefuses]
    rfl
  · by_cases hknown : (log.entries.any fun e => e.id = d.id) = true
    · refine .inl ⟨.alreadyLogged d.id, log', rfl, fun text => ?_⟩
      rw [append, if_neg hrefuses]
      exact if_pos hknown
    · refine .inr ⟨log', rfl, fun text => ?_⟩
      rw [append, if_neg hrefuses]
      exact if_neg hknown

namespace Filter

/-- What the books can look like afterwards, as they depend on the entry: it is on neither of them,
or on the ledger and held, or on the ledger and in the log. -/
inductive Form (f : Filter) (l : Ledger) : (Decision → Filter × Ledger) → Prop
  | unwritten (g : Filter) (m : Ledger) (events : m.events = l.events)
      (booked : g.booked = f.booked) : Form f l fun _ => (g, m)
  | held (g : Filter) (m : Ledger) (events : m.events = l.events) (booked : g.booked = f.booked)
      (held : g.held = []) :
      Form f l fun d => ({ g with held := [d] }, { m with events := m.events ++ [d.event] })
  | logged (g : Filter) (m : Ledger) (events : m.events = l.events)
      (booked : g.booked = f.booked) (held : g.held = []) :
      Form f l fun d => ({ g with
        log.entries := g.log.entries ++ [d]
        observed := g.observed ++ [d] }, { m with events := m.events ++ [d.event] })

/-- The filter and the ledger once a message has been filtered. -/
def books (f : Filter) (library : Option Library) (c : Clock) (l : Ledger) (text : String)
    (kind : MessageKind) (submitter : String) (id : DecisionId) : Filter × Ledger :=
  let r := f.run library c l text kind submitter id
  (r.2.1, r.2.2.2)

/-- The books once the entry has been written down, or once that has failed. -/
def enter (f : Filter) (l : Ledger) (d : Decision) : Filter × Ledger :=
  match f.audit l d with
  | (.error _, g, m) => (g, m)
  | (.ok _, g, m) => ({ g with observed := g.observed ++ [d] }, m)

theorem books_eq (f : Filter) (library : Option Library) (c : Clock) (l : Ledger) (text : String)
    (kind : MessageKind) (submitter : String) (id : DecisionId) :
    f.books library c l text kind submitter id =
      f.enter l (.ofResult id (f.resultOf library c text) text kind submitter) := by
  rw [books, run, enter]
  rcases haudit : f.audit l (.ofResult id (f.resultOf library c text) text kind submitter) with
    ⟨err | _, g, m⟩
  · simp only [resultOf] at haudit
    simp only [haudit]
  · simp only [resultOf] at haudit
    simp only [resultOf, haudit]

theorem exists_form (f : Filter) (l : Ledger) (d : Decision) :
    ∃ form, f.Form l form ∧ ∀ text, f.enter l (d.forText text) = form (d.forText text) := by
  obtain ⟨log, hheld, hlog⟩ | ⟨e, logged, x, rest, log, hheld, hsplit, hlog⟩ :=
    logHeld_cases f.held f.log
  · have hbooked : ({ f with held := [], log } : Filter).booked = f.booked := by
      rw [booked, booked, hlog, List.append_nil]
    obtain ⟨e, m, hm, happend⟩ | ⟨n, m, hm, happend⟩ := l.append_forms
    · refine ⟨_, .unwritten { f with held := [], log } m hm hbooked, fun text => ?_⟩
      simp only [enter, audit, hheld, happend]
    · obtain ⟨e, log', hlog', hown⟩ | ⟨log', hlog', hown⟩ := log.append_forms d
      · have hbooked' : ({ f with held := [], log := log' } : Filter).booked = f.booked := by
          rw [← hbooked, booked, booked, hlog']
        refine ⟨_, .held { f with held := [], log := log' } m hm hbooked' rfl, fun text => ?_⟩
        simp only [enter, audit, hheld, happend, hown, List.nil_append]
      · have hbooked' : ({ f with held := [], log := log' } : Filter).booked = f.booked := by
          rw [← hbooked, booked, booked, hlog']
        refine ⟨_, .logged { f with held := [], log := log' } m hm hbooked' rfl, fun text => ?_⟩
        simp only [enter, audit, hheld, happend, hown]
  · have hbooked : ({ f with held := x :: rest, log } : Filter).booked = f.booked := by
      rw [booked, booked, hlog, hsplit, List.append_assoc]
    refine ⟨_, .unwritten { f with held := x :: rest, log } l rfl hbooked, fun text => ?_⟩
    simp only [enter, audit, hheld]

/-- Texts of which the same shows lead to the same books, save for the digest of the text, which is
one member of the event and one part of the entry; and if the digests agree too, the books are the
same altogether. -/
theorem books_of_trace {library : Option Library}
    (hlibrary : ∀ l, library = some l → ∃ semver rules, Library.ofRules props semver rules = .ok l)
    (f : Filter) {c c' : Clock} (hwall : c.wall = c'.wall) (l : Ledger) (kind : MessageKind)
    (submitter : String) (id : DecisionId) {text text' : String}
    (h : f.trace library c text = f.trace library c' text') :
    (∃ (d : Decision) (form : Decision → Filter × Ledger), f.Form l form ∧
        f.books library c l text kind submitter id = form (d.forText text) ∧
        f.books library c' l text' kind submitter id = form (d.forText text') ∧
        (d.forText text').event = { (d.forText text).event with
          payload := (d.forText text).event.payload.overwrite [some "input_hash"]
            (.string (Digest.ofText text').toHex) }) ∧
      (Digest.ofText text = Digest.ofText text' →
        f.books library c l text kind submitter id =
          f.books library c' l text' kind submitter id) := by
  have hentry := ofResult_eq_forText hlibrary hwall h kind submitter id
  generalize hd : Decision.ofResult id (f.resultOf library c text) text kind submitter = d at hentry
  have hown : d.forText text = d := by
    rw [← hd]
    rfl
  obtain ⟨form, hform, henter⟩ := f.exists_form l d
  have hbooks : f.books library c l text kind submitter id = form (d.forText text) := by
    rw [books_eq, hd, ← henter, hown]
  have hbooks' : f.books library c' l text' kind submitter id = form (d.forText text') := by
    rw [books_eq, hentry, henter]
  refine ⟨⟨d, form, hform, hbooks, hbooks', (d.forText text).event_forText text'⟩, fun hhash => ?_⟩
  rw [hbooks, hbooks', Decision.forText, Decision.forText, hhash]

/-- Two spaces in the place of one, behind a word that is taken out, do not show. -/
theorem books_of_trace_of_spaces :
    ∃ l, Library.ofRules .basic Library.builtinVersion Library.ultimatumRules = .ok l ∧
      standard.trace (some l) .sample "URGENT please review" =
        standard.trace (some l) .sample "URGENT  please review" ∧
      ∃ (d : Decision) (form : Decision → Filter × Ledger), standard.Form .empty form ∧
        standard.books (some l) .sample .empty "URGENT please review" .reminder "a" ⟨.ofNat 1⟩ =
          form (d.forText "URGENT please review") ∧
        standard.books (some l) .sample .empty "URGENT  please review" .reminder "a" ⟨.ofNat 1⟩ =
          form (d.forText "URGENT  please review") := by
  have hverdicts :
      (Library.ofRules .basic Library.builtinVersion Library.ultimatumRules).toOption.map (fun l =>
        decide ((standard.evaluate (some l) .sample "URGENT please review").1.verdict =
            (standard.evaluate (some l) .sample "URGENT  please review").1.verdict ∧
          l.blocker? "URGENT please review".toList = l.blocker? "URGENT  please review".toList)) =
      some true := by
    decide +kernel
  cases hl : Library.ofRules .basic Library.builtinVersion Library.ultimatumRules with
  | error e =>
      rw [hl] at hverdicts
      cases hverdicts
  | ok l =>
      rw [hl] at hverdicts
      obtain ⟨hverdict, hblocker⟩ := of_decide_eq_true (Option.some.inj hverdicts)
      have htrace : standard.trace (some l) .sample "URGENT please review" =
          standard.trace (some l) .sample "URGENT  please review" := by
        rw [trace, trace, hverdict, Option.bind_some, Option.bind_some, hblocker]
      have hlibrary (l' : Library) (hl' : some l = some l') :
          ∃ semver rules, Library.ofRules .basic semver rules = .ok l' :=
        ⟨_, _, hl.trans (congrArg _ (Option.some.inj hl'))⟩
      obtain ⟨d, form, hform, hbooks, hbooks', -⟩ :=
        (books_of_trace hlibrary standard rfl .empty .reminder "a" ⟨.ofNat 1⟩ htrace).1
      exact ⟨l, rfl, htrace, d, form, hform, hbooks, hbooks'⟩

end Filter

end Curia
