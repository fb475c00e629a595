import Curia.Proofs.Filter.Auditing
import Curia.Proofs.Filter.Verdicts

/-!
Dry runs. A preview comes to what filtering the message would come to, and it leaves nothing behind
but that the clock has been read. As verdicts depend only on how much time is spent, nobody can tell
afterwards whether there have been previews, provided that every reading takes the clock equally
long.
-/

namespace Curia

/-! ### Clocks -/

namespace Clock

/-- The clock after a number of readings. -/
def after (c : Clock) : Nat → Clock
  | 0 => c
  | n + 1 => c.read.2.after n

@[simp] theorem wall_after (c : Clock) (n : Nat) : (c.after n).wall = c.wall := by
  induction n generalizing c with
  | zero => rfl
  | succ n ih => exact ih c.read.2

@[simp] theorem step_after (c : Clock) (n : Nat) : (c.after n).step = c.step := by
  induction n generalizing c with
  | zero => rfl
  | succ n ih => exact ih c.read.2

theorem reading_read (c : Clock) (n : Nat) : c.read.2.reading n = c.reading (n + 1) := rfl

/-- Every reading moves the clock by the same. -/
def Steady (c : Clock) (k : Nat) : Prop := c.step = fun _ => k

theorem Steady.reading {c : Clock} {k : Nat} (h : c.Steady k) (n : Nat) :
    c.reading n = c.elapsed + k * n := by
  induction n generalizing c with
  | zero => rfl
  | succ n ih =>
      have hread : c.read.2.elapsed = c.elapsed + k := by
        show c.elapsed + c.step c.readings = _
        rw [h]
      rw [← reading_read, ih (show c.read.2.Steady k from h), hread, Nat.mul_succ]
      omega

theorem Steady.after {c : Clock} {k : Nat} (h : c.Steady k) (n : Nat) : (c.after n).Steady k :=
  (c.step_after n).trans h

end Clock

/-- The clocks show equally much time since their starts, now and whenever they are read. -/
def Clock.SameSpent (start start' : Nat) (c c' : Clock) : Prop :=
  ∀ n, c.reading n - start = c'.reading n - start'

theorem Clock.SameSpent.read {start start' : Nat} {c c' : Clock} (h : SameSpent start start' c c') :
    SameSpent start start' c.read.2 c'.read.2 := fun n => h (n + 1)

theorem Clock.Steady.sameSpent {c c' : Clock} {k : Nat} (h : c.Steady k) (h' : c'.Steady k) :
    SameSpent c.elapsed c'.elapsed c c' := by
  intro n
  rw [h.reading, h'.reading]
  omega

/-- The outcome is the same, after the same number of readings. -/
theorem timed_of_spent {α : Type} (outcome : Except StageFault α) {start start' : Nat}
    (budget n : Nat) {c c' : Clock} (h : Clock.SameSpent start start' c c') :
    ∃ outcome' m, timed outcome start budget n c = (outcome', c.after m) ∧
      timed outcome start' budget n c' = (outcome', c'.after m) := by
  induction n generalizing c c' with
  | zero => exact ⟨outcome, 0, rfl, rfl⟩
  | succ n ih =>
      simp only [timed, overBudget_eq, h 0, decide_eq_true_eq]
      by_cases hlate : budget < c'.reading 0 - start'
      · simp only [if_pos hlate]
        exact ⟨.error .late, 1, rfl, rfl⟩
      · simp only [if_neg hlate]
        obtain ⟨outcome', m, hc, hc'⟩ := ih h.read
        exact ⟨outcome', m + 1, hc, hc'⟩

theorem Library.judge_of_spent (l : Library) (text : List Char) {start start' : Nat} (budget : Nat)
    {c c' : Clock} (h : Clock.SameSpent start start' c c') :
    ∃ v n, l.judge text start budget c = (v, c.after n) ∧
      l.judge text start' budget c' = (v, c'.after n) := by
  obtain ⟨outcome, -, n, -, hstages⟩ := l.exists_stages_eq text
  obtain ⟨outcome', m, hc, hc'⟩ := timed_of_spent outcome budget n h
  rw [judge, judge, hstages, hstages, hc, hc']
  cases outcome' with
  | error fault => exact ⟨_, m, rfl, rfl⟩
  | ok v => exact ⟨_, m, rfl, rfl⟩

namespace Filter

/-- What the filter makes of a message depends on the time of day and on how much time goes by from
reading to reading. -/
theorem evaluate_of_spent (f : Filter) (library : Option Library) (text : String) {c c' : Clock}
    (hwall : c.wall = c'.wall)
    (h : Clock.SameSpent c.elapsed c'.elapsed c c') :
    ∃ r n, f.evaluate library c text = (r, c.after n) ∧
      f.evaluate library c' text = (r, c'.after n) := by
  cases library with
  | none =>
      refine ⟨_, 1, rfl, ?_⟩
      rw [hwall]
      rfl
  | some l =>
      have hspent : Clock.SameSpent c.read.1 c'.read.1 c.read.2 c'.read.2 := h.read
      obtain ⟨v, n, hc, hc'⟩ := l.judge_of_spent text.toList f.budget hspent
      refine ⟨⟨f.version, some l.version, c.wall, v⟩, n + 1, ?_, ?_⟩
      · rw [evaluate]
        simp only [hc]
        rfl
      · rw [evaluate]
        simp only [hc', hwall]
        rfl

/-- Of a message that is answered the preview says the same. -/
theorem preview_of_run {f : Filter} {library : Option Library} {c : Clock} {l : Ledger}
    {text : String} {kind : MessageKind} {submitter : String} {id : DecisionId}
    {r : FilterResult Released} (h : (f.run library c l text kind submitter id).1 = .ok r) :
    r.map Released.text = (f.preview library c text).1 := by
  obtain ⟨rfl, -, -⟩ := run_eq_ok h
  rw [preview, resultOf, release]
  cases (f.evaluate library c text).1 with
  | mk version library timestamp verdict => cases verdict <;> rfl

/-- A message is dealt with the same way whenever equally much time goes by. -/
theorem run_of_spent (f : Filter) (library : Option Library) (l : Ledger) (text : String)
    (kind : MessageKind) (submitter : String) (id : DecisionId) {c c' : Clock}
    (hwall : c.wall = c'.wall) (h : Clock.SameSpent c.elapsed c'.elapsed c c') :
    ∃ answer f' n l', f.run library c l text kind submitter id = (answer, f', c.after n, l') ∧
      f.run library c' l text kind submitter id = (answer, f', c'.after n, l') := by
  obtain ⟨r, n, hc, hc'⟩ := f.evaluate_of_spent library text hwall h
  rw [run, run, hc, hc']
  simp only
  obtain ⟨answer, f', l'⟩ := f.audit l (.ofResult id (release text r) text kind submitter)
  cases answer with
  | error e => exact ⟨_, _, n, _, rfl, rfl⟩
  | ok _ => exact ⟨_, _, n, _, rfl, rfl⟩

end Filter

/-! ### Previews among other requests -/

/-- A desk with the clock that its filter reads. -/
structure Office where
  desk : Desk
  clock : Clock

namespace Office

/-- What may be asked at a desk, and what may happen to the clock meanwhile. -/
inductive Request where
  | filter (library : Option Library) (text : String) (kind : MessageKind) (submitter : String)
      (id : DecisionId)
  | preview (library : Option Library) (text : String)
  | set (now : Instant)
  | wait (milliseconds : Nat)

def Request.isPreview : Request → Bool
  | .preview .. => true
  | _ => false

/-- The answer to a message that is to be filtered, and the office afterwards. -/
def respond (x : Office) : Request → Option (Except FilterError (FilterResult Released)) × Office
  | .filter library text kind submitter id =>
    let (answer, filter, clock, ledger) :=
      x.desk.filter.run library x.clock x.desk.ledger text kind submitter id
    (some answer, ⟨⟨filter, ledger⟩, clock⟩)
  | .preview library text =>
    (none, { x with clock := (x.desk.filter.preview library x.clock text).2 })
  | .set now => (none, { x with clock := x.clock.set now })
  | .wait milliseconds => (none, { x with clock := x.clock.advanceElapsed milliseconds })

def step (x : Office) (request : Request) : Office := (x.respond request).2

def run (x : Office) (requests : List Request) : Office := requests.foldl step x

/-- The answers to the messages that are filtered, one after another. -/
def answers (x : Office) : List Request → List (Except FilterError (FilterResult Released))
  | [] => []
  | request :: requests => (x.respond request).1.toList ++ (x.step request).answers requests

/-- Two offices that differ only in how far their clocks have run. -/
structure Alike (x y : Office) (k : Nat) : Prop where
  desk : x.desk = y.desk
  wall : x.clock.wall = y.clock.wall
  left : x.clock.Steady k
  right : y.clock.Steady k

namespace Alike

variable {x y : Office} {k : Nat}

theorem respond (h : x.Alike y k) (request : Request) :
    (x.respond request).1 = (y.respond request).1 ∧ (x.step request).Alike (y.step request) k := by
  obtain ⟨desk, c⟩ := x
  obtain ⟨desk', c'⟩ := y
  obtain ⟨rfl, hwall, hleft, hright⟩ := h
  have hspent := hleft.sameSpent hright
  cases request with
  | filter library text kind submitter id =>
      obtain ⟨answer, f, n, l, hc, hc'⟩ :=
        desk.filter.run_of_spent library desk.ledger text kind submitter id hwall hspent
      have hx : Office.respond ⟨desk, c⟩ (.filter library text kind submitter id) =
          (some answer, ⟨⟨f, l⟩, c.after n⟩) := by rw [Office.respond, hc]
      have hy : Office.respond ⟨desk, c'⟩ (.filter library text kind submitter id) =
          (some answer, ⟨⟨f, l⟩, c'.after n⟩) := by rw [Office.respond, hc']
      rw [step, step, hx, hy]
      exact ⟨rfl, rfl, by simpa using hwall, hleft.after n, hright.after n⟩
  | preview library text =>
      obtain ⟨r, n, hc, hc'⟩ := desk.filter.evaluate_of_spent library text hwall hspent
      have hx : Office.respond ⟨desk, c⟩ (.preview library text) = (none, ⟨desk, c.after n⟩) := by
        rw [Office.respond, Filter.preview, hc]
      have hy : Office.respond ⟨desk, c'⟩ (.preview library text) =
          (none, ⟨desk, c'.after n⟩) := by rw [Office.respond, Filter.preview, hc']
      rw [step, step, hx, hy]
      exact ⟨rfl, rfl, by simpa using hwall, hleft.after n, hright.after n⟩
  | set now => exact ⟨rfl, rfl, rfl, hleft, hright⟩
  | wait milliseconds => exact ⟨rfl, rfl, hwall, hleft, hright⟩

/-- A preview that is held in the one and not in the other makes no difference. -/
theorem preview (h : x.Alike y k) (library : Option Library) (text : String) :
    (x.step (.preview library text)).Alike y k := by
  obtain ⟨r, n, hc, -⟩ :=
    x.desk.filter.evaluate_of_spent library text rfl (h.left.sameSpent h.left)
  have hclock : (x.step (.preview library text)).clock = x.clock.after n := congrArg Prod.snd hc
  refine ⟨h.desk, ?_, ?_, h.right⟩
  · rw [hclock, Clock.wall_after, h.wall]
  · rw [hclock]
    exact h.left.after n

theorem run (h : x.Alike y k) (requests : List Request) :
    x.answers requests = y.answers (requests.filter fun request => !request.isPreview) ∧
      (x.run requests).Alike (y.run (requests.filter fun request => !request.isPreview)) k := by
  induction requests generalizing x y with
  | nil => exact ⟨rfl, h⟩
  | cons request requests ih =>
      cases hpreview : request.isPreview with
      | true =>
          cases request with
          | preview library text =>
              rw [List.filter_cons_of_neg (by simp [Request.isPreview])]
              exact ih (h.preview library text)
          | _ => cases hpreview
      | false =>
          rw [List.filter_cons_of_pos (by simp [hpreview])]
          obtain ⟨hanswer, hstep⟩ := h.respond request
          obtain ⟨hanswers, hrun⟩ := ih hstep
          exact ⟨by rw [answers, answers, hanswer, hanswers], hrun⟩

end Alike

/-- A preview says of a message what filtering it is answered with. It leaves the desk as it is, and
if all readings move the clock by the same, then all answers and the desk in the end are as they were
without previews. -/
theorem previews_leave_no_trace :
    (∀ (f : Filter) library c l text kind submitter id r,
        (f.run library c l text kind submitter id).1 = .ok r →
          r.map Released.text = (f.preview library c text).1) ∧
      (∀ (x : Office) library text, (x.step (.preview library text)).desk = x.desk) ∧
      ∀ (x : Office) k, x.clock.Steady k → ∀ requests,
        let others := requests.filter fun request => !request.isPreview
        x.answers requests = x.answers others ∧ (x.run requests).desk = (x.run others).desk := by
  refine ⟨fun f library c l text kind submitter id r h => Filter.preview_of_run h,
    fun x library text => rfl, fun x k hsteady requests => ?_⟩
  have halike : x.Alike x k := ⟨rfl, rfl, hsteady, hsteady⟩
  obtain ⟨hanswers, hrun⟩ := halike.run requests
  exact ⟨hanswers, hrun.desk⟩

/-- An office where each reading takes 60 of the 200 milliseconds that are allowed. -/
def slow : Office := ⟨.blank "1" 200 (fun _ => false) (fun _ => false), .start .epoch 60⟩

/-- Reading the clock for previews does not use up the time of the message between them. -/
theorem previews_leave_no_trace_of_slow :
    ∃ l, Library.ofRules .basic Library.builtinVersion Library.ultimatumRules = .ok l ∧
      let message : Request := .filter (some l) "URGENT please review" .reminder "a" ⟨.ofNat 1⟩
      slow.clock.Steady 60 ∧
        slow.answers [.preview (some l) "or else", message, .preview (some l) "again"] =
          slow.answers [message] ∧
        ∃ r, slow.answers [message] = [.ok r] ∧
          r.map Released.text =
            (slow.desk.filter.preview (some l) slow.clock "URGENT please review").1 ∧
          r.verdict.content?.map Released.text = some "please review" := by
  have hcontent : (Library.ofRules .basic Library.builtinVersion
      Library.ultimatumRules).toOption.map
      (fun l => (slow.desk.filter.run (some l) slow.clock slow.desk.ledger "URGENT please review"
        .reminder "a" ⟨.ofNat 1⟩).1.toOption.map fun r => r.verdict.content?.map Released.text) =
      some (some (some "please review")) := by
    decide +kernel
  cases hl : Library.ofRules .basic Library.builtinVersion Library.ultimatumRules with
  | error e =>
      rw [hl] at hcontent
      cases hcontent
  | ok l =>
      rw [hl] at hcontent
      have hsteady : slow.clock.Steady 60 := rfl
      have hrun : (slow.desk.filter.run (some l) slow.clock slow.desk.ledger "URGENT please review"
          .reminder "a" ⟨.ofNat 1⟩).1.toOption.map (fun r => r.verdict.content?.map Released.text) =
            some (some "please review") := Option.some.inj hcontent
      refine ⟨l, rfl, hsteady, (previews_leave_no_trace.2.2 slow 60 hsteady _).1, ?_⟩
      cases hr : (slow.desk.filter.run (some l) slow.clock slow.desk.ledger "URGENT please review"
          .reminder "a" ⟨.ofNat 1⟩).1 with
      | error e =>
          rw [hr] at hrun
          cases hrun
      | ok r =>
          rw [hr] at hrun
          exact ⟨r, congrArg (fun answer => [answer]) hr,
            previews_leave_no_trace.1 _ _ _ _ _ _ _ _ _ hr, Option.some.inj hrun⟩

end Office

end Curia
