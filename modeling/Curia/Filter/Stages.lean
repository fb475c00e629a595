import Curia.Clock
import Curia.Filter.Verdict

/-!
The stages that a message passes: rules for blocking, for rejecting and for transforming, in this
order. After each stage the time spent is compared with what is allowed.
-/

namespace Curia

/-! ### Transforming -/

/-- The text with the given spans replaced, where the spans are in order and the first number is the
position of the text. -/
def replaceSpans (replacement : List Char) (pos : Nat) (text : List Char) :
    List Regex.Span → List Char
  | [] => text
  | s :: rest =>
    text.take (s.start - pos) ++ replacement ++
      replaceSpans replacement s.stop (text.drop (s.stop - pos)) rest

/-- The changes that a rule makes at the given spans of a text. -/
def changesAt (rule : Rule) (replacement : String) (text : List Char) (spans : List Regex.Span) :
    List Change :=
  spans.map fun s =>
    { rule := rule.id
      pattern := rule.pattern
      found := String.ofList ((text.drop s.start).take (s.stop - s.start))
      replacement
      position := s.start }

/-- Applies one rule. The text of the replacement stands for itself. -/
def applyRule (m : Matcher) (text : List Char) : List Char × List Change :=
  match m.regex, m.rule.replacement with
  | .ok regex, some replacement =>
    let spans := regex.matchesIn text
    (replaceSpans replacement.toList 0 text spans, changesAt m.rule replacement text spans)
  | _, _ => (text, [])

/-- Applies rules in turn, each to what the one before it has made. -/
def applyRules (text : List Char) : List Matcher → List Char × List Change
  | [] => (text, [])
  | m :: ms =>
    let (text, changes) := applyRule m text
    let (text, more) := applyRules text ms
    (text, changes ++ more)

def isGap (c : Char) : Bool := c = ' ' || c = '\t'

/-- Puts one space for each run of spaces and tabs; the flag tells whether a run has begun. -/
def collapse (inRun : Bool) : List Char → List Char
  | [] => []
  | c :: cs =>
    if isGap c then
      if inRun then collapse true cs else ' ' :: collapse true cs
    else c :: collapse false cs

def normalizeGaps (text : List Char) : List Char := trim (collapse false text)

/-- Applies the rules, and tidies up the gaps if any of them has changed something. -/
def transform (ms : List Matcher) (text : List Char) : List Char × List Change :=
  let (after, changes) := applyRules text ms
  (if changes.isEmpty then after else normalizeGaps after, changes)

/-! ### All stages -/

/-- Why the stages stop before they come to a verdict. -/
inductive StageFault where
  /-- A rule cannot be used. -/
  | malformed (rule : String) (fault : RuleFault)
  /-- More time has been spent than is allowed. -/
  | late
  deriving DecidableEq

/-- Nothing is let pass on a fault. -/
def StageFault.reason : StageFault → Reason
  | malformed _ _ => .internalFault
  | late => .processingTimeout

/-- The first rule that finds something in the text. The search ends with a rule that cannot be
used. -/
def firstFinding (text : List Char) : List Matcher → Except StageFault (Option Matcher)
  | [] => .ok none
  | m :: ms => match m.regex with
    | .error fault => .error (.malformed m.rule.id fault)
    | .ok regex => if regex.isMatch text then .ok (some m) else firstFinding text ms

/-- What a rule for blocking makes of a text in which it finds something. -/
def Rule.blocked? (r : Rule) : Option (Verdict String) :=
  r.violation.map fun v => .blocked v s!"{r.description} (rule {r.id})"

/-- What a rule for rejecting makes of a text in which it finds something. -/
def Rule.rejected? (r : Rule) : Option (Verdict String) := r.reason.map .rejected

/-- What the first rule that finds something makes of the text, if there is such a rule. -/
def withhold (verdict? : Rule → Option (Verdict String)) (text : List Char) (ms : List Matcher) :
    Except StageFault (Option (Verdict String)) :=
  match firstFinding text ms with
  | .error fault => .error fault
  | .ok none => .ok none
  | .ok (some m) => match verdict? m.rule with
    | some v => .ok (some v)
    | none => .error (.malformed m.rule.id (.noAction m.rule.severity))

/-- What a rule for transforming lacks. -/
def Matcher.transformFault? (m : Matcher) : Option StageFault :=
  match m.regex, m.rule.replacement with
  | .error fault, _ => some (.malformed m.rule.id fault)
  | .ok _, none => some (.malformed m.rule.id (.noAction m.rule.severity))
  | .ok _, some _ => none

/-- Lets the text pass with the changes that the rules make, if they can all be used. -/
def rework (text : List Char) (ms : List Matcher) : Except StageFault (Verdict String) :=
  match ms.findSome? Matcher.transformFault? with
  | some fault => .error fault
  | none =>
    let (after, changes) := transform ms text
    .ok (.accepted (String.ofList after) changes)

/-- Compares the time since the start with what is allowed. -/
def overBudget (start budget : Nat) (c : Clock) : Bool × Clock :=
  let (now, c) := c.read
  (budget < now - start, c)

/-- The stages in their order, given when the clock was read at the start. -/
def Library.stages (l : Library) (text : List Char) (start budget : Nat) (c : Clock) :
    Except StageFault (Verdict String) × Clock :=
  match l.faults.head? with
  | some (rule, fault) => (.error (.malformed rule fault), c)
  | none => match withhold Rule.blocked? text l.blocking with
    | .error fault => (.error fault, c)
    | .ok (some v) => (.ok v, c)
    | .ok none =>
      let (late, c) := overBudget start budget c
      if late then (.error .late, c)
      else match withhold Rule.rejected? text l.rejecting with
        | .error fault => (.error fault, c)
        | .ok (some v) => (.ok v, c)
        | .ok none =>
          let (late, c) := overBudget start budget c
          if late then (.error .late, c)
          else match rework text l.transforming with
            | .error fault => (.error fault, c)
            | .ok v =>
              let (late, c) := overBudget start budget c
              if late then (.error .late, c) else (.ok v, c)

/-- What a library makes of a message. A library with a rule that cannot be used lets nothing
pass. -/
def Library.judge (l : Library) (text : List Char) (start budget : Nat) (c : Clock) :
    Verdict String × Clock :=
  match l.stages text start budget c with
  | (.ok v, c) => (v, c)
  | (.error fault, c) => (.rejected fault.reason, c)

end Curia
