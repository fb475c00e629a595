import Curia.Filter.DecisionLog
import Curia.Filter.Stages
import Curia.Ledger.Basic

/-!
The filter. Every decision is appended to the ledger and then to the log; no text is released before
both is done. An entry that is on the ledger but could not be logged is held and logged before the
next decision.
-/

namespace Curia

structure Filter where
  version : String
  /-- How many milliseconds the stages may take. -/
  budget : Nat
  log : DecisionLog
  /-- Entries on the ledger that are not in the log yet, the oldest first. -/
  held : List Decision
  /-- The entries that observers were told of. -/
  observed : List Decision

namespace Filter

def standardVersion : String := "coercion-filter/1.0.0"

def standardBudget : Nat := 200

def new (version : String) (budget : Nat) : Filter := ⟨version, budget, .empty, [], []⟩

/-- What the filter makes of a message. Without a library it lets nothing pass. -/
def evaluate (f : Filter) (library : Option Library) (c : Clock) (text : String) :
    FilterResult String × Clock :=
  let (start, c') := c.read
  let (verdict, c') := match library with
    | some l => l.judge text.toList start f.budget c'
    | none => (.rejected .internalFault, c')
  (⟨f.version, library.map Library.version, c.wall, verdict⟩, c')

/-- The same without any trace but that of reading the clock. -/
def preview (f : Filter) (library : Option Library) (c : Clock) (text : String) :
    FilterResult String × Clock :=
  f.evaluate library c text

/-- The result in which an accepted text may be delivered. -/
def release (text : String) (r : FilterResult String) : FilterResult Released :=
  r.map fun content => ⟨content, Digest.ofText text, r.filterVersion, r.timestamp⟩

/-- Logs the entries that are held, up to the first that is refused. -/
def logHeld : List Decision → DecisionLog → Except FilterError Unit × List Decision × DecisionLog
  | [], log => (.ok (), [], log)
  | d :: ds, log => match log.append d with
    | (.ok _, log) => logHeld ds log
    | (.error e, log) => (.error e, d :: ds, log)

/-- Puts an entry on the ledger and into the log, behind those that are held. -/
def audit (f : Filter) (l : Ledger) (d : Decision) : Except FilterError Unit × Filter × Ledger :=
  match logHeld f.held f.log with
  | (.error e, held, log) => (.error e, { f with held, log }, l)
  | (.ok _, held, log) =>
    let f := { f with held, log }
    match l.append d.event with
    | (.error e, l) => (.error (.ledger e), f, l)
    | (.ok _, l) => match f.log.append d with
      | (.ok _, log) => (.ok (), { f with log }, l)
      | (.error e, log) => (.error e, { f with log, held := f.held ++ [d] }, l)

/-- Filters a message; observers are told of the entry once it is on the ledger and in the log. -/
def run (f : Filter) (library : Option Library) (c : Clock) (l : Ledger) (text : String)
    (kind : MessageKind) (submitter : String) (id : DecisionId) :
    Except FilterError (FilterResult Released) × Filter × Clock × Ledger :=
  let (evaluated, c) := f.evaluate library c text
  let result := release text evaluated
  let d := Decision.ofResult id result text kind submitter
  match f.audit l d with
  | (.error e, f, l) => (.error e, f, c, l)
  | (.ok _, f, l) => (.ok result, { f with observed := f.observed ++ [d] }, c, l)

end Filter

end Curia
