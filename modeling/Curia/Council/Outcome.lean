import Curia.Data.SortedMap
import Curia.Json.Decode

/-!
The ways in which a petition can be disposed of, and the phases of a deliberation.
-/

namespace Curia

inductive Outcome where
  | acknowledge
  | refer
  | escalate
  deriving DecidableEq

namespace Outcome

def all : List Outcome := [acknowledge, refer, escalate]

def name : Outcome → String
  | acknowledge => "ACKNOWLEDGE"
  | refer => "REFER"
  | escalate => "ESCALATE"

def label : Outcome → String
  | acknowledge => "Acknowledge"
  | refer => "Refer"
  | escalate => "Escalate"

def rank : Outcome → Nat
  | acknowledge => 0
  | refer => 1
  | escalate => 2

instance : Named Outcome := ⟨all, name, label⟩
instance : Ord Outcome := ordByKey rank
instance : Std.TransOrd Outcome := transOrd_ordByKey _
instance : Std.LawfulEqOrd Outcome :=
  lawfulEqOrd_ordByKey _ fun a b h => by cases a <;> cases b <;> first | rfl | cases h

def lowerAscii (c : Char) : Char :=
  if 'A' ≤ c ∧ c ≤ 'Z' then Char.ofNat (c.toNat + 32) else c

def sameLetters (s t : String) : Bool :=
  s.toList.map lowerAscii = t.toList.map lowerAscii

/-- Reads a name in which the letters from A to Z may have either case. -/
def ofText? (s : String) : Option Outcome := all.find? fun o => sameLetters o.name s

@[simp] theorem mem_all (o : Outcome) : o ∈ all := by cases o <;> decide

end Outcome

inductive Phase where
  | assessment
  | position
  | crossExamination
  | vote
  | complete
  deriving DecidableEq

namespace Phase

def all : List Phase := [assessment, position, crossExamination, vote, complete]

/-- The phases of which a transcript has to be witnessed. -/
def witnessed : List Phase := [assessment, position, crossExamination, vote]

def name : Phase → String
  | assessment => "ASSESSMENT"
  | position => "POSITION"
  | crossExamination => "CROSS_EXAMINATION"
  | vote => "VOTE"
  | complete => "COMPLETE"

def label : Phase → String
  | assessment => "Assessment"
  | position => "Position"
  | crossExamination => "CrossExamination"
  | vote => "Vote"
  | complete => "Complete"

def rank : Phase → Nat
  | assessment => 0
  | position => 1
  | crossExamination => 2
  | vote => 3
  | complete => 4

instance : Named Phase := ⟨all, name, label⟩
instance : Ord Phase := ordByKey rank
instance : Std.TransOrd Phase := transOrd_ordByKey _
instance : Std.LawfulEqOrd Phase :=
  lawfulEqOrd_ordByKey _ fun a b h => by cases a <;> cases b <;> first | rfl | cases h

/-- The later of two phases. -/
def later (p q : Phase) : Phase := if p.rank < q.rank then q else p

theorem mem_witnessed {p : Phase} : p ∈ witnessed ↔ p ≠ complete := by
  cases p <;> decide

end Phase

end Curia
