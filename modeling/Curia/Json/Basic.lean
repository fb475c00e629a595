/-!
JSON values. An object keeps its members in the order in which they stand; the canonical form
has them in ascending order of their names, each name once.
-/

namespace Curia

/-- A JSON number: an integer, or the bits of a binary64 number. -/
inductive Json.Number where
  | int (i : Int)
  | float (bits : UInt64)
  deriving DecidableEq

inductive Json where
  | null
  | bool (b : Bool)
  | number (n : Json.Number)
  | string (s : String)
  | array (items : List Json)
  | object (members : List (String × Json))

namespace Json

def nat (n : Nat) : Json := .number (.int n)

def ofOption (f : α → Json) : Option α → Json
  | none => .null
  | some a => f a

def strings (ss : List String) : Json := .array (ss.map .string)

mutual

/-- Whether two values are the same, the order of members included. -/
def same : Json → Json → Bool
  | .null, .null => true
  | .bool a, .bool b => a = b
  | .number m, .number n => m = n
  | .string s, .string t => s = t
  | .array vs, .array ws => sameItems vs ws
  | .object ms, .object ns => sameMembers ms ns
  | _, _ => false

def sameItems : List Json → List Json → Bool
  | [], [] => true
  | v :: vs, w :: ws => same v w && sameItems vs ws
  | _, _ => false

def sameMembers : List (String × Json) → List (String × Json) → Bool
  | [], [] => true
  | (m, v) :: ms, (n, w) :: ns => m = n && same v w && sameMembers ms ns
  | _, _ => false

end

mutual

theorem eq_of_same : ∀ {v w : Json}, same v w = true → v = w
  | .null, w, h => by cases w <;> simp_all [same]
  | .bool a, w, h => by cases w <;> simp_all [same]
  | .number n, w, h => by cases w <;> simp_all [same]
  | .string s, w, h => by cases w <;> simp_all [same]
  | .array vs, w, h => by
    cases w <;> simp only [same, Bool.false_eq_true] at h
    rw [eq_of_sameItems h]
  | .object ms, w, h => by
    cases w <;> simp only [same, Bool.false_eq_true] at h
    rw [eq_of_sameMembers h]

theorem eq_of_sameItems : ∀ {vs ws : List Json}, sameItems vs ws = true → vs = ws
  | [], [], _ => rfl
  | [], _ :: _, h => by simp [sameItems] at h
  | _ :: _, [], h => by simp [sameItems] at h
  | v :: vs, w :: ws, h => by
    simp only [sameItems, Bool.and_eq_true] at h
    rw [eq_of_same h.1, eq_of_sameItems h.2]

theorem eq_of_sameMembers :
    ∀ {ms ns : List (String × Json)}, sameMembers ms ns = true → ms = ns
  | [], [], _ => rfl
  | [], _ :: _, h => by simp [sameMembers] at h
  | _ :: _, [], h => by simp [sameMembers] at h
  | (m, v) :: ms, (n, w) :: ns, h => by
    simp only [sameMembers, Bool.and_eq_true, decide_eq_true_eq] at h
    rw [h.1.1, eq_of_same h.1.2, eq_of_sameMembers h.2]

end

mutual

theorem same_refl : ∀ v : Json, same v v = true
  | .null => rfl
  | .bool a => by simp [same]
  | .number n => by simp [same]
  | .string s => by simp [same]
  | .array vs => by simp [same, sameItems_refl vs]
  | .object ms => by simp [same, sameMembers_refl ms]

theorem sameItems_refl : ∀ vs : List Json, sameItems vs vs = true
  | [] => rfl
  | v :: vs => by simp [sameItems, same_refl v, sameItems_refl vs]

theorem sameMembers_refl : ∀ ms : List (String × Json), sameMembers ms ms = true
  | [] => rfl
  | (m, v) :: ms => by simp [sameMembers, same_refl v, sameMembers_refl ms]

end

instance : DecidableEq Json := fun v w =>
  if h : same v w then .isTrue (eq_of_same h)
  else .isFalse fun e => h (e ▸ same_refl v)

/-- Puts a member in its place among members in ascending order; a member of that name is
replaced. -/
def insertMember (name : String) (v : Json) : List (String × Json) → List (String × Json)
  | [] => [(name, v)]
  | (n, w) :: rest =>
    if name < n then (name, v) :: (n, w) :: rest
    else if name = n then (name, v) :: rest
    else (n, w) :: insertMember name v rest

def sortMembers (members : List (String × Json)) : List (String × Json) :=
  members.foldl (fun sorted m => insertMember m.1 m.2 sorted) []

/-- An object with its members in order. -/
def record (members : List (String × Json)) : Json := .object (sortMembers members)

mutual

/-- The form in which every object has its names in ascending order. Of several members of one
name the last counts. -/
def canonical : Json → Json
  | .array items => .array (canonicalItems items)
  | .object members => .object (sortMembers (canonicalMembers members))
  | v => v

def canonicalItems : List Json → List Json
  | [] => []
  | v :: vs => canonical v :: canonicalItems vs

def canonicalMembers : List (String × Json) → List (String × Json)
  | [] => []
  | (name, v) :: ms => (name, canonical v) :: canonicalMembers ms

end

mutual

/-- How deep arrays and objects are nested; a value that is neither has depth zero. -/
def depth : Json → Nat
  | .array items => itemsDepth items + 1
  | .object members => membersDepth members + 1
  | _ => 0

def itemsDepth : List Json → Nat
  | [] => 0
  | v :: vs => max (depth v) (itemsDepth vs)

def membersDepth : List (String × Json) → Nat
  | [] => 0
  | (_, v) :: ms => max (depth v) (membersDepth ms)

end

/-- Whether the exponent bits allow a finite number. -/
def Number.isFinite : Number → Bool
  | .int _ => true
  | .float bits => (bits >>> 52) &&& 0x7ff != 0x7ff

mutual

/-- Whether every number in the value is within the range of binary64. -/
def isFinite : Json → Bool
  | .number n => n.isFinite
  | .array items => itemsFinite items
  | .object members => membersFinite members
  | _ => true

def itemsFinite : List Json → Bool
  | [] => true
  | v :: vs => isFinite v && itemsFinite vs

def membersFinite : List (String × Json) → Bool
  | [] => true
  | (_, v) :: ms => isFinite v && membersFinite ms

end

end Json

end Curia
