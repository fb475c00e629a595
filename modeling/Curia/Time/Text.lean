import Curia.Decimal.Digits
import Curia.Text.Blank
import Curia.Time.Instant

/-!
The text of points in time. It is written as RFC 3339 has it, in universal time and with as few
groups of three fraction digits as are needed. Read are also numbers with fewer digits, blanks
between the parts and any offset from universal time.
-/

namespace Curia.Instant

open Decimal

/-! ### Writing -/

/-- Years from 0 to 9999 have four digits, others a sign and at least four. -/
def yearText (y : Int) : List Char :=
  if 0 ≤ y ∧ y ≤ 9999 then padded 4 y.toNat
  else (if y < 0 then '-' else '+') :: padded 4 y.natAbs

def fractionText (nanos : Nat) : List Char :=
  if nanos = 0 then []
  else if nanos % 1000000 = 0 then '.' :: padded 3 (nanos / 1000000)
  else if nanos % 1000 = 0 then '.' :: padded 6 (nanos / 1000)
  else '.' :: padded 9 nanos

def chars (t : Instant) : List Char :=
  let date := Date.ofDays (t.seconds.fdiv 86400)
  let s := (t.seconds.fmod 86400).toNat
  yearText date.year ++ '-' :: padded 2 date.month ++ '-' :: padded 2 date.day ++
    'T' :: padded 2 (s / 3600) ++ ':' :: padded 2 (s / 60 % 60) ++
    ':' :: padded 2 (s % 60 + t.nanos / second) ++ fractionText (t.nanos % second) ++ ['Z']

def toString (t : Instant) : String := String.ofList t.chars

/-! ### Reading -/

/-- At least one and at most `width` digits, after blanks. -/
def readNat (width : Nat) (cs : List Char) : Option (Nat × List Char) :=
  let cs := trimLeft cs
  let ds := (cs.takeWhile isDigit).take width
  if ds = [] then none else some (value ds, cs.drop ds.length)

/-- Up to four digits, or a sign and any number of digits. -/
def readYear (cs : List Char) : Option (Int × List Char) :=
  let signed (negative : Bool) (rest : List Char) : Option (Int × List Char) :=
    match rest with
    | c :: _ =>
      if isDigit c then
        (readNat rest.length rest).map fun (n, rest) => (if negative then -n else n, rest)
      else none
    | [] => none
  match trimLeft cs with
  | '-' :: rest => signed true rest
  | '+' :: rest => signed false rest
  | rest => (readNat 4 rest).map fun (n, rest) => (n, rest)

/-- A separator, after blanks. -/
def readMark (mark : Char) (cs : List Char) : Option (List Char) :=
  match trimLeft cs with
  | c :: rest => if c = mark then some rest else none
  | [] => none

/-- Nanoseconds from the digits after a point; those after the ninth have no weight. -/
def readFraction : List Char → Option (Nat × List Char)
  | '.' :: rest =>
    let ds := (rest.takeWhile isDigit).take 9
    if ds = [] then none
    else some (value ds * Nat.pow 10 (9 - ds.length), rest.dropWhile isDigit)
  | rest => some (0, rest)

/-- Seconds of hours and minutes, two digits each. -/
def readOffset (cs : List Char) : Option (Nat × List Char) :=
  match cs with
  | a :: b :: rest =>
    match rest.dropWhile fun c => c = ':' || isSpace c with
    | c :: d :: rest =>
      if [a, b, c, d].all isDigit ∧ c < '6' then
        some (3600 * value [a, b] + 60 * value [c, d], rest)
      else none
    | _ => none
  | _ => none

/-- The zone at the end: its offset in seconds to the east. -/
def readZone (cs : List Char) : Option (Int × List Char) :=
  let isMark (c : Char) (upper : Char) : Bool := c = upper || c = upper.toLower
  let sign : List Char → Option (Int × List Char)
    | 'Z' :: rest => some (0, rest)
    | 'z' :: rest => some (0, rest)
    | '+' :: rest => (readOffset rest).map fun (n, rest) => (n, rest)
    | '-' :: rest => (readOffset rest).map fun (n, rest) => (-n, rest)
    | '\u2212' :: rest => (readOffset rest).map fun (n, rest) => (-n, rest)
    | _ => none
  match cs with
  | u :: t :: c :: rest =>
    if isMark u 'U' && isMark t 'T' && isMark c 'C' then some (0, rest) else sign cs
  | _ => sign cs

/-- The date and the time of day must exist where they are reckoned, and the point in time must be
representable both there and in universal time. The second 60 continues the second 59. -/
def compose (date : Date) (hour minute sec nanos : Nat) (offset : Int) : Option Instant :=
  if date.isValid ∧ -262143 ≤ date.year ∧ date.year ≤ 262142 ∧ hour ≤ 23 ∧ minute ≤ 59 ∧ sec ≤ 60 ∧
      offset.natAbs < 86400 then
    let (sec, nanos) := if sec = 60 then (59, nanos + second) else (sec, nanos)
    of? (86400 * date.toDays + 3600 * hour + 60 * minute + sec - offset) nanos
  else none

def readChars (cs : List Char) : Option Instant := do
  let (year, cs) ← readYear cs
  let (month, cs) ← readNat 2 (← readMark '-' cs)
  let (day, cs) ← readNat 2 (← readMark '-' cs)
  let cs ← match cs with
    | c :: rest => if c = 'T' ∨ c = 't' ∨ c = ' ' then some rest else none
    | [] => none
  let (hour, cs) ← readNat 2 cs
  let (minute, cs) ← readNat 2 (← readMark ':' cs)
  let (sec, cs) ← readNat 2 (← readMark ':' cs)
  let (nanos, cs) ← readFraction cs
  let (offset, cs) ← readZone (trimLeft cs)
  if trimLeft cs = [] then compose ⟨year, month, day⟩ hour minute sec nanos offset else none

def ofString? (s : String) : Option Instant := readChars s.toList

end Curia.Instant
