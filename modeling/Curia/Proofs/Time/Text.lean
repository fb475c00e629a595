import Curia.Proofs.Decimal
import Curia.Proofs.Time.Calendar
import Curia.Time.Json

/-!
A point in time is read back from its text: from the year, which may be out of the range of four
digits, to the fraction, of which zeros at the end may be left out, and also in a leap second.
-/

namespace Curia.Instant

open Decimal

/-! ### Numbers and marks -/

theorem trimLeft_of_digits {ds rest : List Char} (hds : ∀ c ∈ ds, isDigit c = true)
    (hne : ds ≠ []) : trimLeft (ds ++ rest) = ds ++ rest := by
  obtain ⟨d, more, rfl⟩ := List.exists_cons_of_ne_nil hne
  rw [trimLeft, List.cons_append, List.dropWhile_cons,
    isSpace_of_isDigit (hds d List.mem_cons_self)]
  rfl

theorem readNat_digits {width : Nat} {ds rest : List Char} (hds : ∀ c ∈ ds, isDigit c = true)
    (hne : ds ≠ []) (hwidth : ds.length ≤ width) (hrest : NoDigit rest) :
    readNat width (ds ++ rest) = some (value ds, rest) := by
  simp only [readNat, trimLeft_of_digits hds hne, takeWhile_digits hds hrest,
    List.take_of_length_le hwidth, if_neg hne, List.drop_left]

theorem readNat_padded {width n : Nat} (hwidth : 0 < width) (hn : n < 10 ^ width)
    {rest : List Char} (hrest : NoDigit rest) :
    readNat width (padded width n ++ rest) = some (n, rest) := by
  have hlength : (padded width n).length ≤ width := Nat.le_of_eq (length_padded hwidth hn)
  rw [readNat_digits (fun c => isDigit_of_mem_padded) (padded_ne_nil width n) hlength hrest,
    value_padded]

theorem readMark_cons {mark : Char} (h : isSpace mark = false) (rest : List Char) :
    readMark mark (mark :: rest) = some rest := by
  rw [readMark, trimLeft, List.dropWhile_cons, h]
  exact if_pos rfl

/-! ### The year -/

theorem readYear_signed {d : Char} {more rest : List Char} {n : Nat} (hdigit : isDigit d = true)
    (hread : readNat (d :: more).length (d :: more) = some (n, rest)) :
    readYear ('-' :: d :: more) = some (-(n : Int), rest) ∧
      readYear ('+' :: d :: more) = some ((n : Int), rest) := by
  have hminus : trimLeft ('-' :: d :: more) = '-' :: d :: more := rfl
  have hplus : trimLeft ('+' :: d :: more) = '+' :: d :: more := rfl
  constructor
  · simp only [readYear, hminus, hdigit, hread, if_pos, Option.map_some]
  · simp only [readYear, hplus, hdigit, hread, if_pos, Option.map_some]
    rfl

theorem readYear_unsigned {d : Char} {more rest : List Char} {n : Nat} (hdigit : isDigit d = true)
    (hread : readNat 4 (d :: more) = some (n, rest)) :
    readYear (d :: more) = some ((n : Int), rest) := by
  have htrim : trimLeft (d :: more) = d :: more := by
    rw [trimLeft, List.dropWhile_cons, isSpace_of_isDigit hdigit]
    rfl
  simp only [readYear, htrim]
  split
  · next h =>
    rw [(List.cons.inj h).1] at hdigit
    cases hdigit
  · next h =>
    rw [(List.cons.inj h).1] at hdigit
    cases hdigit
  · rw [hread]
    rfl

theorem readYear_yearText (y : Int) {rest : List Char} (hrest : NoDigit rest) :
    readYear (yearText y ++ rest) = some (y, rest) := by
  have hpadded (n : Nat) : ∀ c ∈ padded 4 n, isDigit c = true := fun c => isDigit_of_mem_padded
  have hfirst (n : Nat) : ∃ d more, padded 4 n ++ rest = d :: more ∧ isDigit d = true := by
    obtain ⟨d, more, hd⟩ := List.exists_cons_of_ne_nil (padded_ne_nil 4 n)
    exact ⟨d, more ++ rest, by rw [hd, List.cons_append], hpadded n d (hd ▸ List.mem_cons_self)⟩
  rw [yearText]
  split
  · next hy =>
    obtain ⟨d, more, hd, hdigit⟩ := hfirst y.toNat
    have hread : readNat 4 (padded 4 y.toNat ++ rest) = some (y.toNat, rest) :=
      readNat_padded (by decide) (by omega) hrest
    rw [hd] at hread ⊢
    rw [readYear_unsigned hdigit hread, Int.toNat_of_nonneg hy.1]
  · next hy =>
    obtain ⟨d, more, hd, hdigit⟩ := hfirst y.natAbs
    have hlength : (padded 4 y.natAbs).length ≤ (padded 4 y.natAbs ++ rest).length := by
      rw [List.length_append]
      omega
    have hread := readNat_digits (hpadded y.natAbs) (padded_ne_nil 4 _) hlength hrest
    rw [hd, value_padded] at hread
    obtain ⟨hminus, hplus⟩ := readYear_signed hdigit hread
    split
    · next hneg =>
      rw [List.cons_append, hd, hminus]
      congr 2
      omega
    · next hneg =>
      rw [List.cons_append, hd, hplus]
      congr 2
      omega

/-! ### The fraction -/

theorem readFraction_padded {width n : Nat} (hwidth : 0 < width) (hle : width ≤ 9)
    (hn : n < 10 ^ width) {rest : List Char} (hrest : NoDigit rest) :
    readFraction ('.' :: (padded width n ++ rest)) = some (n * 10 ^ (9 - width), rest) := by
  have hlength : (padded width n).length = width := length_padded hwidth hn
  have hall : ∀ c ∈ padded width n, isDigit c = true := fun c => isDigit_of_mem_padded
  have htake : ((padded width n ++ rest).takeWhile isDigit).take 9 = padded width n := by
    rw [takeWhile_digits hall hrest, List.take_of_length_le (by omega)]
  simp only [readFraction, htake, if_neg (padded_ne_nil width n), value_padded, hlength,
    dropWhile_digits hall hrest]
  rfl

/-- Zeros at the end are left out in groups of three. -/
theorem readFraction_fractionText {n : Nat} (h : n < second) {rest : List Char}
    (hrest : NoDigit rest) (hpoint : ∀ c ∈ rest.head?, c ≠ '.') :
    readFraction (fractionText n ++ rest) = some (n, rest) := by
  simp only [second] at h
  rw [fractionText]
  split
  · next hzero =>
    rw [hzero, List.nil_append]
    unfold readFraction
    split
    · exact absurd rfl (hpoint _ rfl)
    · rfl
  · split
    · rw [List.cons_append, readFraction_padded (by decide) (by decide) (by omega) hrest]
      congr 2
      omega
    · split
      · rw [List.cons_append, readFraction_padded (by decide) (by decide) (by omega) hrest]
        congr 2
        omega
      · rw [List.cons_append, readFraction_padded (by decide) (by decide) (by omega) hrest]
        congr 2
        omega

/-! ### The whole text -/

/-- A leap second is the second 60 of its minute, and no other second has that number. -/
theorem compose_ofDays (t : Instant) :
    let s := (t.seconds.fmod 86400).toNat
    compose (Date.ofDays (t.seconds.fdiv 86400)) (s / 3600) (s / 60 % 60)
      (s % 60 + t.nanos / second) (t.nanos % second) 0 = some t := by
  intro s
  obtain ⟨hmin, hmax, hnanos, hleap⟩ := t.valid
  generalize hdays : t.seconds.fdiv 86400 = days
  have hseconds : t.seconds = 86400 * days + s ∧ s < 86400 := by
    rw [← hdays, Int.fdiv_eq_ediv_of_nonneg _ (by decide)]
    simp only [s, Int.fmod_eq_emod_of_nonneg _ (show (0 : Int) ≤ 86400 by decide)]
    omega
  have hyear : -262143 ≤ (Date.ofDays days).year ∧ (Date.ofDays days).year ≤ 262142 := by
    simp only [minSeconds] at hmin
    simp only [maxSeconds] at hmax
    exact Date.year_ofDays (by omega) (by omega)
  have hclock : (Date.ofDays days).isValid = true ∧ -262143 ≤ (Date.ofDays days).year ∧
      (Date.ofDays days).year ≤ 262142 ∧ s / 3600 ≤ 23 ∧ s / 60 % 60 ≤ 59 ∧
      s % 60 + t.nanos / second ≤ 60 ∧ (0 : Int).natAbs < 86400 := by
    refine ⟨Date.isValid_ofDays days, hyear.1, hyear.2, by omega, by omega, ?_, by decide⟩
    simp only [second] at hnanos ⊢
    omega
  have hof : of? t.seconds t.nanos = some t := dif_pos t.valid
  rw [compose, if_pos hclock, Date.toDays_ofDays]
  by_cases hlast : s % 60 + t.nanos / second = 60
  · have hrest : t.nanos % second + second = t.nanos := by
      simp only [second] at *
      omega
    have hsum : 86400 * days + 3600 * ((s / 3600 : Nat) : Int) + 60 * ((s / 60 % 60 : Nat) : Int) +
        ((59 : Nat) : Int) - 0 = t.seconds := by
      simp only [second] at *
      omega
    simp only [if_pos hlast, hsum, hrest]
    exact hof
  · have hrest : t.nanos % second = t.nanos ∧ t.nanos / second = 0 := by
      simp only [second] at *
      omega
    have hsum : 86400 * days + 3600 * ((s / 3600 : Nat) : Int) + 60 * ((s / 60 % 60 : Nat) : Int) +
        ((s % 60 : Nat) : Int) - 0 = t.seconds := by omega
    rw [hrest.2, Nat.add_zero] at hlast
    simp only [hrest, Nat.add_zero, if_neg hlast, hsum]
    exact hof

theorem readChars_chars (t : Instant) : readChars t.chars = some t := by
  have hcompose := t.compose_ofDays
  obtain ⟨hmonth, hday⟩ := Date.lt_of_isValid (Date.isValid_ofDays (t.seconds.fdiv 86400))
  have hlt : (t.seconds.fmod 86400).toNat < 86400 := by
    rw [Int.fmod_eq_emod_of_nonneg _ (by decide)]
    omega
  have hnanos := t.valid.2.2.1
  simp only [chars, List.append_assoc, List.cons_append]
  generalize Date.ofDays (t.seconds.fdiv 86400) = date at hcompose hmonth hday ⊢
  generalize (t.seconds.fmod 86400).toNat = s at hcompose hlt ⊢
  have hsec : s % 60 + t.nanos / second < 100 := by
    simp only [second] at *
    omega
  have hpoint : ∀ c ∈ ['Z'].head?, c ≠ '.' := by
    intro c hc
    rw [← Option.some.inj hc]
    decide
  have hfraction : readFraction (fractionText (t.nanos % second) ++ ['Z']) =
      some (t.nanos % second, ['Z']) :=
    readFraction_fractionText (Nat.mod_lt _ (by decide)) (noDigit_cons (by decide) _) hpoint
  have hend : NoDigit (fractionText (t.nanos % second) ++ ['Z']) := by
    rw [fractionText]
    repeat' split
    all_goals exact noDigit_cons (by decide) _
  have hcolon (rest : List Char) : NoDigit (':' :: rest) := noDigit_cons (by decide) rest
  have hdash (rest : List Char) : NoDigit ('-' :: rest) := noDigit_cons (by decide) rest
  have hmark (rest : List Char) : NoDigit ('T' :: rest) := noDigit_cons (by decide) rest
  have hzone : readZone (trimLeft ['Z']) = some (0, []) := rfl
  simp only [readChars, readYear_yearText _ (hdash _), bind, Option.bind,
    readMark_cons (show isSpace '-' = false by decide),
    readMark_cons (show isSpace ':' = false by decide),
    readNat_padded (show 0 < 2 by decide) hmonth (hdash _),
    readNat_padded (show 0 < 2 by decide) hday (hmark _),
    readNat_padded (show 0 < 2 by decide) (show s / 3600 < 10 ^ 2 by omega) (hcolon _),
    readNat_padded (show 0 < 2 by decide) (show s / 60 % 60 < 10 ^ 2 by omega) (hcolon _),
    readNat_padded (show 0 < 2 by decide) hsec hend, hfraction, hzone]
  exact hcompose

theorem ofString?_toString (t : Instant) : ofString? t.toString = some t := by
  rw [ofString?, toString, String.toList_ofList]
  exact t.readChars_chars

theorem ofJson_toJson (t : Instant) : ofJson t.toJson = .ok t := by
  simp [ofJson, toJson, Json.asString, ofString?_toString, bind, Except.bind]

end Curia.Instant
