import Mathlib.Algebra.Group.Int.Defs
import Curia.Json.Reader
import Curia.Json.Writer
import Curia.Proofs.Decimal

/-!
Strings and integers are read back from their JSON text, whatever follows. A number only has to be
followed by something that does not belong to a number, as every number inside of a value is.
-/

namespace Curia.Json

/-! ### Strings -/

/-- Below the space a character has at most two hexadecimal digits. -/
theorem readCode_control {c : Char} (h : c.toNat < 32) (rest : List Char) :
    readCode ('0' :: '0' :: Hex.digit (c.toNat / 16) :: Hex.digit (c.toNat % 16) :: rest) =
      some (some c, rest) := by
  have hhigh := Hex.value?_digit (show c.toNat / 16 < 16 by omega)
  have hlow := Hex.value?_digit (Nat.mod_lt c.toNat (by decide : 0 < 16))
  have hzero : Hex.value? '0' = some 0 := by decide
  have hunit : readUnit ('0' :: '0' :: Hex.digit (c.toNat / 16) :: Hex.digit (c.toNat % 16) ::
      rest) = some (c.toNat, rest) := by
    simp only [readUnit, Hex.number?, Hex.number?.go, hzero, hhigh, hlow, Option.map_some]
    congr 2
    omega
  rw [readCode, hunit]
  simp only
  rw [if_neg (by omega), if_neg (by omega), Char.ofNat_toNat]

theorem readChar_of_plain {c : Char} (hslash : c ≠ '\\') (hcontrol : ¬c.toNat < 32)
    (rest : List Char) : readChar (c :: rest) = some (some c, rest) := by
  have hplain : ¬(c = '\\' ∨ c.toNat < 32) := not_or.2 ⟨hslash, hcontrol⟩
  unfold readChar
  split
  · next h => exact absurd (List.cons.inj h).1 hslash
  · next h => exact absurd (List.cons.inj h).1 hslash
  · next h =>
    obtain ⟨rfl, rfl⟩ := List.cons.inj h
    exact if_neg hplain
  · next h => cases h

/-- What is written for a character is not the quote that ends a string, and it is read as the
character. -/
theorem readChar_writeChar (c : Char) (rest : List Char) :
    (∀ cs, writeChar c rest ≠ '"' :: cs) ∧
      readChar (writeChar c rest) = some (some c, rest) := by
  unfold writeChar
  split
  case h_8 hquote hslash _ _ _ _ _ =>
    split
    · next hcontrol => exact ⟨fun _ h => (by cases h), readCode_control hcontrol rest⟩
    · next hcontrol =>
      exact ⟨fun cs h => hquote (List.cons.inj h).1, readChar_of_plain hslash hcontrol rest⟩
  all_goals exact ⟨fun _ h => (by cases h), rfl⟩

theorem readChars_writeChars (cs rest : List Char) {n : Nat} (hn : cs.length < n) :
    readChars n (writeChars cs ('"' :: rest)) = some (some cs, rest) := by
  induction cs generalizing n with
  | nil =>
      cases n with
      | zero => cases hn
      | succ n => rfl
  | cons c cs ih =>
      cases n with
      | zero => cases hn
      | succ n =>
          have ih := ih (n := n) (Nat.lt_of_succ_lt_succ hn)
          obtain ⟨hquote, hchar⟩ := readChar_writeChar c (writeChars cs ('"' :: rest))
          rw [writeChars, List.foldr_cons, ← writeChars, readChars, hchar]
          · simp only [ih]
            rfl
          · exact hquote

theorem length_writeChar (c : Char) (rest : List Char) :
    rest.length < (writeChar c rest).length := by
  unfold writeChar
  repeat' split
  all_goals simp only [List.length_cons]; omega

theorem length_writeChars (cs rest : List Char) :
    cs.length + rest.length ≤ (writeChars cs rest).length := by
  induction cs with
  | nil => exact Nat.le_of_eq (Nat.zero_add _)
  | cons c cs ih =>
      have hchar := length_writeChar c (writeChars cs rest)
      rw [writeChars, List.foldr_cons, ← writeChars, List.length_cons]
      omega

/-! ### Numbers -/

namespace Number

open Decimal

theorem le_foldl_digits (s : Nat) (ds : List Char) :
    s ≤ ds.foldl (fun n c => 10 * n + digitValue c) s := by
  induction ds generalizing s with
  | nil => exact Nat.le_refl s
  | cons d ds ih =>
      rw [List.foldl_cons]
      exact Nat.le_trans (by omega) (ih (10 * s + digitValue d))

/-- Digits are all taken if the number that they make fits. -/
theorem gather_of_lt {s : Nat} {ds : List Char}
    (h : ds.foldl (fun n c => 10 * n + digitValue c) s < UInt64.size) :
    gather s ds = (ds.foldl (fun n c => 10 * n + digitValue c) s, ds.length) := by
  induction ds generalizing s with
  | nil => rfl
  | cons d ds ih =>
      rw [List.foldl_cons] at h
      have hnext : 10 * s + digitValue d < UInt64.size := Nat.lt_of_le_of_lt (le_foldl_digits _ _) h
      rw [gather]
      simp only [if_pos hnext, ih h]
      rfl

theorem gather_digits {n : Nat} (h : n < UInt64.size) :
    gather 0 (digits n) = (n, (digits n).length) := by
  have hvalue : (digits n).foldl (fun n c => 10 * n + digitValue c) 0 = n := value_digits n
  have hgather : gather 0 (digits n) = (value (digits n), (digits n).length) :=
    gather_of_lt (by rwa [hvalue])
  rwa [value_digits] at hgather

/-- The integers that have a text of their own. -/
def InRange (i : Int) : Prop := -2 ^ 63 ≤ i ∧ i < 2 ^ 64

instance (i : Int) : Decidable (InRange i) := inferInstanceAs (Decidable (_ ∧ _))

theorem ofLiteral_ofNat {n : Nat} (h : InRange n) :
    ofLiteral ⟨false, digits n, none, none⟩ = .int n := by
  have hfits : n < UInt64.size := by
    have := h.2
    simp only [UInt64.size]
    omega
  simp [ofLiteral, gather_digits hfits]

theorem ofLiteral_negSucc {n : Nat} (h : InRange (.negSucc n)) :
    ofLiteral ⟨true, digits (n + 1), none, none⟩ = .int (.negSucc n) := by
  have hle : n + 1 ≤ 9223372036854775808 := by
    have := h.1
    omega
  have hfits : n + 1 < UInt64.size := by
    simp only [UInt64.size]
    omega
  have hsmall : ¬(n + 1 = 0 ∨ 1 <<< 63 < n + 1) := by
    simp only [Nat.reduceShiftLeft]
    omega
  have htaken : ¬((digits (n + 1)).length : Int) - (digits (n + 1)).length ≠ 0 := by omega
  simp only [ofLiteral, gather_digits hfits, if_neg htaken, if_neg hsmall]
  rfl

end Number

/-- Nothing that belongs to a number comes first. -/
def EndsNumber (rest : List Char) : Prop :=
  ∀ c ∈ rest.head?, Decimal.isDigit c = false ∧ c ≠ '.' ∧ c ≠ 'e' ∧ c ≠ 'E'

theorem EndsNumber.noDigit {rest : List Char} (h : EndsNumber rest) : Decimal.NoDigit rest :=
  fun c hc => (h c hc).1

theorem readFraction_of_ends {rest : List Char} (h : EndsNumber rest) :
    readFraction rest = some (none, rest) := by
  unfold readFraction
  split
  · exact absurd rfl (h _ rfl).2.1
  · rfl

theorem readExponent_of_ends {rest : List Char} (h : EndsNumber rest) :
    readExponent rest = some (none, rest) := by
  unfold readExponent
  split
  · exact absurd rfl (h _ rfl).2.2.1
  · exact absurd rfl (h _ rfl).2.2.2
  · rfl

theorem readWhole_digits (n : Nat) {rest : List Char} (h : EndsNumber rest) :
    readWhole (Decimal.digits n ++ rest) = some (Decimal.digits n, rest) := by
  have hdigits : readDigits (Decimal.digits n ++ rest) = some (Decimal.digits n, rest) := by
    have hall (c : Char) (hc : c ∈ Decimal.digits n) : Decimal.isDigit c = true :=
      Decimal.isDigit_of_mem_digits hc
    rw [readDigits, Decimal.takeWhile_digits hall h.noDigit,
      Decimal.dropWhile_digits hall h.noDigit]
    split
    · next hnil => exact absurd hnil (Decimal.digits_ne_nil n)
    · rfl
  rw [readWhole, hdigits]
  split
  · next hzero =>
    have htail := Decimal.tail_eq_nil_of_zero (Prod.mk.inj (Option.some.inj hzero)).1
    cases htail
  · rfl

theorem readNumber_text {i : Int} (hi : Number.InRange i) {rest : List Char} (h : EndsNumber rest) :
    readNumber ((Number.int i).text ++ rest) = some (.int i, rest) := by
  have hread (negative : Bool) (n : Nat) : readUnsigned negative (Decimal.digits n ++ rest) =
      some (.ofLiteral ⟨negative, Decimal.digits n, none, none⟩, rest) := by
    simp [readUnsigned, readWhole_digits n h, readFraction_of_ends h, readExponent_of_ends h]
  cases i with
  | ofNat n =>
      have hunsigned : readNumber (Decimal.digits n ++ rest) =
          readUnsigned false (Decimal.digits n ++ rest) := by
        unfold readNumber
        split
        · next hminus =>
          obtain ⟨d, ds, hdigits⟩ := List.exists_cons_of_ne_nil (Decimal.digits_ne_nil n)
          have hd : Decimal.isDigit d = true :=
            Decimal.isDigit_of_mem_digits (hdigits ▸ List.mem_cons_self)
          rw [hdigits, List.cons_append] at hminus
          rw [(List.cons.inj hminus).1] at hd
          cases hd
        · rfl
      rw [Number.text, hunsigned, hread, Number.ofLiteral_ofNat hi]
      rfl
  | negSucc n =>
      rw [Number.text, List.cons_append, readNumber, hread, Number.ofLiteral_negSucc hi]

end Curia.Json
