import Curia.Json.Decode

/-!
Bytes in hexadecimal text. A text is read just if it is a row of pairs of hexadecimal digits, and
what is read is written as the same text in lower case. So a digest is read from the texts of 64
digits and from no others.
-/

namespace Curia

namespace Hex

/-! ### Digits -/

/-- A hexadecimal digit, its letter in either case. -/
def IsDigit (c : Char) : Prop :=
  ('0' ≤ c ∧ c ≤ '9') ∨ ('a' ≤ c ∧ c ≤ 'f') ∨ ('A' ≤ c ∧ c ≤ 'F')

instance (c : Char) : Decidable (IsDigit c) := inferInstanceAs (Decidable (_ ∨ _))

theorem value?_eq_none_iff {c : Char} : value? c = none ↔ ¬IsDigit c := by
  unfold value? IsDigit
  split
  · simp_all
  · split
    · simp_all
    · split <;> simp_all

theorem exists_value?_of_isDigit {c : Char} (h : IsDigit c) : ∃ n, value? c = some n := by
  cases hvalue : value? c with
  | none => exact absurd h (value?_eq_none_iff.1 hvalue)
  | some n => exact ⟨n, rfl⟩

theorem isDigit_of_value? {c : Char} {n : Nat} (h : value? c = some n) : IsDigit c := by
  refine Decidable.byContradiction fun hnot => ?_
  rw [value?_eq_none_iff.2 hnot] at h
  cases h

theorem toNat_lt_of_isDigit {c : Char} (h : IsDigit c) : c.toNat < 103 := by
  have hle {d : Char} (hd : c ≤ d) : c.toNat ≤ d.toNat := UInt32.le_iff_toNat_le.1 hd
  rcases h with ⟨-, h⟩ | ⟨-, h⟩ | ⟨-, h⟩
  · exact Nat.lt_of_le_of_lt (hle h) (by decide)
  · exact Nat.lt_of_le_of_lt (hle h) (by decide)
  · exact Nat.lt_of_le_of_lt (hle h) (by decide)

/-- The value of a digit is below 16, and its digit is the given one in lower case. -/
theorem digit_of_value? {c : Char} {n : Nat} (h : value? c = some n) :
    n < 16 ∧ digit n = c.toLower := by
  have hall : ∀ m : Fin 103, ∀ k ∈ value? (Char.ofNat m), k < 16 ∧
      digit k = (Char.ofNat m).toLower := by decide
  have hc := hall ⟨c.toNat, toNat_lt_of_isDigit (isDigit_of_value? h)⟩ n
  simp only [Char.ofNat_toNat] at hc
  exact hc h

/-! ### Rows of digits -/

/-- What is read of a pair of digits and of those behind it. -/
theorem decode_pair {a b : Char} {x y : Nat} (ha : value? a = some x) (hb : value? b = some y)
    (rest : List Char) : decode (a :: b :: rest) =
      (decode rest).map fun bs => UInt8.ofNat (16 * x + y) :: bs := by
  rw [decode, ha, hb]
  cases decode rest <;> rfl

theorem exists_decode_of_digits : ∀ {cs : List Char}, cs.length % 2 = 0 →
    (∀ c ∈ cs, IsDigit c) → ∃ bs, decode cs = some bs
  | [], _, _ => ⟨[], rfl⟩
  | [_], h, _ => by cases h
  | a :: b :: rest, h, hdigits => by
    obtain ⟨x, hx⟩ := exists_value?_of_isDigit (hdigits a List.mem_cons_self)
    obtain ⟨y, hy⟩ := exists_value?_of_isDigit (hdigits b (by simp))
    have heven : rest.length % 2 = 0 := by
      simp only [List.length_cons] at h
      omega
    obtain ⟨bs, hbs⟩ := exists_decode_of_digits heven fun c hc => hdigits c (by simp [hc])
    exact ⟨_, by rw [decode_pair hx hy, hbs, Option.map_some]⟩

/-- Bytes come from a row of twice as many digits, and their digits are that row in lower case. -/
theorem eq_of_decode : ∀ {cs : List Char} {bs : List UInt8}, decode cs = some bs →
    (∀ c ∈ cs, IsDigit c) ∧ encode bs = cs.map Char.toLower
  | [], bs, h => by
    cases h
    exact ⟨nofun, rfl⟩
  | [_], _, h => by cases h
  | a :: b :: rest, bs, h => by
    cases hx : value? a with
    | none => simp [decode, hx] at h
    | some x =>
      cases hy : value? b with
      | none => simp [decode, hx, hy] at h
      | some y =>
        rw [decode_pair hx hy] at h
        obtain ⟨bs', hbs', rfl⟩ := Option.map_eq_some_iff.1 h
        obtain ⟨hdigits, hencode⟩ := eq_of_decode hbs'
        obtain ⟨hxlt, hxdigit⟩ := digit_of_value? hx
        obtain ⟨hylt, hydigit⟩ := digit_of_value? hy
        have hbyte : (UInt8.ofNat (16 * x + y)).toNat = 16 * x + y :=
          Nat.mod_eq_of_lt (by omega)
        refine ⟨List.forall_mem_cons.2 ⟨isDigit_of_value? hx,
          List.forall_mem_cons.2 ⟨isDigit_of_value? hy, hdigits⟩⟩, ?_⟩
        rw [encode, hbyte, show (16 * x + y) / 16 = x by omega,
          show (16 * x + y) % 16 = y by omega, hxdigit, hydigit, hencode, List.map_cons,
          List.map_cons]

theorem length_of_decode {cs : List Char} {bs : List UInt8} (h : decode cs = some bs) :
    cs.length = 2 * bs.length := by
  rw [← encode_length bs, (eq_of_decode h).2, List.length_map]

/-- Digits that cannot be paired and characters that are no digits are the causes of a refusal. -/
theorem decode_eq_none_iff {cs : List Char} :
    decode cs = none ↔ cs.length % 2 = 1 ∨ ∃ c ∈ cs, ¬IsDigit c := by
  constructor
  · intro h
    by_cases heven : cs.length % 2 = 0
    · refine .inr (Decidable.byContradiction fun hnone => ?_)
      obtain ⟨bs, hbs⟩ := exists_decode_of_digits heven fun c hc =>
        Decidable.byContradiction fun hdigit => hnone ⟨c, hc, hdigit⟩
      rw [h] at hbs
      cases hbs
    · exact .inl (by omega)
  · intro h
    cases hbs : decode cs with
    | none => rfl
    | some bs =>
      rcases h with hodd | ⟨c, hc, hdigit⟩
      · have hlength := length_of_decode hbs
        omega
      · exact absurd ((eq_of_decode hbs).1 c hc) hdigit

end Hex

/-! ### Digests -/

namespace Digest

variable {text : String}

theorem ofHex_of_not_hex (h : text.length % 2 = 1 ∨ ∃ c ∈ text.toList, ¬Hex.IsDigit c) :
    ofHex text = .error .notHex := by
  rw [← String.length_toList] at h
  rw [ofHex, Hex.decode_eq_none_iff.2 h]

/-- A row of pairs of digits is as many bytes, which have to be as many as in a digest. -/
theorem exists_ofHex_eq (heven : text.length % 2 = 0) (hdigits : ∀ c ∈ text.toList, Hex.IsDigit c) :
    ∃ bytes : List UInt8, 2 * bytes.length = text.length ∧
      Hex.encode bytes = text.toLower.toList ∧ ofHex text = ofBytes bytes := by
  rw [← String.length_toList] at heven ⊢
  obtain ⟨bytes, hbytes⟩ := Hex.exists_decode_of_digits heven hdigits
  refine ⟨bytes, (Hex.length_of_decode hbytes).symm, ?_, by rw [ofHex, hbytes]⟩
  have hlower : text.toLower = text.map Char.toLower := rfl
  rw [(Hex.eq_of_decode hbytes).2, hlower, String.toList_map]

theorem ofHex_of_length_ne (heven : text.length % 2 = 0)
    (hdigits : ∀ c ∈ text.toList, Hex.IsDigit c) (hlength : text.length ≠ 64) :
    ofHex text = .error (.wrongLength (text.length / 2)) := by
  obtain ⟨bytes, hbytes, -, hread⟩ := exists_ofHex_eq heven hdigits
  rw [hread, ofBytes, dif_neg (by omega), show text.length / 2 = bytes.length by omega]

theorem exists_ofHex_eq_ok (hlength : text.length = 64)
    (hdigits : ∀ c ∈ text.toList, Hex.IsDigit c) :
    ∃ d, ofHex text = .ok d ∧ d.toHex = text.toLower := by
  obtain ⟨bytes, hbytes, hencode, hread⟩ := exists_ofHex_eq (by omega) hdigits
  have hsize : bytes.length = 32 := by omega
  refine ⟨⟨bytes, hsize⟩, by rw [hread, ofBytes, dif_pos hsize], ?_⟩
  rw [toHex, hencode, String.ofList_toList]

theorem ofHex_toHex (d : Digest) : ofHex d.toHex = .ok d := by
  rw [ofHex, toHex, String.toList_ofList, Hex.decode_encode]
  exact ofBytes_bytes d

theorem asDigest_string (text : String) : Json.asDigest (.string text) =
    (ofHex text).mapError fun
      | .wrongLength n => DecodeError.digestLength n
      | .notHex => DecodeError.malformed := by
  simp only [Json.asDigest, Json.asString, bind, Except.bind]
  rcases ofHex text with (n | -) | d <;> rfl

theorem asDigest_of_wrongLength {n : Nat} (h : ofHex text = .error (.wrongLength n)) :
    Json.asDigest (.string text) = .error (.digestLength n) := by
  rw [asDigest_string, h]
  rfl

theorem asDigest_of_notHex (h : ofHex text = .error .notHex) :
    Json.asDigest (.string text) = .error .malformed := by
  rw [asDigest_string, h]
  rfl

theorem asDigest_of_ofHex {d : Digest} (h : ofHex text = .ok d) :
    Json.asDigest (.string text) = .ok d := by
  rw [asDigest_string, h]
  rfl

theorem asDigest_toHex (d : Digest) : Json.asDigest (.string d.toHex) = .ok d :=
  asDigest_of_ofHex (ofHex_toHex d)

theorem exists_asDigest_eq_ok (hlength : text.length = 64)
    (hdigits : ∀ c ∈ text.toList, Hex.IsDigit c) :
    ∃ d, Json.asDigest (.string text) = .ok d ∧ d.toHex = text.toLower := by
  obtain ⟨d, hd, hhex⟩ := exists_ofHex_eq_ok hlength hdigits
  exact ⟨d, asDigest_of_ofHex hd, hhex⟩

/-- Texts of any other kind are refused. -/
theorem hexadecimal_of_asDigest {d : Digest} (h : Json.asDigest (.string text) = .ok d) :
    text.length = 64 ∧ ∀ c ∈ text.toList, Hex.IsDigit c := by
  have hhex : ¬(text.length % 2 = 1 ∨ ∃ c ∈ text.toList, ¬Hex.IsDigit c) := fun hbad => by
    rw [asDigest_of_notHex (ofHex_of_not_hex hbad)] at h
    cases h
  have heven : text.length % 2 = 0 := by omega
  have hdigits : ∀ c ∈ text.toList, Hex.IsDigit c := fun c hc =>
    Decidable.byContradiction fun hdigit => hhex (.inr ⟨c, hc, hdigit⟩)
  refine ⟨Decidable.byContradiction fun hlength => ?_, hdigits⟩
  rw [asDigest_of_wrongLength (ofHex_of_length_ne heven hdigits hlength)] at h
  cases h

/-- A text is read as a digest just if it has 64 hexadecimal digits, in either case, and nothing
else; the digest is then written as the text in lower case, and what is written of any digest is
read as the digest. Digits that make up another number of bytes are refused for that number, which
is told; digits that cannot be paired and other characters are refused as not hexadecimal. -/
theorem read_iff_hexadecimal :
    (∀ text : String, (∃ d, Json.asDigest (.string text) = .ok d) ↔
      text.length = 64 ∧ ∀ c ∈ text.toList, Hex.IsDigit c) ∧
    (∀ (text : String) (d : Digest), Json.asDigest (.string text) = .ok d →
      d.toHex = text.toLower) ∧
    (∀ d : Digest, Json.asDigest (.string d.toHex) = .ok d) ∧
    (∀ text : String, (∀ c ∈ text.toList, Hex.IsDigit c) → text.length % 2 = 0 →
      text.length ≠ 64 →
        ofHex text = .error (.wrongLength (text.length / 2)) ∧
        Json.asDigest (.string text) = .error (.digestLength (text.length / 2))) ∧
    (∀ text : String, text.length % 2 = 1 ∨ (∃ c ∈ text.toList, ¬Hex.IsDigit c) →
      ofHex text = .error .notHex ∧ Json.asDigest (.string text) = .error .malformed) := by
  refine ⟨fun text => ⟨fun h => ?_, fun h => ?_⟩, fun text d hd => ?_, asDigest_toHex,
    fun text hdigits heven hlength => ?_, fun text h => ?_⟩
  · obtain ⟨d, hd⟩ := h
    exact hexadecimal_of_asDigest hd
  · obtain ⟨d, hd, -⟩ := exists_asDigest_eq_ok h.1 h.2
    exact ⟨d, hd⟩
  · obtain ⟨hlength, hdigits⟩ := hexadecimal_of_asDigest hd
    obtain ⟨e, he, hhex⟩ := exists_asDigest_eq_ok hlength hdigits
    rw [hd] at he
    cases he
    exact hhex
  · have hread := ofHex_of_length_ne heven hdigits hlength
    exact ⟨hread, asDigest_of_wrongLength hread⟩
  · have hread := ofHex_of_not_hex h
    exact ⟨hread, asDigest_of_notHex hread⟩

/-- Letters in both cases are read and written in lower case; two bytes, half a byte and a letter
that is no digit are refused. -/
theorem read_iff_hexadecimal_of_mixed_case :
    let text := "00112233445566778899AABBCCDDEEFF00112233445566778899aAbBcCdDeEfF"
    (text.length = 64 ∧ ∀ c ∈ text.toList, Hex.IsDigit c) ∧
      (∃ d, Json.asDigest (.string text) = .ok d ∧ d.toHex =
        "00112233445566778899aabbccddeeff00112233445566778899aabbccddeeff") ∧
      Json.asDigest (.string "abCD") = .error (.digestLength 2) ∧
      Json.asDigest (.string "abc") = .error .malformed ∧
      Json.asDigest (.string "abcg") = .error .malformed := by
  intro text
  obtain ⟨haccepted, hlower, -, hwrong, hnot⟩ := read_iff_hexadecimal
  have hdigits {t : String} (h : (t.toList.all fun c => decide (Hex.IsDigit c)) = true) :
      ∀ c ∈ t.toList, Hex.IsDigit c :=
    fun c hc => of_decide_eq_true (List.all_eq_true.1 h c hc)
  have htext : text.length = 64 ∧ ∀ c ∈ text.toList, Hex.IsDigit c :=
    ⟨by decide, hdigits (by decide)⟩
  obtain ⟨d, hd⟩ := (haccepted text).2 htext
  have hcase : text.toLower =
    "00112233445566778899aabbccddeeff00112233445566778899aabbccddeeff" := by
    have hlower : text.toLower = text.map Char.toLower := rfl
    rw [hlower, String.map_eq_internal]
    decide
  exact ⟨htext, ⟨d, hd, (hlower text d hd).trans hcase⟩,
    (hwrong "abCD" (hdigits (by decide)) (by decide) (by decide)).2, (hnot "abc" (.inl (by decide))).2,
    (hnot "abcg" (.inr ⟨'g', by decide, by decide⟩)).2⟩

end Digest

end Curia
