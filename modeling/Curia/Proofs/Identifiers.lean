import Curia.Ids

/-!
Identifiers are read back from what is written of them, so two identifiers with the same text are
the same.
-/

namespace Curia

namespace Uuid

/-- The bytes of a number, most significant first, make up the number again. -/
theorem foldl_bytes (x : Nat) (n : Nat) :
    ((List.range n).map fun i => (x >>> (8 * (n - 1 - i))) % 256).foldl
      (fun m b => 256 * m + b) 0 = x % 1 <<< (8 * n) := by
  induction n generalizing x with
  | zero => simp [Nat.mod_one]
  | succ n ih =>
      have hinit : ((List.range n).map fun i => (x >>> (8 * (n + 1 - 1 - i))) % 256) =
          (List.range n).map fun i => ((x >>> 8) >>> (8 * (n - 1 - i))) % 256 := by
        refine List.map_congr_left fun i hi => ?_
        have hi : i < n := List.mem_range.1 hi
        rw [← Nat.shiftRight_add, show 8 * (n + 1 - 1 - i) = 8 + 8 * (n - 1 - i) by omega]
      have hlast : x >>> (8 * (n + 1 - 1 - n)) = x := by
        rw [show 8 * (n + 1 - 1 - n) = 0 by omega, Nat.shiftRight_zero]
      have hshift : 1 <<< (8 * (n + 1)) = 256 * 1 <<< (8 * n) := by
        rw [Nat.one_shiftLeft, Nat.one_shiftLeft, Nat.mul_succ, Nat.pow_add, Nat.mul_comm]
      rw [List.range_succ, List.map_append, List.foldl_append, hinit, ih]
      simp only [List.map_cons, List.map_nil, List.foldl_cons, List.foldl_nil]
      rw [hlast, hshift, Nat.mod_mul, Nat.shiftRight_eq_div_pow, Nat.add_comm]

theorem ofBytes_bytes (u : Uuid) : ofBytes u.bytes = u := by
  have hlt : u.bits.toNat < 1 <<< (8 * 16) := u.bits.isLt
  have hfold : u.bytes.foldl (fun n b => 256 * n + b.toNat) 0 = u.bits.toNat := by
    have h := foldl_bytes u.bits.toNat 16
    rw [Nat.mod_eq_of_lt hlt] at h
    rw [bytes, List.foldl_map]
    simpa only [List.foldl_map, UInt8.toNat_ofNat', Nat.reducePow] using h
  rw [ofBytes, hfold, ofNat, BitVec.ofNat_toNat, BitVec.setWidth_eq]

theorem bytes_length (u : Uuid) : u.bytes.length = 16 := by simp [bytes]

/-- No digit is mistaken for the mark with which another form begins. -/
theorem digit_toLower_ne {n : Nat} (h : n < 16) :
    (Hex.digit n).toLower ≠ 'u' ∧ Hex.digit n ≠ '\x7b' := by
  have hall : ∀ m : Fin 16, (Hex.digit m).toLower ≠ 'u' ∧ Hex.digit m ≠ '\x7b' := by decide
  exact hall ⟨n, h⟩

theorem unhyphenate_intercalate {a b c d e : List Char} (ha : a.length = 8) (hb : b.length = 4)
    (hc : c.length = 4) (hd : d.length = 4) (he : e.length = 12) :
    unhyphenate (List.intercalate ['-'] [a, b, c, d, e]) = some [a, b, c, d, e].flatten := by
  have hjoin : List.intercalate ['-'] [a, b, c, d, e] =
      a ++ '-' :: (b ++ '-' :: (c ++ '-' :: (d ++ '-' :: e))) := by
    simp [List.intercalate]
  have hparts : [(List.intercalate ['-'] [a, b, c, d, e]).take 8,
      ((List.intercalate ['-'] [a, b, c, d, e]).drop 9).take 4,
      ((List.intercalate ['-'] [a, b, c, d, e]).drop 14).take 4,
      ((List.intercalate ['-'] [a, b, c, d, e]).drop 19).take 4,
      (List.intercalate ['-'] [a, b, c, d, e]).drop 24] = [a, b, c, d, e] := by
    rw [hjoin]
    simp [List.drop_append, ha, hb, hc, hd, List.drop_eq_nil_of_le]
  rw [unhyphenate, hparts, if_pos]
  refine ⟨rfl, ?_⟩
  rw [hjoin]
  simp [ha, hb, hc, hd, he]

theorem flatten_groups (cs : List Char) : (groups cs).flatten = cs := by
  have hsplit (n m : Nat) : (cs.drop n).take m ++ cs.drop (n + m) = cs.drop n := by
    rw [← List.drop_drop, List.take_append_drop]
  simp only [groups, List.flatten_cons, List.flatten_nil, List.append_nil]
  rw [hsplit 16 4, hsplit 12 4, hsplit 8 4, List.take_append_drop]

/-- A text of the length of the hyphenated form is read as that form, unless its first character
is the mark of another one. -/
theorem digits?_of_head {cs : List Char} {c : Char} (hlen : cs.length = 36)
    (hhead : cs.head? = some c) (hu : c.toLower ≠ 'u') (hb : c ≠ '\x7b') :
    digits? cs = unhyphenate cs := by
  obtain ⟨rest, rfl⟩ : ∃ rest, cs = c :: rest := by
    cases cs with
    | nil => simp at hhead
    | cons d rest => exact ⟨rest, by simpa using hhead⟩
  have hurn : urnMark = ['u', 'r', 'n', ':', 'u', 'u', 'i', 'd', ':'] := by decide
  have hmark : ((c :: rest).take 9).map Char.toLower ≠ urnMark := by
    rw [hurn, List.take_succ_cons, List.map_cons]
    exact fun h => hu (List.cons.inj h).1
  rw [digits?, if_neg (by omega), if_neg hmark]
  exact fun _ h => hb (List.cons.inj h).1

theorem ofString?_toString (u : Uuid) : ofString? u.toString = some u := by
  have hlen : (Hex.encode u.bytes).length = 32 := by simp [bytes_length]
  obtain ⟨b, bs, hbs⟩ : ∃ b bs, u.bytes = b :: bs :=
    List.exists_cons_of_length_eq_add_one u.bytes_length
  have hb : b.toNat < 256 := b.toNat_lt
  have hdigit := digit_toLower_ne (show b.toNat / 16 < 16 by omega)
  have hread : digits? (List.intercalate ['-'] (groups (Hex.encode u.bytes))) =
      some (Hex.encode u.bytes) := by
    rw [digits?_of_head (c := Hex.digit (b.toNat / 16)) _ _ hdigit.1 hdigit.2]
    · rw [groups, unhyphenate_intercalate, ← groups, flatten_groups]
      all_goals simp [bytes_length]
    · simp [groups, List.intercalate, bytes_length]
    · simp [groups, List.intercalate, hbs, Hex.encode]
  simp only [ofString?, toString, String.toList_ofList, hread, Option.bind_eq_bind,
    Option.bind_some, Hex.decode_encode, ofBytes_bytes]

theorem ofJson_toJson (u : Uuid) : ofJson u.toJson = .ok u := by
  simp [ofJson, toJson, Json.asString, ofString?_toString, bind, Except.bind]

end Uuid

theorem SessionId.ofJson_toJson (i : SessionId) : ofJson i.toJson = .ok i := by
  rw [ofJson, toJson, Uuid.ofJson_toJson]
  rfl

theorem PetitionId.ofJson_toJson (i : PetitionId) : ofJson i.toJson = .ok i := by
  rw [ofJson, toJson, Uuid.ofJson_toJson]
  rfl

theorem DecisionId.ofJson_toJson (i : DecisionId) : ofJson i.toJson = .ok i := by
  rw [ofJson, toJson, Uuid.ofJson_toJson]
  rfl

end Curia
