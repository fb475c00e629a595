import Curia.Json.Bytes

/-!
The bytes of a text. They tell it from other texts, and JSON is read from them as from the text.
-/

namespace Curia

/-- The bytes are taken from the front, each in front of those before it, and turned round. -/
theorem byteArray_toList_loop (b : ByteArray) {n i : Nat} (r : List UInt8) (h : n + i = b.size) :
    ByteArray.toList.loop b i r = r.reverse ++ b.data.toList.drop i := by
  have hlength : b.data.toList.length = b.size := rfl
  induction n generalizing i r with
  | zero =>
      rw [ByteArray.toList.loop, if_neg (by omega), List.drop_of_length_le (by omega),
        List.append_nil]
  | succ n ih =>
      have hi : i < b.data.toList.length := by omega
      have hget : b.get! i = b.data.toList[i] := by
        simp [ByteArray.get!, getElem!_pos b.data i hi]
      rw [ByteArray.toList.loop, if_pos (by omega), ih _ (by omega), hget, List.reverse_cons,
        List.append_assoc, List.singleton_append, List.getElem_cons_drop]

theorem byteArray_toList (b : ByteArray) : b.toList = b.data.toList :=
  byteArray_toList_loop b [] (Nat.add_zero b.size)

theorem toUTF8_toList (s : String) : s.toUTF8.toList = s.toList.flatMap String.utf8EncodeChar := by
  rw [byteArray_toList, String.toUTF8_eq_toByteArray, ← String.utf8Encode_toList, List.utf8Encode]
  simp

theorem eq_of_toUTF8_toList {s t : String} (h : s.toUTF8.toList = t.toUTF8.toList) : s = t := by
  rw [byteArray_toList, byteArray_toList] at h
  exact String.toByteArray_inj.1 (ByteArray.ext (Array.toList_inj.1 h))

namespace Json

theorem nextChar?_utf8EncodeChar (c : Char) (bytes : List UInt8) :
    nextChar? (String.utf8EncodeChar c ++ bytes) = some c := by
  have hsize : (String.utf8EncodeChar c).length ≤ 4 := by
    rw [String.length_utf8EncodeChar]
    exact c.utf8Size_le_four
  rw [nextChar?, List.take_append, List.take_of_length_le hsize, List.toByteArray_append,
    ByteArray.utf8DecodeChar?_utf8EncodeChar_append]

/-- Characters are found again in their bytes, wherever they stand. -/
theorem decodeChars_flatMap (cs : List Char) (n : Nat) (place : Place)
    (h : (cs.flatMap String.utf8EncodeChar).length ≤ n) :
    decodeChars n place (cs.flatMap String.utf8EncodeChar) = some cs := by
  induction cs generalizing n place with
  | nil => rw [List.flatMap_nil, decodeChars]
  | cons c cs ih =>
      rw [List.flatMap_cons, List.length_append, String.length_utf8EncodeChar] at h
      have hnext := nextChar?_utf8EncodeChar c (cs.flatMap String.utf8EncodeChar)
      have hpos : 0 < c.utf8Size := c.utf8Size_pos
      obtain ⟨b, bytes, hbytes⟩ :=
        List.exists_cons_of_ne_nil (String.utf8EncodeChar_ne_nil (c := c))
      cases n with
      | zero => omega
      | succ n =>
          have hdrop : (String.utf8EncodeChar c ++ cs.flatMap String.utf8EncodeChar).drop c.utf8Size
              = cs.flatMap String.utf8EncodeChar := by
            rw [← String.length_utf8EncodeChar, List.drop_left]
          rw [hbytes, List.cons_append] at hnext hdrop
          rw [List.flatMap_cons, hbytes, List.cons_append]
          simp only [decodeChars, hnext, hdrop, ih n _ (by omega), Option.map_some]

theorem parseBytes_toUTF8 (s : String) : parseBytes s.toUTF8.toList = parse s := by
  rw [parseBytes, toUTF8_toList, decodeChars_flatMap s.toList _ _ (Nat.le_refl _)]
  simp

/-- A quoted byte that is no character is skipped, but not read. -/
example : parseBytes [0x22, 0xff, 0x22] = some void := by decide +kernel

end Json

end Curia
