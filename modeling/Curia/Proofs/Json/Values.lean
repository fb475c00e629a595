import Curia.Proofs.Json.Tokens

/-!
A value without fractions is read back from its text, with the members of its objects in the order
in which they were written.
-/

namespace Curia.Json

/-! ### Values without fractions -/

mutual

/-- Whether all numbers in the value are integers, with a sign of 64 bits or without one. -/
def isIntegral : Json → Bool
  | .number (.int i) => decide (Number.InRange i)
  | .number (.float _) => false
  | .array items => itemsIntegral items
  | .object members => membersIntegral members
  | _ => true

def itemsIntegral : List Json → Bool
  | [] => true
  | v :: vs => isIntegral v && itemsIntegral vs

def membersIntegral : List (String × Json) → Bool
  | [] => true
  | (_, v) :: ms => isIntegral v && membersIntegral ms

end

/-! ### What a text begins with -/

/-- A text begins with a character that is no blank and that closes nothing. -/
def Opens (cs : List Char) : Prop :=
  ∃ c rest, cs = c :: rest ∧ isBlank c = false ∧ c ≠ ']' ∧ c ≠ '\x7d'

theorem skipBlanks_of_not_blank {c : Char} (h : isBlank c = false) (cs : List Char) :
    skipBlanks (c :: cs) = c :: cs := by
  rw [skipBlanks, List.dropWhile_cons, h]
  rfl

theorem Opens.skipBlanks {cs : List Char} (h : Opens cs) : skipBlanks cs = cs := by
  obtain ⟨c, rest, rfl, hc, -, -⟩ := h
  exact skipBlanks_of_not_blank hc rest

/-- Integers begin with such a character. -/
def StartsNumber (c : Char) : Prop := Decimal.isDigit c = true ∨ c = '-'

theorem StartsNumber.ne {c d : Char} (h : StartsNumber c) (hdigit : Decimal.isDigit d = false)
    (hminus : d ≠ '-') : c ≠ d := by
  rintro rfl
  rcases h with h | h
  · rw [hdigit] at h
    cases h
  · exact hminus h

theorem StartsNumber.not_blank {c : Char} (h : StartsNumber c) : isBlank c = false := by
  have hspace : c ≠ ' ' := h.ne (by decide) (by decide)
  have htab : c ≠ '\t' := h.ne (by decide) (by decide)
  have hnewline : c ≠ '\n' := h.ne (by decide) (by decide)
  have hreturn : c ≠ '\r' := h.ne (by decide) (by decide)
  simp [isBlank, hspace, htab, hnewline, hreturn]

theorem exists_text_eq (i : Int) : ∃ c cs, (Number.int i).text = c :: cs ∧ StartsNumber c := by
  cases i with
  | ofNat n =>
      obtain ⟨d, ds, hdigits⟩ := List.exists_cons_of_ne_nil (Decimal.digits_ne_nil n)
      exact ⟨d, ds, hdigits, .inl (Decimal.isDigit_of_mem_digits (hdigits ▸ List.mem_cons_self))⟩
  | negSucc n => exact ⟨'-', _, rfl, .inr rfl⟩

theorem opens_write {v : Json} (h : v.isIntegral = true) (rest : List Char) :
    Opens (write v rest) := by
  cases v with
  | null => exact ⟨_, _, rfl, by decide, by decide, by decide⟩
  | bool b => cases b <;> exact ⟨_, _, rfl, by decide, by decide, by decide⟩
  | number n =>
      cases n with
      | int i =>
          obtain ⟨c, cs, htext, hc⟩ := exists_text_eq i
          refine ⟨c, cs ++ rest, ?_, hc.not_blank, hc.ne (by decide) (by decide),
            hc.ne (by decide) (by decide)⟩
          rw [write, htext, List.cons_append]
      | float bits => cases h
  | string s => exact ⟨_, _, rfl, by decide, by decide, by decide⟩
  | array items => cases items <;> exact ⟨_, _, rfl, by decide, by decide, by decide⟩
  | object members =>
      rcases members with - | ⟨⟨name, v⟩, ms⟩ <;> exact ⟨_, _, rfl, by decide, by decide, by decide⟩

/-! ### How long texts are -/

mutual

theorem le_length_write : ∀ (v : Json) (rest : List Char), rest.length ≤ (write v rest).length
  | .null, _ | .bool true, _ | .bool false, _ | .array [], _ | .object [], _ => by
    simp only [write, List.length_cons]
    omega
  | .number n, rest => by
    rw [write, List.length_append]
    omega
  | .string s, rest => by
    have hs := length_writeChars s.toList ('"' :: rest)
    simp only [write, writeString, List.length_cons] at hs ⊢
    omega
  | .array (v :: vs), rest => by
    have hv := le_length_write v (writeItems vs (']' :: rest))
    have hvs := le_length_writeItems vs (']' :: rest)
    simp only [write, List.length_cons] at hv hvs ⊢
    omega
  | .object ((name, v) :: ms), rest => by
    have hname := length_writeChars name.toList
      ('"' :: ':' :: write v (writeMembers ms ('\x7d' :: rest)))
    have hv := le_length_write v (writeMembers ms ('\x7d' :: rest))
    have hms := le_length_writeMembers ms ('\x7d' :: rest)
    simp only [write, writeString, List.length_cons] at hname hv hms ⊢
    omega

theorem le_length_writeItems :
    ∀ (vs : List Json) (rest : List Char), rest.length ≤ (writeItems vs rest).length
  | [], _ => Nat.le_refl _
  | v :: vs, rest => by
    have hv := le_length_write v (writeItems vs rest)
    have hvs := le_length_writeItems vs rest
    simp only [writeItems, List.length_cons]
    omega

theorem le_length_writeMembers :
    ∀ (ms : List (String × Json)) (rest : List Char), rest.length ≤ (writeMembers ms rest).length
  | [], _ => Nat.le_refl _
  | (name, v) :: ms, rest => by
    have hname := length_writeChars name.toList ('"' :: ':' :: write v (writeMembers ms rest))
    have hv := le_length_write v (writeMembers ms rest)
    have hms := le_length_writeMembers ms rest
    simp only [writeMembers, writeString, List.length_cons] at hname ⊢
    omega

end

/-! ### What ends a value -/

/-- What may follow a value: nothing, or what stands behind it in an array or an object. -/
def EndsValue (rest : List Char) : Prop :=
  ∀ c ∈ rest.head?, c = ',' ∨ c = ']' ∨ c = '\x7d'

theorem EndsValue.endsNumber {rest : List Char} (h : EndsValue rest) : EndsNumber rest := by
  intro c hc
  rcases h c hc with rfl | rfl | rfl <;> decide

theorem endsValue_nil : EndsValue [] := fun c h => by cases h

theorem endsValue_writeItems (vs : List Json) (rest : List Char) :
    EndsValue (writeItems vs (']' :: rest)) := by
  intro c hc
  cases vs with
  | nil => exact .inr (.inl (Option.some.inj hc).symm)
  | cons v vs => exact .inl (Option.some.inj hc).symm

theorem endsValue_writeMembers (ms : List (String × Json)) (rest : List Char) :
    EndsValue (writeMembers ms ('\x7d' :: rest)) := by
  intro c hc
  cases ms with
  | nil => exact .inr (.inr (Option.some.inj hc).symm)
  | cons m ms => exact .inl (Option.some.inj hc).symm

/-! ### Reading values -/

theorem readValue_of_startsNumber {c : Char} (h : StartsNumber c) (cs : List Char) (n : Nat) :
    readValue (n + 1) (c :: cs) =
      (readNumber (c :: cs)).map fun (x, rest) => (.number x, rest) := by
  have hne (d : Char) (hdigit : Decimal.isDigit d = false) (hminus : d ≠ '-') (rest : List Char) :
      c :: cs ≠ d :: rest := fun heq => h.ne hdigit hminus (List.cons.inj heq).1
  rw [readValue, skipBlanks_of_not_blank h.not_blank]
  split
  · next heq => exact absurd heq (hne 'n' (by decide) (by decide) _)
  · next heq => exact absurd heq (hne 't' (by decide) (by decide) _)
  · next heq => exact absurd heq (hne 'f' (by decide) (by decide) _)
  · next heq => exact absurd heq (hne '"' (by decide) (by decide) _)
  · next heq => exact absurd heq (hne '[' (by decide) (by decide) _)
  · next heq => exact absurd heq (hne '\x7b' (by decide) (by decide) _)
  · rfl

theorem readValue_string (s : String) (rest : List Char) {n : Nat}
    (hn : (writeString s rest).length ≤ n + 1) :
    readValue (n + 1) (writeString s rest) = some (.string s, rest) := by
  have hlength := length_writeChars s.toList ('"' :: rest)
  simp only [writeString, List.length_cons] at hn hlength
  have hchars := readChars_writeChars s.toList rest (n := n) (by omega)
  rw [writeString, readValue, skipBlanks_of_not_blank (by decide)]
  simp only [hchars, Option.map_some, ofChars, String.ofList_toList]

/-- A name and the value after the colon. -/
theorem readMember_of_readValue (name : String) {text : List Char} {v : Json} {rest : List Char}
    {n : Nat} (hn : (writeString name (':' :: text)).length ≤ n + 1)
    (hv : readValue n text = some (v, rest)) :
    readMember (n + 1) (writeString name (':' :: text)) =
      some ((some name.toList, v), rest) := by
  have hlength := length_writeChars name.toList ('"' :: ':' :: text)
  simp only [writeString, List.length_cons] at hn hlength
  have hchars := readChars_writeChars name.toList (':' :: text) (n := n) (by omega)
  rw [writeString, readMember, skipBlanks_of_not_blank (by decide)]
  simp only [hchars, skipBlanks_of_not_blank (show isBlank ':' = false by decide), hv,
    Option.map_some]

/-- The members as they are read, with the characters of their names. -/
def named (ms : List (String × Json)) : List (Option (List Char) × Json) :=
  ms.map fun m => (some m.1.toList, m.2)

theorem ofMembers_named (ms : List (String × Json)) : ofMembers (named ms) = .object ms := by
  have hnames : (named ms).mapM (fun m => m.1.map fun name => (String.ofList name, m.2)) =
      some ms := by
    induction ms with
    | nil => rfl
    | cons m ms ih =>
        rw [named, List.map_cons, List.mapM_cons, ← named, ih]
        simp
  rw [ofMembers, hnames]

mutual

/-- Twice the length of the text is as much as the steps that it takes to read it. -/
theorem readValue_write : ∀ (v : Json), v.isIntegral = true → ∀ (rest : List Char),
    EndsValue rest → ∀ (n : Nat), 2 * (write v rest).length + 1 ≤ n →
      readValue n (write v rest) = some (v, rest)
  | v, _, _, _, 0, hn => by omega
  | .null, _, _, _, n + 1, _ => rfl
  | .bool true, _, _, _, n + 1, _ => rfl
  | .bool false, _, _, _, n + 1, _ => rfl
  | .number (.int i), hv, rest, hrest, n + 1, _ => by
    obtain ⟨c, cs, htext, hc⟩ := exists_text_eq i
    have hread := readNumber_text (of_decide_eq_true hv) hrest.endsNumber
    rw [htext, List.cons_append] at hread
    rw [write, htext, List.cons_append, readValue_of_startsNumber hc, hread]
    rfl
  | .number (.float _), hv, _, _, _, _ => by cases hv
  | .string s, _, rest, _, n + 1, hn => by
    rw [write] at hn ⊢
    exact readValue_string s rest (by omega)
  | .array [], _, _, _, n + 1, _ => rfl
  | .array (v :: vs), hv, rest, _, n + 1, hn => by
    obtain ⟨hhead, htail⟩ := Bool.and_eq_true_iff.1 hv
    simp only [write, List.length_cons] at hn
    have hitems := readItems_write v vs hhead htail rest n (by omega)
    have hopens := opens_write hhead (writeItems vs (']' :: rest))
    rw [write, readValue, skipBlanks_of_not_blank (by decide)]
    simp only [hopens.skipBlanks]
    split
    · next heq =>
      obtain ⟨c, cs, hcs, -, hne, -⟩ := hopens
      rw [hcs] at heq
      exact absurd (List.cons.inj heq).1 hne
    · rw [hitems]
      rfl
  | .object [], _, _, _, n + 1, _ => rfl
  | .object ((name, v) :: ms), hv, rest, _, n + 1, hn => by
    obtain ⟨hhead, htail⟩ := Bool.and_eq_true_iff.1 hv
    simp only [write, List.length_cons] at hn
    have hmembers := readMembers_write name v ms hhead htail rest n (by omega)
    rw [write, readValue, skipBlanks_of_not_blank (by decide)]
    simp only [writeString] at hmembers ⊢
    rw [skipBlanks_of_not_blank (by decide)]
    show (readMembers n _).map (fun (ms, rest) => (ofMembers ms, rest)) = _
    simp only [hmembers, Option.map_some, ofMembers_named]

theorem readItems_write : ∀ (v : Json) (vs : List Json), v.isIntegral = true →
    itemsIntegral vs = true → ∀ (rest : List Char) (n : Nat),
      2 * (write v (writeItems vs (']' :: rest))).length + 2 ≤ n →
        readItems n (write v (writeItems vs (']' :: rest))) = some (v :: vs, rest)
  | _, _, _, _, _, 0, hn => by omega
  | v, [], hv, _, rest, n + 1, hn => by
    have hvalue := readValue_write v hv _ (endsValue_writeItems [] rest) n (by omega)
    rw [readItems, hvalue]
    simp only [writeItems, skipBlanks_of_not_blank (show isBlank ']' = false by decide)]
  | v, w :: ws, hv, hws, rest, n + 1, hn => by
    obtain ⟨hhead, htail⟩ := Bool.and_eq_true_iff.1 hws
    have hvalue := readValue_write v hv _ (endsValue_writeItems (w :: ws) rest) n (by omega)
    have hlength := le_length_write v (writeItems (w :: ws) (']' :: rest))
    simp only [writeItems, List.length_cons] at hlength hn
    have hitems := readItems_write w ws hhead htail rest n (by omega)
    rw [readItems, hvalue]
    simp only [writeItems, skipBlanks_of_not_blank (show isBlank ',' = false by decide), hitems,
      Option.map_some]

theorem readMembers_write : ∀ (name : String) (v : Json) (ms : List (String × Json)),
    v.isIntegral = true → membersIntegral ms = true → ∀ (rest : List Char) (n : Nat),
      2 * (writeString name (':' :: write v (writeMembers ms ('\x7d' :: rest)))).length + 2 ≤ n →
        readMembers n (writeString name (':' :: write v (writeMembers ms ('\x7d' :: rest)))) =
          some (named ((name, v) :: ms), rest)
  | _, _, _, _, _, _, 0, hn => by omega
  | _, _, _, _, _, _, 1, hn => by simp only [writeString, List.length_cons] at hn; omega
  | name, v, [], hv, _, rest, n + 2, hn => by
    have hname := length_writeChars name.toList
      ('"' :: ':' :: write v (writeMembers [] ('\x7d' :: rest)))
    simp only [writeString, List.length_cons] at hname hn
    have hvalue := readValue_write v hv _ (endsValue_writeMembers [] rest) n (by omega)
    have hmember := readMember_of_readValue name (n := n)
      (by simp only [writeString, List.length_cons]; omega) hvalue
    rw [readMembers, hmember]
    simp only [writeMembers, skipBlanks_of_not_blank (show isBlank '\x7d' = false by decide)]
    rfl
  | name, v, (name', v') :: ms, hv, hms, rest, n + 2, hn => by
    obtain ⟨hhead, htail⟩ := Bool.and_eq_true_iff.1 hms
    have hname := length_writeChars name.toList
      ('"' :: ':' :: write v (writeMembers ((name', v') :: ms) ('\x7d' :: rest)))
    have hlength := le_length_write v (writeMembers ((name', v') :: ms) ('\x7d' :: rest))
    simp only [writeString, List.length_cons] at hname hn
    have hvalue :=
      readValue_write v hv _ (endsValue_writeMembers ((name', v') :: ms) rest) n (by omega)
    have hmember := readMember_of_readValue name (n := n)
      (by simp only [writeString, List.length_cons]; omega) hvalue
    have hmore : (writeMembers ((name', v') :: ms) ('\x7d' :: rest)).length =
        (writeString name' (':' :: write v' (writeMembers ms ('\x7d' :: rest)))).length + 1 := rfl
    have hmembers := readMembers_write name' v' ms hhead htail rest (n + 1) (by omega)
    rw [readMembers, hmember]
    simp only [writeMembers, skipBlanks_of_not_blank (show isBlank ',' = false by decide), hmembers,
      Option.map_some]
    rfl

end

/-- A value without fractions is what its text is read as. -/
theorem parse_render {v : Json} (h : v.isIntegral = true) : parse v.render = some v := by
  have hread := readValue_write v h [] endsValue_nil (2 * (write v []).length + 2) (by omega)
  simp only [parse, render, String.toList_ofList, hread]
  rfl

end Curia.Json
