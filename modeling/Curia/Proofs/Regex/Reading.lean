import Curia.Regex.Reader

/-!
Which properties are known matters to patterns that name them and to no others: what is read with a
table is read the same with every table that knows more.
-/

namespace Curia.Regex

/-- What the first comes to, the second comes to as well. -/
def Yields {α : Type} (x y : Parsed α) : Prop := ∀ a, x = .ok a → y = .ok a

namespace Yields

variable {α β : Type}

theorem refl (x : Parsed α) : Yields x x := fun _ h => h

theorem error (e : Fault) (y : Parsed α) : Yields (.error e) y := fun _ h => by cases h

theorem bind {x y : Parsed α} {f g : α → Parsed β} (h : Yields x y)
    (hfg : ∀ a, Yields (f a) (g a)) : Yields (x >>= f) (y >>= g) := by
  intro b hb
  cases hx : x with
  | error e =>
      rw [hx] at hb
      cases hb
  | ok a =>
      rw [hx] at hb
      rw [h a hx]
      exact hfg a b hb

end Yields

section

variable {fewer more : Properties} (hmore : more.Extends fewer)

include hmore

theorem yields_propertyClass (f : Flags) (negated : Bool) (name : String) :
    Yields (propertyClass fewer f negated name) (propertyClass more f negated name) := by
  rw [propertyClass, propertyClass]
  split
  · exact .refl _
  · cases hname : fewer name with
    | none => exact .error _ _
    | some s =>
        rw [hmore name s hname]
        exact .refl _

theorem yields_readEscape (f : Flags) (cs : List Char) :
    Yields (readEscape fewer f cs) (readEscape more f cs) := by
  cases cs with
  | nil => exact .refl _
  | cons c rest =>
      have hproperty (negated : Bool) : Yields
          (readProperty f.verbose rest >>= fun name =>
            propertyClass fewer f negated name.1 >>= fun s => pure (Item.set s, name.2))
          (readProperty f.verbose rest >>= fun name =>
            propertyClass more f negated name.1 >>= fun s => pure (Item.set s, name.2)) :=
        (Yields.refl _).bind fun name =>
          (yields_propertyClass hmore f negated name.1).bind fun _ => .refl _
      simp only [readEscape]
      split
      all_goals first | exact .refl _ | exact hproperty _

theorem yields_readClassItem (f : Flags) (cs : List Char) :
    Yields (readClassItem fewer f cs) (readClassItem more f cs) := by
  rw [readClassItem.eq_def, readClassItem.eq_def]
  split
  · exact .refl _
  · exact yields_readEscape hmore f _
  · exact .refl _

theorem yields_readRange (f : Flags) (cs : List Char) :
    Yields (readRange fewer f cs) (readRange more f cs) := by
  rw [readRange, readRange]
  refine (yields_readClassItem hmore f cs).bind fun (first, rest) => ?_
  simp only
  split
  · exact .refl _
  · split
    · exact .refl _
    · exact (yields_readClassItem hmore f _).bind fun _ => .refl _
  · exact .refl _

/-- The rest of a class, and a class from its first bracket on. -/
theorem yields_readItems (f : Flags) (n : Nat) :
    (∀ so cs, Yields (readItems fewer f so n cs) (readItems more f so n cs)) ∧
      ∀ cs, Yields (readClass fewer f n cs) (readClass more f n cs) := by
  induction n with
  | zero => exact ⟨fun _ _ => .error _ _, fun _ => .error _ _⟩
  | succ n ih =>
      obtain ⟨hitems, hclass⟩ := ih
      constructor
      · intro so cs
        rw [readItems, readItems]
        generalize skip f.verbose cs = cs
        split
        · exact .refl _
        · exact .refl _
        · exact hitems _ _
        · exact hitems _ _
        · exact hitems _ _
        · split
          · exact (Yields.refl _).bind fun _ => hitems _ _
          · exact (hclass _).bind fun _ => hitems _ _
        · exact (yields_readRange hmore f _).bind fun _ => hitems _ _
      · intro cs
        rw [readClass, readClass]
        exact (hitems _ _).bind fun _ => .refl _

theorem yields_readParts (n : Nat) (branches : List (Nested Pattern)) (parts : List Part)
    (cur : Cursor) :
    Yields (readParts fewer branches parts n cur) (readParts more branches parts n cur) := by
  induction n generalizing branches parts cur with
  | zero => exact .error _ _
  | succ n ih =>
      rw [readParts, readParts]
      simp only
      generalize skip cur.flags.verbose cur.rest = cs
      split
      · exact .refl _
      · exact .refl _
      · exact ih _ _ _
      · refine (Yields.refl _).bind fun (opening, rest) => ?_
        cases opening with
        | flags f' => exact ih _ _ _
        | plain f' =>
            refine (ih _ _ _).bind fun (p, inner) => ?_
            simp only
            split
            · exact ih _ _ _
            · exact .refl _
        | counted name =>
            simp only
            split
            · exact .refl _
            · refine (ih _ _ _).bind fun (p, inner) => ?_
              simp only
              split
              · exact ih _ _ _
              · exact .refl _
      · exact ((yields_readItems hmore _ _).2 _).bind fun _ => ih _ _ _
      · exact (Yields.refl _).bind fun _ => ih _ _ _
      · exact (Yields.refl _).bind fun _ => ih _ _ _
      · exact (Yields.refl _).bind fun _ => ih _ _ _
      · split
        · exact .refl _
        · exact (Yields.refl _).bind fun _ => (Yields.refl _).bind fun _ => ih _ _ _
      · exact (Yields.refl _).bind fun _ => ih _ _ _
      · exact ih _ _ _
      · exact ih _ _ _
      · exact (yields_readEscape hmore _ _).bind fun _ =>
          (Yields.refl _).bind fun _ => ih _ _ _
      · exact ih _ _ _

theorem yields_patternOfText (caseless : Bool) (text : String) :
    Yields (Pattern.ofText fewer caseless text) (Pattern.ofText more caseless text) := by
  rw [Pattern.ofText, Pattern.ofText]
  exact (yields_readParts hmore _ _ _ _).bind fun _ => .refl _

/-- A text that is a pattern by one table is the same pattern by all that know more. -/
theorem ofText_of_extends {caseless : Bool} {text : String} {r : Regex}
    (h : ofText fewer caseless text = .ok r) : ofText more caseless text = .ok r := by
  rw [ofText] at h ⊢
  cases hread : Pattern.ofText fewer caseless text with
  | error e =>
      rw [hread] at h
      cases h
  | ok p =>
      rw [yields_patternOfText hmore caseless text p hread, ← hread]
      exact h

end

/-- What can be read where no property is known can be read anywhere. -/
theorem ofText_of_none {props : Properties} {caseless : Bool} {text : String} {r : Regex}
    (h : ofText .none caseless text = .ok r) : ofText props caseless text = .ok r :=
  ofText_of_extends props.extends_none h

end Curia.Regex
