import Mathlib.Data.List.DropRight
import Curia.Text.Blank

/-!
What is left of a text when the white space at its ends is taken away: the piece of it that has none
there, between nothing but white space.
-/

namespace Curia

/-- There is no white space at the ends of the text. -/
structure Flush (text : List Char) : Prop where
  head : ∀ c ∈ text.head?, isSpace c = false
  last : ∀ c ∈ text.getLast?, isSpace c = false

/-- The text is the core with white space around it. -/
structure Trims (text core : List Char) : Prop where
  flush : Flush core
  exists_eq : ∃ before behind, text = before ++ core ++ behind ∧
    (∀ c ∈ before, isSpace c = true) ∧ ∀ c ∈ behind, isSpace c = true

variable {text core : List Char}

theorem head_trimLeft (text : List Char) : ∀ c ∈ (trimLeft text).head?, isSpace c = false := by
  intro c hc
  have hhead := List.head?_dropWhile_not isSpace text
  rw [← trimLeft, Option.mem_def.1 hc] at hhead
  exact hhead

theorem trimLeft_eq_self (h : ∀ c ∈ text.head?, isSpace c = false) : trimLeft text = text := by
  cases text with
  | nil => rfl
  | cons a rest => exact List.dropWhile_cons_of_neg (Bool.not_eq_true _ ▸ h a rfl)

theorem trimRight_eq_self (h : ∀ c ∈ text.getLast?, isSpace c = false) : trimRight text = text := by
  have hleft : trimLeft text.reverse = text.reverse :=
    trimLeft_eq_self (by rwa [List.head?_reverse])
  exact List.reverse_eq_iff.2 hleft

theorem trimRight_append {behind : List Char} (h : ∀ c ∈ behind, isSpace c = true) :
    trimRight (text ++ behind) = trimRight text := by
  have hrev : ∀ c ∈ behind.reverse, isSpace c = true := fun c hc => h c (List.mem_reverse.1 hc)
  rw [trimRight, trimRight, List.reverse_append, List.dropWhile_append_of_pos hrev]

theorem Flush.trim_eq (h : Flush text) : trim text = text := by
  rw [trim, trimLeft_eq_self h.head, trimRight_eq_self h.last]

/-- There is only one way to trim a text. -/
theorem Trims.trim_eq (h : Trims text core) : trim text = core := by
  obtain ⟨hflush, before, behind, rfl, hbefore, hbehind⟩ := h
  have hleft : trimLeft (before ++ core ++ behind) = trimLeft (core ++ behind) := by
    rw [trimLeft, List.append_assoc, List.dropWhile_append_of_pos hbefore, ← trimLeft]
  rw [trim, hleft]
  cases core with
  | nil =>
      have hnil : trimLeft behind = [] := List.dropWhile_eq_nil_iff.2 hbehind
      rw [List.nil_append, hnil]
      rfl
  | cons a core =>
      have hhead : ∀ c ∈ (a :: core ++ behind).head?, isSpace c = false := hflush.head
      rw [trimLeft_eq_self hhead, trimRight_append hbehind, trimRight_eq_self hflush.last]

/-- A text is what remains when it is trimmed, between white space. -/
theorem exists_eq_trim (text : List Char) : ∃ before behind, text = before ++ trim text ++ behind ∧
    (∀ c ∈ before, isSpace c = true) ∧ ∀ c ∈ behind, isSpace c = true := by
  have hleft : text.takeWhile isSpace ++ trimLeft text = text :=
    List.takeWhile_append_dropWhile
  have hright :
      trim text ++ ((trimLeft text).reverse.takeWhile isSpace).reverse = trimLeft text := by
    rw [trim, trimRight, ← List.reverse_append, List.takeWhile_append_dropWhile,
      List.reverse_reverse]
  refine ⟨text.takeWhile isSpace, ((trimLeft text).reverse.takeWhile isSpace).reverse, ?_,
    fun c hc => List.mem_takeWhile_imp hc,
    fun c hc => List.mem_takeWhile_imp (List.mem_reverse.1 hc)⟩
  rw [List.append_assoc, hright, hleft]

theorem trim_isInfix (text : List Char) : trim text <:+: text := by
  obtain ⟨before, behind, htext, -, -⟩ := exists_eq_trim text
  exact ⟨before, behind, htext.symm⟩

theorem flush_trim (text : List Char) : Flush (trim text) := by
  constructor
  · intro c hc
    obtain ⟨rest, hrest⟩ := List.head?_eq_some_iff.1 hc
    -- what is cut off at the end leaves the first character as it is
    obtain ⟨behind, hbehind⟩ : trim text <+: trimLeft text := List.rdropWhile_prefix isSpace _
    refine head_trimLeft text c ?_
    rw [← hbehind, hrest]
    rfl
  · intro c hc
    rw [trim, trimRight, List.getLast?_reverse] at hc
    exact head_trimLeft _ c hc

theorem trims_trim (text : List Char) : Trims text (trim text) :=
  ⟨flush_trim text, exists_eq_trim text⟩

theorem trim_trim (text : List Char) : trim (trim text) = trim text := (flush_trim text).trim_eq

end Curia
