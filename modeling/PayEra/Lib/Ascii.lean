import Mathlib.Data.List.Basic

/-!
# The case of ASCII letters

Lowering the case of a character keeps its kind, and changes nothing else.
-/

namespace Ascii

variable {c d : Char}

lemma isUpper_iff : c.isUpper ↔ 65 ≤ c.toNat ∧ c.toNat ≤ 90 := decide_eq_true_iff

lemma isAlpha_iff : c.isAlpha ↔ c.isUpper ∨ c.isLower := Bool.or_eq_true_iff

lemma isLower_iff : c.isLower ↔ 97 ≤ c.toNat ∧ c.toNat ≤ 122 := by
  have h : c.isLower ↔ decide (c.val ≥ 'a'.val) = true ∧ decide (c.val ≤ 'z'.val) = true :=
    Bool.and_eq_true_iff
  rw [h, decide_eq_true_iff, decide_eq_true_iff]
  exact Iff.rfl

lemma toLower_of_not_isUpper (h : ¬c.isUpper) : c.toLower = c :=
  dif_neg fun hupper => h (decide_eq_true hupper)

/-- A capital letter is one of twenty-six. -/
lemma toLower_of_isUpper (h : c.isUpper) : c.toLower.isLower ∧ c.toLower.toLower = c.toLower := by
  have hall : ∀ k ∈ List.range 26, (Char.ofNat (65 + k)).toLower.isLower ∧
      (Char.ofNat (65 + k)).toLower.toLower = (Char.ofNat (65 + k)).toLower := by decide
  obtain ⟨hlow, hhigh⟩ := isUpper_iff.mp h
  have hc := hall (c.toNat - 65) (List.mem_range.mpr (by omega))
  rwa [Nat.add_sub_cancel' hlow, Char.ofNat_toNat] at hc

lemma toLower_toLower (c : Char) : c.toLower.toLower = c.toLower := by
  by_cases h : c.isUpper
  · exact (toLower_of_isUpper h).2
  · rw [toLower_of_not_isUpper h, toLower_of_not_isUpper h]

lemma isAlpha_of_toLower (h : c.toLower.isAlpha) : c.isAlpha := by
  by_cases hupper : c.isUpper
  · exact isAlpha_iff.mpr (.inl hupper)
  · rwa [toLower_of_not_isUpper hupper] at h

lemma isAlphanum_of_toLower (h : c.toLower.isAlphanum) : c.isAlphanum := by
  by_cases hupper : c.isUpper
  · exact Bool.or_eq_true_iff.mpr (.inl (isAlpha_iff.mpr (.inl hupper)))
  · rwa [toLower_of_not_isUpper hupper] at h

lemma toList_toLower (s : String) : s.toLower.toList = s.toList.map Char.toLower := String.toList_map

/-- Only letters change. -/
lemma eq_of_toLower (hd : d.isAlpha = false) (h : c.toLower = d) : c = d := by
  by_cases hupper : c.isUpper
  · have hlower := (toLower_of_isUpper hupper).1
    rw [h] at hlower
    rw [isAlpha_iff.mpr (.inr hlower)] at hd
    cases hd
  · rwa [toLower_of_not_isUpper hupper] at h

lemma eq_of_map_toLower {s t : List Char} (ht : ∀ d ∈ t, d.isAlpha = false)
    (h : s.map Char.toLower = t) : s = t := by
  induction s generalizing t with
  | nil => exact h
  | cons c s ih =>
    subst h
    rw [List.forall_mem_map] at ht
    have hc : c = c.toLower := eq_of_toLower (ht c (List.mem_cons_self ..)) rfl
    have hs := ih (t := s.map Char.toLower) (by
      rw [List.forall_mem_map]
      exact fun d hd => ht d (List.mem_cons_of_mem _ hd)) rfl
    rw [List.map_cons, ← hc, ← hs]

lemma isAlpha_of_map_toLower {s t : List Char} (ht : ∀ d ∈ t, d.isAlpha)
    (h : s.map Char.toLower = t) : ∀ c ∈ s, c.isAlpha := by
  intro c hc
  apply isAlpha_of_toLower
  apply ht
  rw [← h]
  exact List.mem_map_of_mem hc

end Ascii
