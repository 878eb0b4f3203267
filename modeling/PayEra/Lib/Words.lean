import Mathlib.Data.List.Basic

/-!
# Words around a separator

The regular expressions of two words with a separator between them.
-/

namespace Words

/-- `[allows]{least,most}`. -/
structure Word where
  allows : Char → Bool
  least : ℕ
  most : Option ℕ := none

def Word.test (w : Word) (s : List Char) : Bool :=
  s.all w.allows && w.least ≤ s.length && w.most.all fun n => s.length ≤ n

/-- Two words with the separator between them, split where it stands first. -/
def test (separator : Char) (first second : Word) (s : List Char) : Bool :=
  s.contains separator && first.test (s.takeWhile (· ≠ separator)) &&
    second.test ((s.dropWhile (· ≠ separator)).drop 1)

variable {separator : Char} {first second : Word} {s x y : List Char}

lemma split_append (h : separator ∉ x) :
    (x ++ separator :: y).takeWhile (· ≠ separator) = x ∧
      ((x ++ separator :: y).dropWhile (· ≠ separator)).drop 1 = y := by
  have hx : ∀ c ∈ x, decide (c ≠ separator) = true := by
    intro c hc
    rw [decide_eq_true_eq]
    rintro rfl
    exact h hc
  rw [List.takeWhile_append_of_pos hx, List.dropWhile_append_of_pos hx]
  simp

lemma exists_split (h : separator ∈ s) :
    s = s.takeWhile (· ≠ separator) ++ separator :: (s.dropWhile (· ≠ separator)).drop 1 := by
  induction s with
  | nil => cases h
  | cons c s ih =>
    by_cases hc : c = separator
    · subst hc
      simp
    · have hmem : separator ∈ s := (List.mem_cons.mp h).resolve_left fun heq => hc heq.symm
      simpa [hc] using ih hmem

/-- The expression takes what splits into two such words. -/
lemma test_iff (h : first.allows separator = false) :
    test separator first second s = true ↔
      ∃ x y, s = x ++ separator :: y ∧ first.test x = true ∧ second.test y = true := by
  simp only [test, Bool.and_eq_true, List.contains_iff_mem]
  constructor
  · rintro ⟨⟨hmem, hfirst⟩, hsecond⟩
    exact ⟨_, _, exists_split hmem, hfirst, hsecond⟩
  · rintro ⟨x, y, rfl, hx, hy⟩
    have hno : separator ∉ x := by
      intro hmem
      simp only [Word.test, Bool.and_eq_true, List.all_eq_true] at hx
      rw [hx.1.1 _ hmem] at h
      cases h
    obtain ⟨htake, hdrop⟩ := split_append (y := y) hno
    rw [htake, hdrop]
    exact ⟨⟨by simp, hx⟩, hy⟩

end Words
