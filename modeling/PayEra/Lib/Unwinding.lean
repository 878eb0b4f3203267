import Mathlib.Data.List.Basic

/-!
# Two histories of one system

A deterministic system takes one step for each entry of a history. Two histories agree on what is
`seen` if they are the same once all other entries are left out. What is observed along a history,
and what is looked at, are two lists that only grow.

The unwinding theorem compares the observations of two histories that agree. As long as the two states
are alike, an entry that is not seen may be taken on either side alone, and an entry that is seen on
both. Once the lists have parted they do not come together again, so the observations are the same if
and only if what was looked at is.
-/

namespace Unwinding

/-! ### Lists that have parted -/

section Parted

variable {α : Type} {l l' k k' : List α} {a b : α}

/-- Neither list can grow to the other. -/
def Parted (l l' : List α) : Prop := ¬l <+: l' ∧ ¬l' <+: l

lemma Parted.symm (h : Parted l l') : Parted l' l := ⟨h.2, h.1⟩

lemma Parted.ne (h : Parted l l') : l ≠ l' := by
  rintro rfl
  exact h.1 List.prefix_rfl

/-- Lists that have parted stay so when they grow. -/
lemma Parted.mono (h : Parted l l') (hk : l <+: k) (hk' : l' <+: k') : Parted k k' := by
  constructor
  · intro hkk'
    exact (List.prefix_or_prefix_of_prefix (hk.trans hkk') hk').elim h.1 h.2
  · intro hkk'
    exact (List.prefix_or_prefix_of_prefix hk (hk'.trans hkk')).elim h.1 h.2

lemma parted_of_ne (h : a ≠ b) : Parted (l ++ [a]) (l ++ [b]) := by
  constructor
  · intro hpre
    exact h (List.cons.inj (List.append_cancel_left (hpre.eq_of_length (by simp)))).1
  · intro hpre
    exact h (List.cons.inj (List.append_cancel_left (hpre.eq_of_length (by simp)))).1.symm

end Parted

/-! ### Histories -/

section Histories

variable {σ τ : Type} (step : σ → τ → σ)

/-- Every entry is taken in a state in which it is possible. -/
def Possible (ok : σ → τ → Prop) : σ → List τ → Prop
  | _, [] => True
  | s, t :: l => ok s t ∧ Possible ok (step s t) l

instance decidablePossible (ok : σ → τ → Prop) [∀ s t, Decidable (ok s t)] :
    ∀ s l, Decidable (Possible step ok s l)
  | _, [] => .isTrue trivial
  | s, t :: l =>
    have := decidablePossible ok (step s t) l
    inferInstanceAs (Decidable (ok s t ∧ Possible step ok (step s t) l))

variable {step} {ok : σ → τ → Prop} {s s' : σ} {t : τ} {l l' : List τ}

/-- What every possible entry keeps holds at the end. -/
lemma Possible.invariant {P : σ → Prop} (h : Possible step ok s l) (hs : P s)
    (hstep : ∀ s t, P s → ok s t → P (step s t)) : P (l.foldl step s) := by
  induction l generalizing s with
  | nil => exact hs
  | cons t l ih => exact ih h.2 (hstep s t hs h.1)

/-- A relation that entries which are not seen keep on either side, and entries which are seen keep
on both, holds between the ends of two histories that agree. -/
theorem unwinding {R : σ → σ → Prop} {seen : τ → Bool}
    (hleft : ∀ s s' t, R s s' → ok s t → ¬seen t → R (step s t) s')
    (hright : ∀ s s' t, R s s' → ok s' t → ¬seen t → R s (step s' t))
    (hboth : ∀ s s' t, R s s' → ok s t → ok s' t → seen t → R (step s t) (step s' t))
    (h : Possible step ok s l) (h' : Possible step ok s' l')
    (hagree : l.filter seen = l'.filter seen) (hR : R s s') :
    R (l.foldl step s) (l'.foldl step s') := by
  induction l generalizing s s' l' with
  | nil =>
    induction l' generalizing s' with
    | nil => exact hR
    | cons t' l' ih' =>
      have hunseen : ¬seen t' := fun hseen => by simp [hseen] at hagree
      rw [List.filter_cons_of_neg hunseen] at hagree
      exact ih' h'.2 hagree (hright s s' t' hR h'.1 hunseen)
  | cons t l ih =>
    by_cases hseen : seen t
    · rw [List.filter_cons_of_pos hseen] at hagree
      induction l' generalizing s' with
      | nil => cases hagree
      | cons t' l' ih' =>
        by_cases hseen' : seen t'
        · rw [List.filter_cons_of_pos hseen'] at hagree
          obtain ⟨rfl, htail⟩ := List.cons.inj hagree
          show R (l.foldl step (step s t)) (l'.foldl step (step s' t))
          exact ih h.2 h'.2 htail (hboth s s' t hR h.1 h'.1 hseen)
        · rw [List.filter_cons_of_neg hseen'] at hagree
          exact ih' h'.2 hagree (hright s s' t' hR h'.1 hseen')
    · rw [List.filter_cons_of_neg hseen] at hagree
      exact ih h.2 h' hagree (hleft s s' t hR h.1 hseen)

end Histories

/-! ### The same observations -/

section Exact

variable {σ τ α β : Type}

/-- Being alike is kept by what is not seen, on one side. An entry that is seen keeps it, or parts both
the observations and what is looked at. -/
structure Exact (step : σ → τ → σ) (ok : σ → τ → Prop) (seen : τ → Bool) (observed : σ → List α)
    (looked : σ → List β) (Alike : σ → σ → Prop) : Prop where
  observed_grows : ∀ s t, observed s <+: observed (step s t)
  looked_grows : ∀ s t, looked s <+: looked (step s t)
  same_observed : ∀ s s', Alike s s' → observed s = observed s'
  same_looked : ∀ s s', Alike s s' → looked s = looked s'
  symm : ∀ s s', Alike s s' → Alike s' s
  unseen : ∀ s s' t, Alike s s' → ok s t → ¬seen t → Alike (step s t) s'
  both : ∀ s s' t, Alike s s' → ok s t → ok s' t → seen t → Alike (step s t) (step s' t) ∨
    Parted (observed (step s t)) (observed (step s' t)) ∧
      Parted (looked (step s t)) (looked (step s' t))

variable {step : σ → τ → σ} {ok : σ → τ → Prop} {seen : τ → Bool} {observed : σ → List α}
  {looked : σ → List β} {Alike : σ → σ → Prop} {s s' : σ} {l l' : List τ}

/-- **Unwinding.** Two histories that agree on what is seen are observed the same if and only if the
same was looked at. -/
theorem Exact.observed_iff (h : Exact step ok seen observed looked Alike)
    (hl : Possible step ok s l) (hl' : Possible step ok s' l')
    (hagree : l.filter seen = l'.filter seen) (hs : Alike s s') :
    observed (l.foldl step s) = observed (l'.foldl step s') ↔
      looked (l.foldl step s) = looked (l'.foldl step s') := by
  have hend := unwinding (R := fun s s' => Alike s s' ∨
      Parted (observed s) (observed s') ∧ Parted (looked s) (looked s'))
    ?_ ?_ ?_ hl hl' hagree (.inl hs)
  · rcases hend with halike | ⟨hobserved, hlooked⟩
    · exact iff_of_true (h.same_observed _ _ halike) (h.same_looked _ _ halike)
    · exact iff_of_false hobserved.ne hlooked.ne
  · rintro s s' t (halike | ⟨hobserved, hlooked⟩) hok hunseen
    · exact .inl (h.unseen s s' t halike hok hunseen)
    · exact .inr ⟨hobserved.mono (h.observed_grows s t) List.prefix_rfl,
        hlooked.mono (h.looked_grows s t) List.prefix_rfl⟩
  · rintro s s' t (halike | ⟨hobserved, hlooked⟩) hok hunseen
    · exact .inl (h.symm _ _ (h.unseen s' s t (h.symm _ _ halike) hok hunseen))
    · exact .inr ⟨hobserved.mono List.prefix_rfl (h.observed_grows s' t),
        hlooked.mono List.prefix_rfl (h.looked_grows s' t)⟩
  · rintro s s' t (halike | ⟨hobserved, hlooked⟩) hok hok' hseen
    · exact h.both s s' t halike hok hok' hseen
    · exact .inr ⟨hobserved.mono (h.observed_grows s t) (h.observed_grows s' t),
        hlooked.mono (h.looked_grows s t) (h.looked_grows s' t)⟩

end Exact

end Unwinding
