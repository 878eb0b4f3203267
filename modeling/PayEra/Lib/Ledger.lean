import Mathlib.Algebra.BigOperators.Finprod
import Mathlib.Data.Finsupp.Order
import Mathlib.Data.Finsupp.Weight

/-!
# Token ledgers

A ledger says how many indivisible units each account holds; only finitely many accounts hold
any. Holdings are natural numbers, so a ledger cannot be overdrawn, and the supply is by
definition the sum of all holdings.

Everything a fungible token does to its accounts is a `Step`: issue units, destroy units, or
move them between accounts.
-/

namespace Ledger

variable {A : Type*}

/-- The supply of a ledger. -/
noncomputable abbrev supply (b : A →₀ ℕ) : ℕ := b.degree

/-- One movement of a ledger. Removal is stated backwards: what was there before is what is
left plus what was taken, so there is no side condition to forget. -/
inductive Step : (A →₀ ℕ) → (A →₀ ℕ) → Prop where
  | none (b : A →₀ ℕ) : Step b b
  | issue (b : A →₀ ℕ) (a : A) (n : ℕ) : Step b (b + Finsupp.single a n)
  | destroy (b : A →₀ ℕ) (a : A) (n : ℕ) : Step (b + Finsupp.single a n) b
  | move (b : A →₀ ℕ) (a c : A) (n : ℕ) :
      Step (b + Finsupp.single a n) (b + Finsupp.single c n)

lemma supply_add_single (b : A →₀ ℕ) (a : A) (n : ℕ) :
    supply (b + Finsupp.single a n) = supply b + n := by
  rw [supply, map_add, Finsupp.degree_single]

lemma le_supply (b : A →₀ ℕ) (a : A) : b a ≤ supply b := Finsupp.le_degree a b

/-- Taking `n` units from an account that holds them leaves a ledger. -/
lemma exists_take (b : A →₀ ℕ) (a : A) {n : ℕ} (h : n ≤ b a) :
    ∃ b', b = b' + Finsupp.single a n :=
  ⟨b - Finsupp.single a n, (tsub_add_cancel_of_le (Finsupp.single_le_iff.mpr h)).symm⟩

/-- A function that agrees with a ledger sums to its supply. -/
lemma finsum_eq_supply {f : A → ℤ} {b : A →₀ ℕ} (h : ∀ a, f a = b a) :
    ∑ᶠ a, f a = supply b := by
  have hf : f = fun a => ((b a : ℕ) : ℤ) := funext h
  rw [hf, finsum_eq_sum_of_support_subset (s := b.support)]
  · rw [supply, Finsupp.degree_apply]
    push_cast
    rfl
  · intro a ha
    simpa using ha

lemma finite_support {f : A → ℤ} {b : A →₀ ℕ} (h : ∀ a, f a = b a) :
    (Function.support f).Finite := by
  refine b.support.finite_toSet.subset fun a ha => ?_
  simpa [h a] using ha

end Ledger
