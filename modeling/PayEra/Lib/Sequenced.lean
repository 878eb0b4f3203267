import Mathlib.Data.List.Count
import Mathlib.Logic.Function.Basic
import Mathlib.Order.Lattice
import Mathlib.Order.Nat

/-!
# Ledgers with sequence numbers

Transactions are submitted to a ledger, which may apply them later. Every account has a sequence
number, a transaction is applied only with the next number of its source account, and the account
then has that number. Hence of transactions that were all built on numbers read while none of them
was applied, the ledger applies at most one, however they are delayed.
-/

namespace Sequenced

variable {Account Tx : Type}

/-- The sequence numbers, what was submitted, and which of it was applied, by position. -/
structure Ledger (Account Tx : Type) where
  sequence : Account → ℕ
  submitted : List Tx := []
  applied : List ℕ := []

namespace Ledger

def submit (l : Ledger Account Tx) (tx : Tx) : Ledger Account Tx :=
  { l with submitted := l.submitted ++ [tx] }

variable {source : Tx → Account} {number : Tx → ℕ} {admissible : Tx → Prop} {a : Account}
  {l l' : Ledger Account Tx} {own : List ℕ} {n : ℕ} {tx : Tx}

/-- Some of the positions `own` was applied. -/
def Spent (l : Ledger Account Tx) (own : List ℕ) : Prop := ∃ i ∈ own, i ∈ l.applied

/-- At most one of the positions `own` is applied, now and later. -/
structure Single (source : Tx → Account) (number : Tx → ℕ) (a : Account) (l : Ledger Account Tx)
    (own : List ℕ) : Prop where
  single : l.applied.countP (· ∈ own) ≤ 1
  submitted : ∀ i ∈ own, ∃ tx, l.submitted[i]? = some tx ∧ source tx = a ∧
    number tx ≤ l.sequence a + 1
  /-- Once one is applied, the numbers of all of them are used up. -/
  spent : l.Spent own → ∀ i ∈ own, ∀ tx, l.submitted[i]? = some tx → number tx ≤ l.sequence a

/-- A number on which one more transaction may be built. -/
structure Usable (l : Ledger Account Tx) (a : Account) (own : List ℕ) (n : ℕ) : Prop where
  le : n ≤ l.sequence a
  spent : l.Spent own → n < l.sequence a

lemma single_nil : l.Single source number a [] where
  single := by simp
  submitted i hi := by cases hi
  spent _ i hi := by cases hi

/-- A number that is read while nothing is applied. -/
lemma usable_sequence (h : ¬l.Spent own) : l.Usable a own (l.sequence a) where
  le := Nat.le_refl _
  spent hspent := absurd hspent h

lemma countP_eq_zero (h : ¬l.Spent own) : l.applied.countP (· ∈ own) = 0 := by
  rw [List.countP_eq_zero]
  intro i hi
  simpa using fun hown => h ⟨i, hown, hi⟩

/-- The first of the positions to be applied. -/
lemma Single.unspent (h : l.Single source number a own) {i : ℕ} (hi : i ∈ own)
    (htx : l.submitted[i]? = some tx) (hnumber : number tx = l.sequence (source tx) + 1) :
    source tx = a ∧ ¬l.Spent own := by
  obtain ⟨tx', htx', hsource, -⟩ := h.submitted i hi
  obtain rfl : tx = tx' := Option.some.inj (htx.symm.trans htx')
  refine ⟨hsource, fun hspent => ?_⟩
  have hle := h.spent hspent i hi tx htx
  rw [hsource] at hnumber
  omega

/-! ### Submitting -/

lemma getElem?_submit {i : ℕ} {tx' : Tx} (h : l.submitted[i]? = some tx') :
    (l.submit tx).submitted[i]? = some tx' := by
  show (l.submitted ++ [tx])[i]? = some tx'
  rw [List.getElem?_append_left (List.getElem?_eq_some_iff.mp h).1]
  exact h

/-- Somebody else submits a transaction. -/
lemma Single.submit (h : l.Single source number a own) :
    (l.submit tx).Single source number a own := by
  refine ⟨h.single, fun i hi => ?_, fun hspent i hi tx' htx' => ?_⟩
  · obtain ⟨tx', htx', hrest⟩ := h.submitted i hi
    exact ⟨tx', getElem?_submit htx', hrest⟩
  · obtain ⟨tx₁, htx₁, -⟩ := h.submitted i hi
    rw [getElem?_submit htx₁] at htx'
    obtain rfl := Option.some.inj htx'
    exact h.spent hspent i hi _ htx₁

/-- Nothing is applied before it is submitted. -/
def Past (l : Ledger Account Tx) : Prop := ∀ i ∈ l.applied, i < l.submitted.length

lemma Past.submit (h : l.Past) : (l.submit tx).Past := by
  intro i hi
  have hlt := h i hi
  show i < (l.submitted ++ [tx]).length
  rw [List.length_append]
  omega

lemma spent_snoc (hpast : l.Past)
    (h : (l.submit tx).Spent (own ++ [l.submitted.length])) : l.Spent own := by
  obtain ⟨i, hi, happlied⟩ := h
  rcases List.mem_append.mp hi with hold | hnew
  · exact ⟨i, hold, happlied⟩
  · have hlt := hpast i happlied
    rw [List.mem_singleton.mp hnew] at hlt
    exact absurd hlt (lt_irrefl _)

/-- One more of them is built on a usable number. -/
lemma Single.submit_own (h : l.Single source number a own) (hpast : l.Past)
    (hn : l.Usable a own n) (hsource : source tx = a) (hnumber : number tx = n + 1) :
    (l.submit tx).Single source number a (own ++ [l.submitted.length]) := by
  have hlast : (l.submit tx).submitted[l.submitted.length]? = some tx := by
    simp [Ledger.submit]
  refine ⟨?_, fun i hi => ?_, fun hspent i hi tx' htx' => ?_⟩
  · have hcount : l.applied.countP (· ∈ own ++ [l.submitted.length]) =
        l.applied.countP (· ∈ own) := by
      apply List.countP_congr
      intro i hi
      have hne : i ≠ l.submitted.length := (hpast i hi).ne
      simp [hne]
    exact hcount ▸ h.single
  · rcases List.mem_append.mp hi with hold | hnew
    · exact h.submit.submitted i hold
    · obtain rfl := List.mem_singleton.mp hnew
      exact ⟨tx, hlast, hsource, by rw [hnumber]; exact Nat.succ_le_succ hn.le⟩
  · have hold := spent_snoc hpast hspent
    rcases List.mem_append.mp hi with hi | hnew
    · exact h.submit.spent hold i hi tx' htx'
    · obtain rfl := List.mem_singleton.mp hnew
      rw [hlast] at htx'
      obtain rfl := Option.some.inj htx'
      rw [hnumber]
      exact hn.spent hold

/-- A number that is usable stays so when a transaction is submitted. -/
lemma Usable.submit (h : l.Usable a own n) : (l.submit tx).Usable a own n := ⟨h.le, h.spent⟩

lemma Usable.submit_own (h : l.Usable a own n) (hpast : l.Past) :
    (l.submit tx).Usable a (own ++ [l.submitted.length]) n where
  le := h.le
  spent hspent := h.spent (spent_snoc hpast hspent)

/-! ### What happens on the ledger by itself -/

section Moves

variable [DecidableEq Account]

/-- The transaction at the position `i` is applied, with the number `n` of its source `a`. -/
def apply (l : Ledger Account Tx) (a : Account) (n i : ℕ) : Ledger Account Tx :=
  { l with sequence := Function.update l.sequence a n, applied := l.applied ++ [i] }

/-- Something else takes the account to the number `n`. -/
def advance (l : Ledger Account Tx) (a : Account) (n : ℕ) : Ledger Account Tx :=
  { l with sequence := Function.update l.sequence a n }

/-- Of the submitted transactions only those that are `admissible` are applied. -/
inductive Moves (source : Tx → Account) (number : Tx → ℕ) (admissible : Tx → Prop) :
    Ledger Account Tx → Ledger Account Tx → Prop
  | apply (l : Ledger Account Tx) (i : ℕ) (tx : Tx) (hi : l.submitted[i]? = some tx)
      (hnumber : number tx = l.sequence (source tx) + 1) (hadmissible : admissible tx) :
      Moves source number admissible l (l.apply (source tx) (number tx) i)
  | advance (l : Ledger Account Tx) (a : Account) (n : ℕ) (hn : l.sequence a ≤ n) :
      Moves source number admissible l (l.advance a n)

lemma sequence_le_update (l : Ledger Account Tx) {b : Account} (h : l.sequence b ≤ n) :
    l.sequence a ≤ Function.update l.sequence b n a := by
  by_cases hab : a = b
  · subst hab
    rw [Function.update_self]
    exact h
  · rw [Function.update_of_ne hab]

/-- Sequence numbers never go down, and what is submitted stays. -/
lemma Moves.sequence_le (h : Moves source number admissible l l') :
    l.sequence a ≤ l'.sequence a := by
  cases h with
  | apply i tx hi hnumber hadmissible => exact l.sequence_le_update (by omega)
  | advance b n hn => exact l.sequence_le_update hn

lemma Moves.submitted_eq (h : Moves source number admissible l l') :
    l'.submitted = l.submitted := by
  cases h with
  | apply i tx hi hnumber hadmissible => rfl
  | advance b n hn => rfl

lemma spent_apply {i : ℕ} (h : (l.apply a n i).Spent own) : l.Spent own ∨ i ∈ own := by
  obtain ⟨j, hj, hmem⟩ := h
  rcases List.mem_append.mp hmem with hold | hnew
  · exact .inl ⟨j, hj, hold⟩
  · obtain rfl := List.mem_singleton.mp hnew
    exact .inr hj

lemma Single.moves (h : l.Single source number a own) (hmove : Moves source number admissible l l') :
    l'.Single source number a own := by
  have hle : l.sequence a ≤ l'.sequence a := hmove.sequence_le
  have hsubmitted := hmove.submitted_eq
  refine ⟨?_, fun i hi => ?_, fun hspent i hi tx htx => ?_⟩
  · cases hmove with
    | advance b n hn => exact h.single
    | apply i tx htx hnumber hadmissible =>
      show (l.applied ++ [i]).countP (· ∈ own) ≤ 1
      rw [List.countP_append]
      by_cases hi : i ∈ own
      · obtain ⟨-, hunspent⟩ := h.unspent hi htx hnumber
        rw [countP_eq_zero hunspent]
        simp [hi]
      · simpa [hi] using h.single
  · obtain ⟨tx, htx, hsource, hnumber⟩ := h.submitted i hi
    exact ⟨tx, by rw [hsubmitted]; exact htx, hsource, by omega⟩
  · rw [hsubmitted] at htx
    obtain ⟨tx', htx', hsource, hnear⟩ := h.submitted i hi
    obtain rfl : tx = tx' := Option.some.inj (htx.symm.trans htx')
    cases hmove with
    | advance b n hn => exact (h.spent hspent i hi tx htx).trans hle
    | apply j tx₁ htx₁ hnumber hadmissible =>
      rcases spent_apply hspent with hold | hj
      · exact (h.spent hold i hi tx htx).trans hle
      · -- the one that is applied uses up the number that the others may still have
        obtain ⟨hsource₁, -⟩ := h.unspent hj htx₁ hnumber
        show number tx ≤ Function.update l.sequence (source tx₁) (number tx₁) a
        rw [← hsource₁, Function.update_self, hnumber, hsource₁]
        exact hnear

lemma Usable.moves (h : l.Usable a own n) (hsingle : l.Single source number a own)
    (hmove : Moves source number admissible l l') : l'.Usable a own n := by
  have hle : l.sequence a ≤ l'.sequence a := hmove.sequence_le
  refine ⟨h.le.trans hle, fun hspent => ?_⟩
  cases hmove with
  | advance b m hm => exact (h.spent hspent).trans_le hle
  | apply i tx htx hnumber hadmissible =>
    rcases spent_apply hspent with hold | hi
    · exact (h.spent hold).trans_le hle
    · obtain ⟨hsource, -⟩ := hsingle.unspent hi htx hnumber
      show n < Function.update l.sequence (source tx) (number tx) a
      rw [← hsource, Function.update_self, hnumber, hsource]
      exact Nat.lt_succ_of_le h.le

lemma Past.moves (h : l.Past) (hmove : Moves source number admissible l l') : l'.Past := by
  cases hmove with
  | advance b n hn => exact h
  | apply i tx hi hnumber hadmissible =>
    intro j hj
    rcases List.mem_append.mp hj with hold | hnew
    · exact h j hold
    · obtain rfl := List.mem_singleton.mp hnew
      exact (List.getElem?_eq_some_iff.mp hi).1

end Moves

end Ledger

end Sequenced
