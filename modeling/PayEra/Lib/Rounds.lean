import Mathlib.Data.Finset.Card
import Mathlib.Data.Finset.Lattice.Basic

/-!
# Serving in rounds

Clients are served in rounds, and a round has a limited number of places. A client that cannot be
served properly may come back and take a place again. As long as somebody is left out who has not
been served, no place is wasted on anybody else. So if there are few such clients, nobody is left out
for long.
-/

namespace Rounds

variable {α : Type*} [DecidableEq α] {b : ℕ} {E K B : Finset α} {rounds : List (Finset α)} {x : α}

/-- Whom the rounds have served. -/
def served (rounds : List (Finset α)) : Finset α := rounds.foldr (· ∪ ·) ∅

@[simp] lemma mem_served : x ∈ served rounds ↔ ∃ B ∈ rounds, x ∈ B := by
  induction rounds with
  | nil => simp [served]
  | cons B rounds ih =>
    change x ∈ B ∪ served rounds ↔ _
    simp [ih]

lemma served_snoc : served (rounds ++ [B]) = served rounds ∪ B := by
  ext x
  simp [or_and_right, exists_or]

/-- A round that leaves out a client who has not been served so far has no place left, and has given
none to a client that was served before, unless it is one of `K`. -/
def Greedy (b : ℕ) (E K : Finset α) (rounds : List (Finset α)) : Prop :=
  ∀ before B after, rounds = before ++ B :: after →
    ∀ x ∈ E, x ∉ served (before ++ [B]) → b ≤ B.card ∧ B ∩ served before ⊆ K

lemma Greedy.init (h : Greedy b E K (rounds ++ [B])) : Greedy b E K rounds := by
  rintro before B' after rfl
  exact h before B' (after ++ [B]) (by simp)

/-- While somebody is left out, only the clients of `K` take places again, and not in the first
round. -/
lemma Greedy.le_card_served (h : Greedy b E K rounds) (hx : x ∈ E) (hleft : x ∉ served rounds) :
    b * rounds.length ≤ (served rounds).card + (rounds.length - 1) * K.card := by
  induction rounds using List.reverseRecOn with
  | nil => simp
  | append_singleton rounds B ih =>
    obtain ⟨hfull, hagain⟩ := h rounds B [] rfl x hx hleft
    rw [served_snoc, Finset.mem_union, not_or] at hleft
    have hprevious := ih h.init hleft.1
    have hcard : (served rounds ∪ B).card = (served rounds).card + (B \ served rounds).card := by
      rw [Finset.union_comm, ← Finset.sdiff_union_self_eq_union, Finset.card_union_of_disjoint
        Finset.sdiff_disjoint, Nat.add_comm]
    have hsplit : (B \ served rounds).card + (B ∩ served rounds).card = B.card :=
      Finset.card_sdiff_add_card_inter B (served rounds)
    rw [served_snoc, hcard, List.length_append, List.length_singleton, Nat.add_sub_cancel]
    cases rounds with
    | nil =>
      have hnone : (B ∩ served []).card = 0 := by simp [served]
      rw [List.length_nil] at *
      omega
    | cons B' rounds =>
      have hfew : (B ∩ served (B' :: rounds)).card ≤ K.card := Finset.card_le_card hagain
      rw [List.length_cons, Nat.add_sub_cancel] at hprevious
      rw [List.length_cons, Nat.mul_succ, Nat.succ_mul]
      omega

/-- If there are places for all, and for those that come back in every round but the first, then all
are served. -/
theorem Greedy.all_served (h : Greedy b E K rounds) (hsub : served rounds ⊆ E)
    (hplaces : (rounds.length - 1) * K.card + E.card ≤ b * rounds.length) : E ⊆ served rounds := by
  intro x hx
  by_contra hleft
  have hle := h.le_card_served hx hleft
  have hlt : (served rounds).card < E.card :=
    Finset.card_lt_card (Finset.ssubset_iff_subset_ne.mpr ⟨hsub, fun heq => hleft (heq ▸ hx)⟩)
  omega

end Rounds
