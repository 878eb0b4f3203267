import Mathlib.Algebra.BigOperators.Group.List.Basic
import Mathlib.Data.List.Induction

/-!
# Groups

Values gathered under keys: every element of a list goes to the value under its key, which is made where
there is none. What is added up over the groups is what is added up over the list.
-/

namespace Grouping

variable {α β κ M : Type*} [DecidableEq κ]

/-- The value under the key is replaced; where there is none, it is made from the initial one. -/
def upsert (initial : β) (f : β → β) (key : κ) : List (κ × β) → List (κ × β)
  | [] => [(key, f initial)]
  | p :: groups =>
    if p.1 = key then (key, f p.2) :: groups else p :: upsert initial f key groups

def group (key : α → κ) (initial : β) (add : β → α → β) (l : List α) : List (κ × β) :=
  l.foldl (fun groups a => upsert initial (fun b => add b a) (key a) groups) []

/-- The value under a key. -/
def get (groups : List (κ × β)) (key : κ) : Option β := (groups.find? (·.1 = key)).map Prod.snd

section

variable {key : α → κ} {initial : β} {add : β → α → β} {f : β → β} {k : κ} {groups : List (κ × β)}

@[simp] lemma group_nil : group key initial add [] = [] := rfl

lemma group_concat (l : List α) (a : α) :
    group key initial add (l ++ [a]) =
      upsert initial (fun b => add b a) (key a) (group key initial add l) := by
  simp [group]

/-! ### Keys -/

lemma mem_keys_upsert {k' : κ} :
    k' ∈ (upsert initial f k groups).map Prod.fst ↔ k' = k ∨ k' ∈ groups.map Prod.fst := by
  induction groups with
  | nil => simp [upsert]
  | cons p groups ih =>
    rw [upsert]
    split_ifs with h
    · subst h
      simp
    · simp only [List.map_cons, List.mem_cons, ih]
      tauto

lemma mem_keys_group {l : List α} : k ∈ (group key initial add l).map Prod.fst ↔ ∃ a ∈ l, key a = k := by
  induction l using List.reverseRecOn with
  | nil => simp
  | append_singleton l a ih =>
    rw [group_concat, mem_keys_upsert, ih]
    simp only [List.mem_append, List.mem_singleton]
    constructor
    · rintro (rfl | ⟨a', ha', rfl⟩)
      · exact ⟨a, .inr rfl, rfl⟩
      · exact ⟨a', .inl ha', rfl⟩
    · rintro ⟨a', ha' | rfl, rfl⟩
      · exact .inr ⟨a', ha', rfl⟩
      · exact .inl rfl

/-! ### Values -/

@[simp] lemma get_nil : get ([] : List (κ × β)) k = none := rfl

lemma get_cons (p : κ × β) (groups : List (κ × β)) (k : κ) :
    get (p :: groups) k = if p.1 = k then some p.2 else get groups k := by
  rw [get, List.find?_cons]
  split_ifs with h <;> simp [h, get]

lemma get_append (groups groups' : List (κ × β)) (k : κ) :
    get (groups ++ groups') k = (get groups k).or (get groups' k) := by
  induction groups with
  | nil => rfl
  | cons p groups ih =>
    rw [List.cons_append, get_cons, get_cons, ih]
    split_ifs <;> rfl

lemma get_upsert (k' : κ) : get (upsert initial f k groups) k' =
    if k = k' then some (f ((get groups k).getD initial)) else get groups k' := by
  induction groups with
  | nil => simp [upsert, get_cons]
  | cons p groups ih =>
    rw [upsert]
    split_ifs with h hk
    · subst h
      subst hk
      simp [get_cons]
    · subst h
      simp [get_cons, hk]
    · simp_all [get_cons]
    · simp_all [get_cons]

lemma mem_upsert {p : κ × β} (h : p ∈ upsert initial f k groups) :
    p ∈ groups ∨ p = (k, f initial) ∨ ∃ b, (k, b) ∈ groups ∧ p = (k, f b) := by
  induction groups with
  | nil => exact .inr (.inl (List.mem_singleton.mp h))
  | cons q groups ih =>
    rw [upsert] at h
    split_ifs at h with hk
    · subst hk
      rcases List.mem_cons.mp h with rfl | hmem
      · exact .inr (.inr ⟨q.2, List.mem_cons_self, rfl⟩)
      · exact .inl (List.mem_cons_of_mem q hmem)
    · rcases List.mem_cons.mp h with rfl | hmem
      · exact .inl List.mem_cons_self
      · rcases ih hmem with hmem | heq | ⟨b, hb, heq⟩
        · exact .inl (List.mem_cons_of_mem q hmem)
        · exact .inr (.inl heq)
        · exact .inr (.inr ⟨b, List.mem_cons_of_mem q hb, heq⟩)

/-! ### Some of the keys -/

lemma filter_upsert (p : κ → Bool) : (upsert initial f k groups).filter (fun g => p g.1) =
    if p k then upsert initial f k (groups.filter fun g => p g.1)
    else groups.filter fun g => p g.1 := by
  induction groups with
  | nil => cases hp : p k <;> simp [upsert, hp]
  | cons q groups ih =>
    rw [upsert]
    by_cases h : q.1 = k
    · subst h
      cases hp : p q.1 <;> simp [hp, upsert]
    · rw [if_neg h]
      cases hp : p k <;> cases hq : p q.1 <;> simp_all [upsert]

/-- The groups of some keys are those of their elements. -/
lemma filter_group (p : κ → Bool) (l : List α) :
    (group key initial add l).filter (fun g => p g.1) =
      group key initial add (l.filter fun a => p (key a)) := by
  induction l using List.reverseRecOn with
  | nil => rfl
  | append_singleton l a ih =>
    rw [group_concat, filter_upsert, ih, List.filter_append]
    cases hp : p (key a) <;> simp [hp, group_concat]

/-! ### Sums -/

variable [AddCommMonoid M] {μ : κ → β → M}

/-- It is enough that the initial value and those under the key are added to. -/
lemma sum_upsert {c : M} (hinitial : μ k (f initial) = c)
    (hf : ∀ b, (k, b) ∈ groups → μ k (f b) = μ k b + c) :
    ((upsert initial f k groups).map fun p => μ p.1 p.2).sum =
      (groups.map fun p => μ p.1 p.2).sum + c := by
  induction groups with
  | nil => simp [upsert, hinitial]
  | cons p groups ih =>
    rw [upsert]
    split_ifs with h
    · subst h
      have hadd := hf p.2 List.mem_cons_self
      simp only [List.map_cons, List.sum_cons, hadd]
      exact add_right_comm _ _ _
    · have hsum := ih fun b hb => hf b (List.mem_cons_of_mem p hb)
      simp only [List.map_cons, List.sum_cons, hsum]
      exact (add_assoc _ _ _).symm

/-- What every element adds to its group is added up over the groups. -/
theorem sum_group {w : α → M} (hinitial : ∀ k, μ k initial = 0)
    (hadd : ∀ b a, μ (key a) (add b a) = μ (key a) b + w a) (l : List α) :
    ((group key initial add l).map fun p => μ p.1 p.2).sum = (l.map w).sum := by
  induction l using List.reverseRecOn with
  | nil => simp
  | append_singleton l a ih =>
    have hfirst : μ (key a) (add initial a) = w a := by rw [hadd, hinitial, zero_add]
    rw [group_concat, sum_upsert hfirst fun b _ => hadd b a, ih]
    simp

end

end Grouping
