import Mathlib.Data.List.Destutter
import Mathlib.Logic.Relation

/-!
# Labelled transition systems

A system is a set of initial states and a labelled step relation. A run keeps its trace, the
list of transitions it made, so that a statement about the past of a state is a statement
about a list.

The two rules at the end carry most safety arguments: an invariant that holds initially and is
kept by every step from a reachable state holds in every reachable state, and a fact about
single steps holds of every transition of every run.
-/

namespace Transition

/-- The last element of a list is where the list is split, or it comes after the split. -/
lemma exists_split_snoc {α : Type*} {l : List α} {x : α} {Q : List α → α → List α → Prop} :
    (∃ l₁ e l₂, l ++ [x] = l₁ ++ e :: l₂ ∧ Q l₁ e l₂) ↔
      Q l x [] ∨ ∃ l₁ e l₂, l = l₁ ++ e :: l₂ ∧ Q l₁ e (l₂ ++ [x]) := by
  constructor
  · rintro ⟨l₁, e, l₂, heq, hQ⟩
    cases l₂ using List.reverseRecOn with
    | nil =>
      obtain ⟨rfl, hx⟩ := List.append_inj' heq rfl
      obtain rfl := List.singleton_inj.mp hx
      exact .inl hQ
    | append_singleton l₂ y _ =>
      rw [← List.cons_append, ← List.append_assoc] at heq
      obtain ⟨hl, hx⟩ := List.append_inj' heq rfl
      obtain rfl := List.singleton_inj.mp hx
      exact .inr ⟨l₁, e, l₂, hl, hQ⟩
  · rintro (hQ | ⟨l₁, e, l₂, rfl, hQ⟩)
    · exact ⟨l, x, [], rfl, hQ⟩
    · exact ⟨l₁, e, l₂ ++ [x], by simp, hQ⟩

variable {σ ι : Type*}

/-- Initial states and labelled steps. -/
structure System (σ ι : Type*) where
  Init : σ → Prop
  Step : σ → ι → σ → Prop

/-- One transition: the state before, the label, the state after. -/
structure Move (σ ι : Type*) where
  pre : σ
  label : ι
  post : σ

namespace System

variable (M : System σ ι)

/-- `M.Run s tr t`: from `s` the transitions `tr`, in order, lead to `t`. -/
inductive Run : σ → List (Move σ ι) → σ → Prop where
  | nil (s : σ) : Run s [] s
  | snoc {s t u : σ} {tr : List (Move σ ι)} {l : ι} :
      Run s tr t → M.Step t l u → Run s (tr ++ [⟨t, l, u⟩]) u

/-- States that some run from an initial state ends in. -/
def Reachable (t : σ) : Prop :=
  ∃ s tr, M.Init s ∧ M.Run s tr t

variable {M}

lemma Reachable.init {s : σ} (h : M.Init s) : M.Reachable s :=
  ⟨s, [], h, .nil s⟩

lemma Reachable.step {s t : σ} {l : ι} (hs : M.Reachable s) (h : M.Step s l t) :
    M.Reachable t := by
  obtain ⟨r, tr, hr, hrun⟩ := hs
  exact ⟨r, _, hr, hrun.snoc h⟩

lemma Run.reachable {s t : σ} {tr : List (Move σ ι)} (h : M.Run s tr t) (hs : M.Init s) :
    M.Reachable t := ⟨s, tr, hs, h⟩

lemma Run.append {s t u : σ} {tr tr' : List (Move σ ι)} (h : M.Run s tr t)
    (h' : M.Run t tr' u) : M.Run s (tr ++ tr') u := by
  induction h' with
  | nil => simpa using h
  | snoc _ hstep ih =>
    rw [← List.append_assoc]
    exact ih.snoc hstep

lemma Run.single {s t : σ} {l : ι} (h : M.Step s l t) : M.Run s [⟨s, l, t⟩] t :=
  (Run.nil s).snoc h

lemma Reachable.run {s t : σ} {tr : List (Move σ ι)} (hs : M.Reachable s) (h : M.Run s tr t) :
    M.Reachable t := by
  obtain ⟨r, tr', hr, hrun⟩ := hs
  exact (hrun.append h).reachable hr

/-- Every transition of a run starts in a reachable state and is a step. -/
lemma Run.of_mem {s t : σ} {tr : List (Move σ ι)} (h : M.Run s tr t) (hs : M.Init s)
    {m : Move σ ι} (hm : m ∈ tr) : M.Reachable m.pre ∧ M.Step m.pre m.label m.post := by
  induction h with
  | nil => simp at hm
  | snoc hrun hstep ih =>
    rcases List.mem_append.mp hm with hm | hm
    · exact ih hm
    · obtain rfl := List.mem_singleton.mp hm
      exact ⟨hrun.reachable hs, hstep⟩

/-- A run up to one of its transitions, and that transition. -/
lemma Run.split {s t : σ} (tr₁ : List (Move σ ι)) (m : Move σ ι) (tr₂ : List (Move σ ι))
    (h : M.Run s (tr₁ ++ m :: tr₂) t) : M.Run s tr₁ m.pre ∧ M.Step m.pre m.label m.post := by
  generalize htr : tr₁ ++ m :: tr₂ = tr at h
  induction h generalizing tr₂ with
  | nil => simp at htr
  | @snoc t u tr l hrun hstep ih =>
    cases tr₂ using List.reverseRecOn with
    | nil =>
      obtain ⟨rfl, hm⟩ := List.append_inj' htr rfl
      obtain rfl := List.singleton_inj.mp hm
      exact ⟨hrun, hstep⟩
    | append_singleton tr₂ m' _ =>
      rw [← List.cons_append, ← List.append_assoc] at htr
      exact ih tr₂ (List.append_inj' htr rfl).1

/-- The rest of a run after one of its transitions. -/
lemma Run.after {s t : σ} (tr₁ : List (Move σ ι)) (m : Move σ ι) (tr₂ : List (Move σ ι))
    (h : M.Run s (tr₁ ++ m :: tr₂) t) : M.Run m.post tr₂ t := by
  generalize htr : tr₁ ++ m :: tr₂ = tr at h
  induction h generalizing tr₂ with
  | nil => simp at htr
  | @snoc t u tr l hrun hstep ih =>
    cases tr₂ using List.reverseRecOn with
    | nil =>
      obtain ⟨-, hm⟩ := List.append_inj' htr rfl
      obtain rfl := List.singleton_inj.mp hm
      exact .nil u
    | append_singleton tr₂ m' _ =>
      rw [← List.cons_append, ← List.append_assoc] at htr
      obtain ⟨htr', hm⟩ := List.append_inj' htr rfl
      obtain rfl := List.singleton_inj.mp hm
      exact (ih tr₂ htr').snoc hstep

/-- A run, cut at one of its transitions. -/
lemma Run.split_of_mem {s t : σ} {tr : List (Move σ ι)} (h : M.Run s tr t) {m : Move σ ι}
    (hm : m ∈ tr) : ∃ tr₁ tr₂, tr = tr₁ ++ m :: tr₂ ∧ M.Run s tr₁ m.pre ∧
      M.Step m.pre m.label m.post := by
  obtain ⟨tr₁, tr₂, rfl⟩ := List.append_of_mem hm
  exact ⟨tr₁, tr₂, rfl, h.split tr₁ m tr₂⟩

/-- **Invariant rule.** The step may use that its source is reachable. -/
theorem Reachable.invariant {P : σ → Prop} (hinit : ∀ s, M.Init s → P s)
    (hstep : ∀ s l t, M.Reachable s → P s → M.Step s l t → P t) {t : σ}
    (h : M.Reachable t) : P t := by
  obtain ⟨s, tr, hs, hrun⟩ := h
  induction hrun with
  | nil => exact hinit _ hs
  | snoc hrun hst ih => exact hstep _ _ _ (hrun.reachable hs) ih hst

/-- **Trace rule**: an invariant of the pair of the trace so far and the state it led to. -/
theorem Run.invariant {P : List (Move σ ι) → σ → Prop} {s : σ} (hs : M.Init s)
    (hnil : P [] s)
    (hsnoc : ∀ tr t l u, M.Reachable t → P tr t → M.Step t l u → P (tr ++ [⟨t, l, u⟩]) u)
    {tr : List (Move σ ι)} {t : σ} (h : M.Run s tr t) : P tr t := by
  induction h with
  | nil => exact hnil
  | snoc hrun hst ih => exact hsnoc _ _ _ _ (hrun.reachable hs) ih hst

/-- A relation between states that is reflexive, transitive and contains every step from a
reachable state relates the two ends of every run. -/
theorem Run.relates {R : σ → σ → Prop} (hrefl : ∀ s, R s s)
    (htrans : ∀ s t u, R s t → R t u → R s u)
    (hstep : ∀ s l t, M.Reachable s → M.Step s l t → R s t)
    {s t : σ} {tr : List (Move σ ι)} (h : M.Run s tr t) (hs : M.Reachable s) : R s t := by
  induction h with
  | nil => exact hrefl _
  | snoc hrun hst ih => exact htrans _ _ _ ih (hstep _ _ _ (hs.run hrun) hst)

/-- If a step from a state with `P` keeps `P` exactly if the step is a `Q`, then the states of a run
that starts with `P` all have it exactly if the transitions are all `Q`. -/
theorem Run.forall_post_iff {I P : σ → Prop} {Q : Move σ ι → Prop} {s t : σ}
    {tr : List (Move σ ι)} (h : M.Run s tr t) (hI : I s) (hP : P s)
    (hkeep : ∀ s l t, I s → M.Step s l t → I t)
    (hstep : ∀ s l t, I s → P s → M.Step s l t → (P t ↔ Q ⟨s, l, t⟩)) :
    (∀ m ∈ tr, P m.post) ↔ ∀ m ∈ tr, Q m := by
  suffices hrun : I t ∧ ((∀ m ∈ tr, P m.post) ↔ ∀ m ∈ tr, Q m) ∧ ((∀ m ∈ tr, P m.post) → P t) from
    hrun.2.1
  induction h with
  | nil => exact ⟨hI, by simp, fun _ => hP⟩
  | @snoc t u tr l hrun hst ih =>
    obtain ⟨hinv, hiff, hlast⟩ := ih
    refine ⟨hkeep _ _ _ hinv hst, ?_, fun hall => hall ⟨t, l, u⟩ (by simp)⟩
    simp only [List.forall_mem_append, List.forall_mem_singleton]
    rw [← hiff]
    refine and_congr_right fun hall => ?_
    exact hstep _ _ _ hinv (hlast hall) hst

/-- If from a state with `I` a step is an `F` exactly if it is a `Q`, and a `Q` keeps `I`, then the
transitions of a run are all `F` exactly if they are all `Q`. -/
theorem Run.forall_iff {I : σ → Prop} {F Q : Move σ ι → Prop} {s t : σ} {tr : List (Move σ ι)}
    (h : M.Run s tr t) (hI : I s)
    (hstep : ∀ s l t, I s → M.Step s l t → (F ⟨s, l, t⟩ ↔ Q ⟨s, l, t⟩) ∧ (Q ⟨s, l, t⟩ → I t)) :
    (∀ m ∈ tr, F m) ↔ ∀ m ∈ tr, Q m := by
  suffices hrun : ((∀ m ∈ tr, F m) ↔ ∀ m ∈ tr, Q m) ∧ ((∀ m ∈ tr, Q m) → I t) from hrun.1
  induction h with
  | nil => exact ⟨by simp, fun _ => hI⟩
  | @snoc t u tr l hrun hst ih =>
    obtain ⟨hiff, hlast⟩ := ih
    simp only [List.forall_mem_append, List.forall_mem_singleton]
    rw [hiff]
    refine ⟨and_congr_right fun hall => ?_, fun hall => ?_⟩
    · exact (hstep _ _ _ (hlast hall) hst).1
    · exact (hstep _ _ _ (hlast hall.1) hst).2 hall.2

end System

/-! ### Observations along a run -/

/-- The states a run passes through, the first one included. -/
def states (s : σ) (tr : List (Move σ ι)) : List σ := s :: tr.map Move.post

lemma head?_destutter' {α : Type*} (R : α → α → Prop) [DecidableRel R] (a : α) (l : List α) :
    (l.destutter' R a).head? = some a := by
  induction l generalizing a with
  | nil => rfl
  | cons b l ih =>
    rw [List.destutter'_cons]
    split_ifs
    · rfl
    · exact ih a

/-- If neighbours in a list are equal or related, the list without its stutters is a path. -/
theorem isChain_destutter {α : Type*} [DecidableEq α] {R : α → α → Prop} {l : List α}
    (h : l.IsChain fun a b => a = b ∨ R a b) : (l.destutter (· ≠ ·)).IsChain R := by
  cases l with
  | nil => simp
  | cons a l =>
    rw [List.destutter_cons']
    induction l generalizing a with
    | nil => simp
    | cons b l ih =>
      rw [List.isChain_cons_cons] at h
      obtain ⟨hab, hl⟩ := h
      rw [List.destutter'_cons]
      split_ifs with hne
      · refine List.isChain_cons.mpr ⟨fun y hy => ?_, ih b hl⟩
        obtain rfl : b = y := by simpa [head?_destutter'] using hy
        exact hab.resolve_left hne
      · obtain rfl : a = b := not_not.mp hne
        exact ih a hl

/-- What an observation that may be absent does in a step: it stays, appears as one of `F`, or moves
along `R`. -/
inductive Turn {α : Type*} (F : α → Prop) (R : α → α → Prop) : Option α → Option α → Prop where
  | same (a : Option α) : Turn F R a a
  | appear {b : α} (h : F b) : Turn F R none (some b)
  | change {a b : α} (h : R a b) : Turn F R (some a) (some b)

/-- The values that an observation takes along a run, state by state. -/
def observed {α : Type*} (obs : σ → Option α) (s : σ) (tr : List (Move σ ι)) : List α :=
  (states s tr).filterMap obs

section Observed

variable {α : Type*} {F : α → Prop} {R : α → α → Prop} {M : System σ ι} {obs : σ → Option α}
  {s t u : σ} {l : ι} {tr : List (Move σ ι)}

lemma observed_snoc :
    observed obs s (tr ++ [⟨t, l, u⟩]) = observed obs s tr ++ (obs u).toList := by
  rw [observed, states, List.map_append, ← List.cons_append, List.filterMap_append]
  cases h : obs u <;> simp [observed, states, h]

lemma observed_nil (hs : obs s = none) : observed obs s ([] : List (Move σ ι)) = [] := by
  simp [observed, states, hs]

/-- An observation that is there stays, so what was observed ends in it. -/
lemma System.Run.getLast?_observed (hs : obs s = none) (h : M.Run s tr t)
    (hturn : ∀ m ∈ tr, Turn F R (obs m.pre) (obs m.post)) :
    (observed obs s tr).getLast? = obs t := by
  induction h with
  | nil => rw [observed_nil hs, List.getLast?_nil, hs]
  | @snoc s' t' tr l hrun hstep ih =>
    rw [observed_snoc, List.getLast?_append, ih fun m hm => hturn m (List.mem_append_left _ hm)]
    have hlast := hturn ⟨s', l, t'⟩ (List.mem_append_right _ (List.mem_singleton_self _))
    generalize obs s' = a at hlast
    generalize obs t' = b at hlast
    cases hlast with
    | same a => cases a <;> rfl
    | appear => rfl
    | change => rfl

/-- The observation appears in this transition. -/
def appears (obs : σ → Option α) (m : Move σ ι) : Bool := (obs m.pre).isNone && (obs m.post).isSome

/-- An observation that is there stays, so it appears once. -/
lemma System.Run.countP_appears (hs : obs s = none) (h : M.Run s tr t)
    (hturn : ∀ m ∈ tr, Turn F R (obs m.pre) (obs m.post)) :
    tr.countP (appears obs) = if (obs t).isSome then 1 else 0 := by
  induction h with
  | nil => simp [hs]
  | @snoc s' t' tr l hrun hstep ih =>
    have hlast : Turn F R (obs s') (obs t') :=
      hturn ⟨s', l, t'⟩ (List.mem_append_right _ (List.mem_singleton_self _))
    rw [List.countP_append, ih fun m hm => hturn m (List.mem_append_left _ hm),
      List.countP_singleton, appears]
    generalize obs s' = a at hlast
    generalize obs t' = b at hlast
    cases hlast with
    | same a => cases a <;> rfl
    | appear => rfl
    | change => rfl

/-- What is observed first is one of `F`. -/
lemma System.Run.head?_observed (hs : obs s = none) (h : M.Run s tr t)
    (hturn : ∀ m ∈ tr, Turn F R (obs m.pre) (obs m.post)) :
    ∀ a ∈ (observed obs s tr).head?, F a := by
  induction h with
  | nil => simp [observed_nil hs]
  | @snoc s' t' tr l hrun hstep ih =>
    have hold : ∀ m ∈ tr, Turn F R (obs m.pre) (obs m.post) := fun m hm =>
      hturn m (List.mem_append_left _ hm)
    have hlast : Turn F R (obs s') (obs t') :=
      hturn ⟨s', l, t'⟩ (List.mem_append_right _ (List.mem_singleton_self _))
    have hend := hrun.getLast?_observed hs hold
    rw [observed_snoc]
    by_cases hnil : observed obs s tr = []
    · rw [hnil] at hend ⊢
      rw [List.getLast?_nil] at hend
      rw [← hend] at hlast
      generalize obs t' = o at hlast
      cases hlast with
      | same => simp
      | appear hF => simpa using hF
    · rw [List.head?_append_of_ne_nil _ hnil]
      exact ih hold

/-- **History rule.** If in every step the observation stays, appears as one of `F` or moves along
`R`, then what was observed, without its stutters, is a path of `R`. -/
theorem System.Run.isChain_observed [DecidableEq α] (hs : obs s = none) (h : M.Run s tr t)
    (hturn : ∀ m ∈ tr, Turn F R (obs m.pre) (obs m.post)) :
    ((observed obs s tr).destutter (· ≠ ·)).IsChain R := by
  apply isChain_destutter
  induction h with
  | nil =>
    rw [observed_nil hs]
    exact .nil
  | @snoc s' t' tr l hrun hstep ih =>
    have hold : ∀ m ∈ tr, Turn F R (obs m.pre) (obs m.post) := fun m hm =>
      hturn m (List.mem_append_left _ hm)
    have hlast := hturn ⟨s', l, t'⟩ (List.mem_append_right _ (List.mem_singleton_self _))
    rw [observed_snoc]
    refine List.isChain_append.mpr ⟨ih hold, ?_, ?_⟩
    · cases obs t' <;> simp
    · rw [hrun.getLast?_observed hs hold]
      intro a ha b hb
      change Turn F R (obs s') (obs t') at hlast
      rw [ha] at hlast
      generalize obs t' = o at hlast hb
      cases hlast with
      | same => exact .inl (Option.some.inj hb)
      | change hR =>
        obtain rfl := Option.some.inj hb
        exact .inr hR

end Observed

end Transition
