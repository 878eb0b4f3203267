import Mathlib.Data.List.Dedup
import Mathlib.Data.List.Sort
import PayEra.Lib.Rounds
import PayEra.Ramps.Refresh

/-!
# Who is polled

A tick refreshes the 20 ramps that were polled least recently. A refresh that throws before its write
leaves `lastPolledAt` as it was, and with it the place at the head of the queue: at the next tick the
ramp takes up one of the 20 places again. In `⌈n / 20⌉` ticks all of `n` ramps are refreshed if there
are so few of these that the places are enough.
-/

namespace PayEra.Ramps

open Transition (System Move)
open Async.Program
open RampsService Rounds

/-! ### Ticks -/

/-- A refresh of a tick. -/
abbrev Visit := Async.Pass Rails Op Op.Res Thrown RampStatus RampTransaction

/-- A run of `reconcilePending`: the time that it reads, its calls, and its refreshes. -/
structure Tick where
  now : ℕ
  requests : List Attempted
  visits : List Visit

/-- The ramps on which `refreshStatus` is called. -/
def Tick.called (tick : Tick) : List String := tick.visits.map (·.item.id)

/-- The ramps that a tick looks for. -/
def eligible (now : ℕ) (s : Rails) : List RampTransaction :=
  s.ramps.filter (Rails.isPending (now - maxAgeMs))

/-- The 20 of them that come first in one of their orders. -/
def Foremost (now : ℕ) (s : Rails) (l : List RampTransaction) : Prop :=
  ∃ order : List RampTransaction, order.Perm (eligible now s) ∧
    (order.Pairwise fun t t' => Rails.polledBefore t t' = true) ∧ l = order.take 20

/-- The tick reads the ramps and refreshes what it has read, one after the other. -/
def Tick.Goes (anchor : Anchor) (s : Rails) (tick : Tick) (s' : Rails) : Prop :=
  tick.now = s.clock ∧ ∃ s₁ l, s₁.ramps = s.ramps ∧ s.clock ≤ s₁.clock ∧ Foremost tick.now s₁ l ∧
    Async.Passes Returns Total Rails.Other (fun ramp => refreshStatus anchor ramp.id) l s₁ tick.visits s'

/-- Ticks, one after the other. In between the clock moves on. -/
def ticking (anchor : Anchor) : System Rails Tick where
  Init s := (s.ramps.map (·.id)).Nodup ∧
    ∀ t ∈ s.ramps, ∀ polledAt, t.lastPolledAt = some polledAt → polledAt ≤ s.clock
  Step s tick s' := ∃ s₁, Rails.Other s s₁ ∧ s.clock < s₁.clock ∧
    Ran (reconcilePending anchor) s₁ tick.requests (.ok ()) s' ∧ tick.Goes anchor s₁ s'

/-- Throughout a tick the eligible ramps are those of `E`, which have a provider's transaction, and
all but those of `F` are refreshed without an error. -/
structure Steady (E : List String) (F : Finset String) (m : Move Rails Tick) : Prop where
  eligible : (eligible m.label.now m.pre).map (·.id) = E
  present : ∀ t ∈ Ramps.eligible m.label.now m.pre, given t.providerTxId ≠ none
  succeeds : ∀ v ∈ m.label.visits, v.item.id ∉ F → v.result.isOk

/-- Every ramp of `E` is refreshed. -/
def Fair (E : List String) (tr : List (Move Rails Tick)) : Prop :=
  ∀ id ∈ E, ∃ m ∈ tr, id ∈ m.label.called

section Fairness

variable {anchor : Anchor} {s s' : Rails} {tick : Tick} {tr : List (Move Rails Tick)}
  {m : Move Rails Tick} {E : List String} {F V : Finset String} {C now : ℕ} {i id : String}
  {t : RampTransaction} {l : List RampTransaction}

lemma returns_now {v : ℕ} (h : Returns .now s v s') : v = s.clock ∧ s' = s := by
  obtain ⟨o, ho⟩ := h
  cases ho
  exact ⟨rfl, rfl⟩

lemma returns_findPending {v : List RampTransaction}
    (h : Returns (.findPending (now - maxAgeMs)) s v s') : Foremost now s v ∧ s' = s := by
  obtain ⟨o, ho⟩ := h
  simp only [Rails.answer] at ho
  split_ifs at ho with horder
  cases ho
  exact ⟨⟨o.order, horder.1, horder.2, rfl⟩, rfl⟩

/-- The order depends on the ramps alone. -/
lemma Foremost.congr (h : Foremost now s' l) (hramps : s'.ramps = s.ramps) : Foremost now s l := by
  rwa [Foremost, eligible, hramps] at h

/-- An execution of the poller is a tick, unless it cannot read the ramps. -/
lemma reconcilePending_cases {requests : List Attempted} {r : Except Thrown Unit}
    (h : Ran (reconcilePending anchor) s requests r s') :
    (r = .ok () ∧ ∃ tick : Tick, tick.requests = requests ∧ tick.Goes anchor s s') ∨
    (∃ e, r = .error e) ∧ ∀ i t, s.ramp i = some t → s'.ramp i = some t := by
  rcases h.of_bind with ⟨now, s₁, tr₁, tr₂, rfl, hnow, hrest⟩ | ⟨e, rfl, hnow⟩
  · rcases hrest.of_bind with ⟨pending, s₂, tr₃, tr₄, rfl, hfind, hloop⟩ | ⟨e, rfl, hfind⟩
    · left
      obtain ⟨took, s₃, rfl, ⟨-, hreturns⟩, hother⟩ := hnow.of_perform
      obtain ⟨hclock, hs₃⟩ := returns_now hreturns
      obtain rfl : s₃ = s := hs₃
      obtain rfl : now = s₃.clock := hclock
      obtain ⟨took', s₄, rfl, ⟨-, hreturns'⟩, hother'⟩ := hfind.of_perform
      obtain ⟨hpending, hs₄⟩ := returns_findPending hreturns'
      obtain rfl : s₄ = s₁ := hs₄
      obtain ⟨rfl, visits, hvisits, -⟩ := hloop.of_forM_attempt
      exact ⟨rfl, ⟨s₃.clock, _, visits⟩, rfl, rfl, s₂, pending, hother'.ramps.trans hother.ramps,
        hother.clock.trans hother'.clock, hpending.congr hother'.ramps.symm, hvisits⟩
    · right
      refine ⟨⟨e, rfl⟩, fun i t ht => ?_⟩
      exact ramp_of_silent (all_perform rfl) hfind (ramp_of_silent (all_perform rfl) hnow ht)
  · right
    exact ⟨⟨e, rfl⟩, fun i t ht => ramp_of_silent (all_perform rfl) hnow ht⟩

/-! ### Rows and their identifiers -/

/-- Identifiers are unique, so a row is found by its own. -/
lemma ramp_of_mem (hunique : (s.ramps.map (·.id)).Nodup) (ht : t ∈ s.ramps) :
    s.ramp t.id = some t := by
  cases hfound : s.ramp t.id with
  | none =>
    rw [Rails.ramp, List.find?_eq_none] at hfound
    exact absurd (decide_eq_true rfl) (hfound t ht)
  | some t' =>
    have hmem : t' ∈ s.ramps := List.mem_of_find?_eq_some hfound
    rw [List.inj_on_of_nodup_map hunique hmem ht (id_of_ramp hfound)]

/-- Rows neither come nor go. -/
lemma exists_ramp_of_ids (hids : s'.ramps.map (·.id) = s.ramps.map (·.id)) (ht : s'.ramp i = some t) :
    ∃ t', s.ramp i = some t' := by
  have hmem : i ∈ s.ramps.map (·.id) := by
    rw [← hids, ← id_of_ramp ht]
    exact List.mem_map_of_mem (List.mem_of_find?_eq_some ht)
  obtain ⟨t', ht', hid⟩ := List.mem_map.mp hmem
  cases hfound : s.ramp i with
  | none =>
    rw [Rails.ramp, List.find?_eq_none] at hfound
    exact absurd (decide_eq_true hid) (hfound t' ht')
  | some t'' => exact ⟨t'', rfl⟩

/-! ### What is known of the queue -/

/-- A window of ticks has begun at the time `C` and has refreshed the ramps of `V`: those that it has
not were polled before, and those that it has, without an error, were polled after. -/
structure Window (C : ℕ) (V F : Finset String) (s : Rails) : Prop where
  unique : (s.ramps.map (·.id)).Nodup
  clock : C ≤ s.clock
  unserved : ∀ i t, s.ramp i = some t → i ∉ V → ∀ polledAt, t.lastPolledAt = some polledAt →
    polledAt ≤ C
  served : ∀ i t, s.ramp i = some t → i ∈ V → i ∉ F →
    ∃ polledAt, t.lastPolledAt = some polledAt ∧ C < polledAt

lemma window_start (h : (ticking anchor).Init s) : Window s.clock ∅ F s where
  unique := h.1
  clock := le_rfl
  unserved _ t ht _ := h.2 t (List.mem_of_find?_eq_some ht)
  served i _ _ hi := absurd hi (Finset.notMem_empty i)

lemma Window.congr (h : Window C V F s) (hramps : s'.ramps = s.ramps) (hclock : s.clock ≤ s'.clock) :
    Window C V F s' where
  unique := by rw [hramps]; exact h.unique
  clock := h.clock.trans hclock
  unserved i t ht := h.unserved i t ((ramp_congr hramps i).symm.trans ht)
  served i t ht := h.served i t ((ramp_congr hramps i).symm.trans ht)

/-- A refresh after the time `C`. -/
lemma Window.visit {requests : List Attempted} {r : Except Thrown RampStatus} (h : Window C V F s)
    (hC : C < s.clock) (hran : Ran (refreshStatus anchor id) s requests r s')
    (ht : s.ramp id = some t) (hbusy : ¬t.Idle) (hok : id ∉ F → r.isOk) :
    Window C (insert id V) F s' := by
  have hids := ids_of_ran creates_refreshStatus hran
  have hother {i : String} {t' : RampTransaction} (hi : i ≠ id) (ht' : s'.ramp i = some t') :
      s.ramp i = some t' := by
    obtain ⟨t₀, ht₀⟩ := exists_ramp_of_ids hids ht'
    have hkept := refreshStatus_spares hran hi ht₀
    obtain rfl := Option.some.inj (hkept.symm.trans ht')
    exact ht₀
  refine ⟨?_, h.clock.trans (clock_of_ran hran), fun i t' ht' hi => ?_, fun i t' ht' hi hF => ?_⟩
  · rw [hids]
    exact h.unique
  · rw [Finset.mem_insert, not_or] at hi
    exact h.unserved i t' (hother hi.1 ht') hi.2
  · by_cases hid : i = id
    · subst hid
      cases r with
      | error e => cases hok hF
      | ok status =>
        rcases refreshStatus_ok hran ht with ⟨hidle, -⟩ |
          ⟨-, a, -, tx, -, t'', polledAt, ht'', hle, hrefreshed⟩
        · exact absurd hidle hbusy
        · obtain rfl := Option.some.inj (ht'.symm.trans ht'')
          exact ⟨polledAt, hrefreshed.lastPolledAt, hC.trans_le hle⟩
    · exact h.served i t' (hother hid ht') (Finset.mem_of_mem_insert_of_ne hi hid) hF

/-- The refreshes of a tick. -/
lemma Window.visits {visits : List Visit} (h : Window C V F s) (hC : C < s.clock)
    (hvisits : Async.Passes Returns Total Rails.Other
      (fun ramp : RampTransaction => refreshStatus anchor ramp.id) l s visits s')
    (hrows : ∀ t ∈ l, s.ramp t.id = some t ∧ ¬t.Idle) (hnodup : (l.map (·.id)).Nodup)
    (hok : ∀ v ∈ visits, v.item.id ∉ F → v.result.isOk) :
    Window C (V ∪ (visits.map (·.item.id)).toFinset) F s' := by
  induction hvisits generalizing V with
  | nil => simpa using h
  | @cons ramp l s s₁ s' requests r visits hpass hrest ih =>
    obtain ⟨hhead, htail⟩ := List.nodup_cons.mp hnodup
    obtain ⟨hramp, hbusy⟩ := hrows ramp (List.mem_cons_self ..)
    have hvisit := h.visit hC hpass hramp hbusy (hok _ (List.mem_cons_self ..))
    have hnext := ih hvisit (hC.trans_le (clock_of_ran hpass)) (fun t ht => ?_) htail
      (fun v hv => hok v (List.mem_cons_of_mem _ hv))
    · rwa [List.map_cons, List.toFinset_cons, Finset.union_insert, ← Finset.insert_union]
    · obtain ⟨hrow, hidle⟩ := hrows t (List.mem_cons_of_mem _ ht)
      refine ⟨refreshStatus_spares hpass (fun heq => hhead ?_) hrow, hidle⟩
      exact List.mem_map.mpr ⟨t, ht, heq⟩

/-! ### The order of the queue -/

lemma Foremost.eligible (h : Foremost now s l) (ht : t ∈ l) : t ∈ Ramps.eligible now s := by
  obtain ⟨order, hperm, -, rfl⟩ := h
  exact hperm.mem_iff.mp (List.mem_of_mem_take ht)

/-- If somebody is left out, 20 ramps are due, and all of them come before. -/
lemma Foremost.of_left_out (h : Foremost now s l) (ht : t ∈ Ramps.eligible now s) (hleft : t ∉ l) :
    l.length = 20 ∧ ∀ t' ∈ l, Rails.polledBefore t' t = true := by
  obtain ⟨order, hperm, hsorted, rfl⟩ := h
  rw [← List.take_append_drop 20 order, List.pairwise_append] at hsorted
  have hmem : t ∈ order.drop 20 := by
    have hall := hperm.mem_iff.mpr ht
    rw [← List.take_append_drop 20 order] at hall
    exact (List.mem_append.mp hall).resolve_left hleft
  refine ⟨?_, fun t' ht' => hsorted.2.2 t' ht' t hmem⟩
  have hlength := List.length_pos_of_mem hmem
  rw [List.length_drop] at hlength
  rw [List.length_take]
  omega

lemma Foremost.nodup (h : Foremost now s l) (hunique : (s.ramps.map (·.id)).Nodup) :
    (l.map (·.id)).Nodup := by
  obtain ⟨order, hperm, -, rfl⟩ := h
  have hsub : (Ramps.eligible now s).map (·.id) |>.Nodup :=
    hunique.sublist (List.filter_sublist.map _)
  exact ((hperm.map (·.id)).nodup_iff.mpr hsub).sublist ((List.take_sublist _ _).map _)

/-! ### Rounds of ticks -/

/-- The ramps that each tick refreshes. -/
def rounds (tr : List (Move Rails Tick)) : List (Finset String) :=
  tr.map fun m => m.label.called.toFinset

lemma called_of_step (h : (ticking anchor).Step m.pre m.label m.post) :
    ∃ l, Foremost m.label.now m.pre l ∧ m.label.called = l.map (·.id) := by
  obtain ⟨s₁, hother, -, -, -, s₂, l, hramps, -, hforemost, hvisits⟩ := h
  refine ⟨l, hforemost.congr (hramps.trans hother.ramps), ?_⟩
  rw [Tick.called, ← hvisits.items, List.map_map]
  rfl

lemma Steady.busy (h : Steady E F m) (ht : t ∈ Ramps.eligible m.label.now m.pre) : ¬t.Idle := by
  rintro (hidle | hidle)
  · have hpending : Rails.isPending (m.label.now - maxAgeMs) t = true := (List.mem_filter.mp ht).2
    obtain ⟨hstatus, -⟩ := of_decide_eq_true hpending
    rcases hstatus with hstatus | hstatus | hstatus | hstatus
    all_goals
      rw [hstatus] at hidle
      cases hidle
  · exact h.present t ht hidle

/-- A tick adds those that it refreshes. -/
lemma Window.step (h : Window C V F m.pre) (hsteady : Steady E F m)
    (hstep : (ticking anchor).Step m.pre m.label m.post) :
    Window C (V ∪ m.label.called.toFinset) F m.post := by
  obtain ⟨s₁, hother, hlt, -, -, s₂, l, hramps, hle, hforemost, hvisits⟩ := hstep
  have hrows₂ : s₂.ramps = m.pre.ramps := hramps.trans hother.ramps
  have hwindow := h.congr hrows₂ (hlt.le.trans hle)
  replace hforemost := hforemost.congr hrows₂
  refine hwindow.visits ((h.clock.trans_lt hlt).trans_le hle) hvisits (fun t ht => ?_)
    (hforemost.nodup h.unique) hsteady.succeeds
  have hmem := hforemost.eligible ht
  refine ⟨?_, hsteady.busy hmem⟩
  rw [ramp_congr hrows₂]
  exact ramp_of_mem h.unique (List.mem_of_mem_filter hmem)

lemma window_run (hinit : (ticking anchor).Init s) (hrun : (ticking anchor).Run s tr s')
    (hsteady : ∀ m ∈ tr, Steady E F m) : Window s.clock (served (rounds tr)) F s' := by
  induction hrun with
  | nil => exact window_start hinit
  | snoc hrun hstep ih =>
    have hwindow := ih fun m hm => hsteady m (List.mem_append_left _ hm)
    rw [rounds, List.map_append, List.map_singleton, served_snoc]
    exact hwindow.step (hsteady _ (List.mem_append_right _ (List.mem_singleton_self _))) hstep

/-- A ramp that is left out stands behind those that are refreshed, so these have not been refreshed
before, or have failed. -/
lemma Window.greedy (h : Window C V F m.pre) (hsteady : Steady E F m)
    (hstep : (ticking anchor).Step m.pre m.label m.post) (hid : id ∈ E) (hV : id ∉ V)
    (hleft : id ∉ m.label.called) :
    20 ≤ m.label.called.toFinset.card ∧ m.label.called.toFinset ∩ V ⊆ F := by
  obtain ⟨l, hforemost, hcalled⟩ := called_of_step hstep
  rw [← hsteady.eligible] at hid
  obtain ⟨t, ht, rfl⟩ := List.mem_map.mp hid
  rw [hcalled] at hleft
  obtain ⟨hlength, hbefore⟩ := hforemost.of_left_out ht fun hmem => hleft (List.mem_map_of_mem hmem)
  refine ⟨?_, fun i hi => ?_⟩
  · rw [hcalled, List.toFinset_card_of_nodup (hforemost.nodup h.unique), List.length_map, hlength]
  · obtain ⟨hi, hiV⟩ := Finset.mem_inter.mp hi
    rw [List.mem_toFinset, hcalled] at hi
    obtain ⟨t', ht', rfl⟩ := List.mem_map.mp hi
    by_contra hF
    have hrow := ramp_of_mem h.unique (List.mem_of_mem_filter ht)
    have hrow' := ramp_of_mem h.unique (List.mem_of_mem_filter (hforemost.eligible ht'))
    obtain ⟨polledAt, hpolled, hlate⟩ := h.served _ t' hrow' hiV hF
    have hfirst := hbefore t' ht'
    rw [Rails.polledBefore, hpolled] at hfirst
    cases hearly : t.lastPolledAt with
    | none =>
      rw [hearly] at hfirst
      cases hfirst
    | some polledAt' =>
      rw [hearly] at hfirst
      have hle := h.unserved _ t hrow hV polledAt' hearly
      have horder : polledAt ≤ polledAt' := of_decide_eq_true hfirst
      omega

lemma greedy_rounds (hinit : (ticking anchor).Init s) (hrun : (ticking anchor).Run s tr s')
    (hsteady : ∀ m ∈ tr, Steady E F m) : Greedy 20 E.toFinset F (rounds tr) := by
  intro before B after hsplit id hid hleft
  obtain ⟨tr₁, tr₂, rfl, rfl, htr₂⟩ := List.map_eq_append_iff.mp hsplit
  obtain ⟨m, tr₃, rfl, rfl, -⟩ := List.map_eq_cons_iff.mp htr₂
  obtain ⟨hbefore, hstep⟩ := hrun.split tr₁ m tr₃
  rw [served_snoc, Finset.mem_union, not_or] at hleft
  have hwindow := window_run hinit hbefore fun m' hm' => hsteady m' (List.mem_append_left _ hm')
  exact hwindow.greedy (hsteady m (by simp)) hstep (List.mem_toFinset.mp hid) hleft.1
    (fun hmem => hleft.2 (List.mem_toFinset.mpr hmem))

lemma served_subset (hrun : (ticking anchor).Run s tr s') (hsteady : ∀ m ∈ tr, Steady E F m) :
    served (rounds tr) ⊆ E.toFinset := by
  intro id hid
  obtain ⟨B, hB, hmem⟩ := mem_served.mp hid
  obtain ⟨m, hm, rfl⟩ := List.mem_map.mp hB
  obtain ⟨tr₁, tr₂, rfl, -, hstep⟩ := hrun.split_of_mem hm
  obtain ⟨l, hforemost, hcalled⟩ := called_of_step hstep
  rw [List.mem_toFinset, hcalled] at hmem
  obtain ⟨t, ht, rfl⟩ := List.mem_map.mp hmem
  rw [List.mem_toFinset, ← (hsteady m hm).eligible]
  exact List.mem_map_of_mem (hforemost.eligible ht)

end Fairness

/-- In `⌈n / 20⌉` ticks there are places for `n` ramps, and for `k` of them in every tick but the
first. -/
def Room (n k : ℕ) : Prop := ((n + 19) / 20 - 1) * k + n ≤ 20 * ((n + 19) / 20)

instance (n k : ℕ) : Decidable (Room n k) := inferInstanceAs (Decidable (_ ≤ _))

/-- In `⌈n / 20⌉` ticks each of `n` eligible ramps is refreshed, if those that fail, and come back in
every tick but the first, leave room for the others. -/
theorem fair_of_room {anchor : Anchor} {s s' : Rails} {tr : List (Move Rails Tick)} {E : List String}
    {F : Finset String} (hinit : (ticking anchor).Init s) (hrun : (ticking anchor).Run s tr s')
    (hsteady : ∀ m ∈ tr, Steady E F m) (hlength : tr.length = (E.length + 19) / 20)
    (hroom : Room E.length F.card) : Fair E tr := by
  intro id hid
  have hrounds : (rounds tr).length = (E.length + 19) / 20 := (List.length_map _).trans hlength
  have hall := (greedy_rounds hinit hrun hsteady).all_served (served_subset hrun hsteady) ?_
  · obtain ⟨B, hB, hmem⟩ := mem_served.mp (hall (List.mem_toFinset.mpr hid))
    obtain ⟨m, hm, rfl⟩ := List.mem_map.mp hB
    exact ⟨m, hm, List.mem_toFinset.mp hmem⟩
  · rw [hrounds]
    exact (Nat.add_le_add_left (List.toFinset_card_le E) _).trans hroom

/-! ### Accounts that the provider rejects -/

namespace PlayedRamps

/-- The URL of a challenge names the account. -/
def accounts : Anchor :=
  { anchor with withSearchParams := fun _ params => .ok ((params.map (·.2)).headD "") }

/-- The rows of the query, in an order of them. -/
def inOrder (l : List RampTransaction) : List RampTransaction :=
  l.insertionSort fun t t' => Rails.polledBefore t t' = true

lemma polledBefore_trans (t₁ t₂ t₃ : RampTransaction) (h₁ : Rails.polledBefore t₁ t₂ = true)
    (h₂ : Rails.polledBefore t₂ t₃ = true) : Rails.polledBefore t₁ t₃ = true := by
  unfold Rails.polledBefore at *
  generalize t₁.lastPolledAt = polled₁ at *
  generalize t₂.lastPolledAt = polled₂ at *
  generalize t₃.lastPolledAt = polled₃ at *
  cases polled₁ with
  | none => rfl
  | some at₁ =>
    cases polled₂ with
    | none => cases h₁
    | some at₂ =>
      cases polled₃ with
      | none => cases h₂
      | some at₃ => exact decide_eq_true ((of_decide_eq_true h₁).trans (of_decide_eq_true h₂))

lemma polledBefore_total (t₁ t₂ : RampTransaction) :
    (Rails.polledBefore t₁ t₂ || Rails.polledBefore t₂ t₁) = true := by
  unfold Rails.polledBefore
  cases t₁.lastPolledAt with
  | none => rfl
  | some at₁ =>
    cases t₂.lastPolledAt with
    | none => rfl
    | some at₂ =>
      rw [Bool.or_eq_true, decide_eq_true_eq, decide_eq_true_eq]
      exact le_total at₁ at₂

lemma perm_inOrder (l : List RampTransaction) : (inOrder l).Perm l := List.perm_insertionSort _ l

lemma pairwise_inOrder (l : List RampTransaction) :
    (inOrder l).Pairwise fun t t' => Rails.polledBefore t t' = true := by
  have : Std.Total fun t t' => Rails.polledBefore t t' = true := ⟨fun t t' => by
    have htotal := polledBefore_total t t'
    rwa [Bool.or_eq_true] at htotal⟩
  have : IsTrans _ fun t t' => Rails.polledBefore t t' = true := ⟨polledBefore_trans⟩
  exact List.pairwise_insertionSort _ l

/-- The provider has no challenge for one account, and every transfer is pending. -/
def rejecting (op : Op) (s : Rails) : Oracle :=
  { oracle s with
    challenge := if op = .fetchChallenge "rejected" then
        { status := 403, body := .error (.error "forbidden") }
      else (oracle s).challenge
    transaction := { status := 200, body := .ok { status := "pending_anchor" } }
    order := match op with
      | .findPending cutoff => inOrder (s.ramps.filter (Rails.isPending cutoff))
      | _ => [] }

/-- The state 30 seconds later. -/
def later (s : Rails) : Rails := { s with clock := s.clock + 30000 }

/-- The ramps that are refreshed at that time. -/
def polled (s : Rails) : List RampTransaction := (inOrder (eligible s.clock s)).take 20

/-- The next tick. -/
def ticked (s : Rails) : Tick × Rails :=
  let passes := Async.playPasses (answeringBy rejecting)
    (fun ramp : RampTransaction => refreshStatus accounts ramp.id) (polled (later s)) (later s)
  (⟨(later s).clock, ((reconcilePending accounts).play (answeringBy rejecting) (later s)).1, passes.1⟩,
    passes.2)

lemma foremost_polled (s : Rails) : Foremost s.clock s (polled s) :=
  ⟨_, perm_inOrder _, pairwise_inOrder _, rfl⟩

lemma answeringBy_findPending (s : Rails) :
    answeringBy rejecting (.findPending (s.clock - maxAgeMs)) s = (.ok (polled s), true, s) := by
  have hanswer : Rails.answer (rejecting (.findPending (s.clock - maxAgeMs)) s)
      (.findPending (s.clock - maxAgeMs)) s = some (polled s, s) :=
    if_pos ⟨perm_inOrder _, pairwise_inOrder _⟩
  rw [answeringBy, hanswer]

lemma play_reconcilePending (s : Rails) :
    ((reconcilePending accounts).play (answeringBy rejecting) s).2 = (.ok (),
      (Async.playPasses (answeringBy rejecting)
        (fun ramp : RampTransaction => refreshStatus accounts ramp.id) (polled s) s).2) := by
  have hnow : (call .now).play (answeringBy rejecting) s =
      ([⟨.now, .ok s.clock, true, s, s⟩], .ok s.clock, s) := rfl
  have hfind : ((call (.findPending (s.clock - maxAgeMs))).play (answeringBy rejecting) s).2 =
      (.ok (polled s), s) := by
    change ((answeringBy rejecting _ s).1, (answeringBy rejecting _ s).2.2) = _
    rw [answeringBy_findPending]
  rw [reconcilePending, Async.play_bind_of_ok (congrArg (·.2.1) hnow), hnow]
  dsimp only
  rw [Async.play_bind_of_ok (congrArg (·.1) hfind), congrArg (·.2) hfind, Async.play_forM_attempt]

lemma step_ticked (s : Rails) : (ticking accounts).Step s (ticked s).1 (ticked s).2 := by
  have hother (s : Rails) : Rails.Other s s := ⟨rfl, rfl, List.Subset.refl _, le_rfl⟩
  have hran := ran_answeringBy rejecting (reconcilePending accounts) (later s)
  rw [play_reconcilePending] at hran
  refine ⟨later s, ⟨rfl, rfl, List.Subset.refl _, Nat.le_add_right _ _⟩,
    Nat.lt_add_of_pos_right (by decide), hran, rfl, later s, polled (later s), rfl, le_rfl,
    foremost_polled (later s), ?_⟩
  exact Async.passes_play _ _ (goes_answeringBy rejecting) hother

/-- A ramp that waits for the provider. -/
def waitingRamp (id userStellarAddress : String) (lastPolledAt : Option ℕ) : RampTransaction :=
  { publicId := id, userId := "customer", provider := "MONEYGRAM", type := .ONRAMP
    status := .PENDING_ANCHOR, userStellarAddress, assetCode := "USDC", amountIn := none, id
    providerTxId := some id, lastPolledAt, createdAt := 0 }

def ids (letter : Char) (n : ℕ) : List String :=
  (List.range n).map fun i => String.ofList (List.replicate (i + 1) letter)

/-- Ramps of the account that is rejected, and others, which were polled later. -/
def crowd (n k : ℕ) : Rails where
  ramps := (ids 'r' n).map (waitingRamp · "rejected" none) ++
    (ids 'w' k).map (waitingRamp · "address" (some 0))

/-- The ramps of the account that is rejected. -/
def rejected (n : ℕ) : Finset String := (ids 'r' n).toFinset

lemma init_crowd {n k : ℕ} (hunique : ((crowd n k).ramps.map (·.id)).Nodup)
    (hpast : ∀ t ∈ (crowd n k).ramps, ∀ polledAt ∈ t.lastPolledAt, polledAt ≤ 0) :
    (ticking accounts).Init (crowd n k) :=
  ⟨hunique, hpast⟩

def move (s : Rails) : Move Rails Tick := ⟨s, (ticked s).1, (ticked s).2⟩

/-- A tick of which all can be computed. -/
lemma steady_move {E : List String} {F : Finset String} {s : Rails}
    (heligible : (Ramps.eligible (later s).clock s).map (·.id) = E)
    (hpresent : ∀ t ∈ Ramps.eligible (later s).clock s, given t.providerTxId ≠ none)
    (hsucceeds : ∀ v ∈ (ticked s).1.visits, v.item.id ∉ F → v.result.isOk = true) :
    Steady E F (move s) :=
  ⟨heligible, hpresent, hsucceeds⟩

def second (n k : ℕ) : Rails := (ticked (crowd n k)).2

lemma run_crowd (n k : ℕ) : (ticking accounts).Run (crowd n k)
    [move (crowd n k), move (second n k)] (ticked (second n k)).2 :=
  (System.Run.single (step_ticked (crowd n k))).snoc (step_ticked (second n k))

end PlayedRamps

/-- Of 21 ramps three fail, and come first in both ticks; all of them are refreshed. -/
theorem fair_of_room_of_three :
    Fair (PlayedRamps.ids 'r' 3 ++ PlayedRamps.ids 'w' 18)
      [PlayedRamps.move (PlayedRamps.crowd 3 18), PlayedRamps.move (PlayedRamps.second 3 18)] := by
  refine fair_of_room (F := PlayedRamps.rejected 3)
    (PlayedRamps.init_crowd (by decide +kernel) (by decide +kernel)) (PlayedRamps.run_crowd 3 18) ?_ rfl
    (by decide +kernel)
  intro m hm
  simp only [List.mem_cons, List.not_mem_nil, or_false] at hm
  rcases hm with rfl | rfl
  · exact PlayedRamps.steady_move (by decide +kernel) (by decide +kernel) (by decide +kernel)
  · exact PlayedRamps.steady_move (by decide +kernel) (by decide +kernel) (by decide +kernel)

/-- Of 21 ramps the 20 that fail take up all places in both ticks. -/
theorem rejected_accounts_starve : ∃ s s' tr, (ticking PlayedRamps.accounts).Init s ∧
    (ticking PlayedRamps.accounts).Run s tr s' ∧
    (∀ m ∈ tr, Steady (PlayedRamps.ids 'r' 20 ++ PlayedRamps.ids 'w' 1) (PlayedRamps.rejected 20) m ∧
      ∀ v ∈ m.label.visits, v.item.id ∈ PlayedRamps.rejected 20 → v.result.isOk = false) ∧
    tr.length = ((PlayedRamps.ids 'r' 20 ++ PlayedRamps.ids 'w' 1).length + 19) / 20 ∧
    ¬Fair (PlayedRamps.ids 'r' 20 ++ PlayedRamps.ids 'w' 1) tr := by
  refine ⟨_, _, _, PlayedRamps.init_crowd (by decide +kernel) (by decide +kernel),
    PlayedRamps.run_crowd 20 1, fun m hm => ?_, rfl, fun hfair => ?_⟩
  · simp only [List.mem_cons, List.not_mem_nil, or_false] at hm
    rcases hm with rfl | rfl
    · exact ⟨PlayedRamps.steady_move (by decide +kernel) (by decide +kernel) (by decide +kernel),
        by decide +kernel⟩
    · exact ⟨PlayedRamps.steady_move (by decide +kernel) (by decide +kernel) (by decide +kernel),
        by decide +kernel⟩
  · have hleft : ∀ tick ∈ [(PlayedRamps.move (PlayedRamps.crowd 20 1)).label,
        (PlayedRamps.move (PlayedRamps.second 20 1)).label], "w" ∉ tick.called := by
      decide +kernel
    obtain ⟨m, hm, hcalled⟩ := hfair "w" (by decide)
    simp only [List.mem_cons, List.not_mem_nil, or_false] at hm
    rcases hm with rfl | rfl
    · exact hleft _ (by simp) hcalled
    · exact hleft _ (by simp) hcalled

end PayEra.Ramps
