import PayEra.Ramps.Fairness

/-!
# Reading a ramp

The route that reads a ramp is announced as a refresh from the provider. It returns the row as it is
stored, and calls nobody. Only the poller asks the provider, and it leaves a ramp alone that is older
than a day: from then on nothing changes the ramp, however often it is opened.
-/

namespace PayEra.Ramps

open Transition (System Move)
open Async (Program)
open Async.Program
open MoneyGramProvider RampsService

/-- The provider's status `raw` is returned, and it is stored for the ramp `id`. -/
def ReadsThrough (raw id : String) (r : Except Thrown RampTransaction) (s' : Rails) : Prop :=
  (∃ t, r = .ok t ∧ t.status = mapStatus raw) ∧ s'.status id = some (mapStatus raw)

/-! ### What the service is asked -/

/-- The routes and the schedule, with what comes of a request. -/
inductive Request where
  | initiateOnRamp (publicId : String) (args : InitiateArgs) (r : Except Thrown RampTransaction)
  | initiateOffRamp (publicId : String) (args : InitiateArgs) (r : Except Thrown RampTransaction)
  | getRamp (userId publicId : String) (r : Except Thrown RampTransaction)
  | reconcilePending (r : Except Thrown Unit)

def Request.Goes (anchor : Anchor) (tr : List Attempted) (s s' : Rails) : Request → Prop
  | .initiateOnRamp publicId args r =>
    Ran (RampsService.initiateOnRamp anchor publicId args) s tr r s'
  | .initiateOffRamp publicId args r =>
    Ran (RampsService.initiateOffRamp anchor publicId args) s tr r s'
  | .getRamp userId publicId r => Ran (RampsService.getRamp userId publicId) s tr r s'
  | .reconcilePending r => Ran (RampsService.reconcilePending anchor) s tr r s'

/-- The unique columns. -/
structure Rails.Keyed (s : Rails) : Prop where
  ids : (s.ramps.map (·.id)).Nodup
  publicIds : (s.ramps.map (·.publicId)).Nodup

/-- The service is asked one thing after another. -/
def service (anchor : Anchor) : System Rails Request where
  Init := Rails.Keyed
  Step s q s' := ∃ s₁ tr, Rails.Other s s₁ ∧ q.Goes anchor tr s₁ s'

section Requests

variable {α : Type} {p : Service α} {anchor : Anchor} {s s' : Rails} {tr : List Attempted}
  {q : Request} {i : String} {t : RampTransaction}

/-! ### Unique columns -/

lemma Rails.Keyed.congr (h : s.Keyed) (hramps : s'.ramps = s.ramps) : s'.Keyed where
  ids := by rw [hramps]; exact h.ids
  publicIds := by rw [hramps]; exact h.publicIds

lemma Rails.Keyed.returns {op : Op} {v : op.Res} (h : s.Keyed) (hreturns : Returns op s v s') :
    s'.Keyed := by
  by_cases hop : ∀ data, op ≠ .createRamp data
  · refine ⟨?_, ?_⟩
    · rw [column_returns (fun _ _ => rfl) hreturns hop]
      exact h.ids
    · rw [column_returns (fun _ _ => rfl) hreturns hop]
      exact h.publicIds
  · obtain ⟨data, rfl⟩ := not_forall_not.mp hop
    obtain ⟨o, ho⟩ := hreturns
    simp only [Rails.answer] at ho
    split_ifs at ho with hfresh
    cases ho
    rw [List.any_eq_true] at hfresh
    refine ⟨?_, ?_⟩
    · rw [List.map_append, List.nodup_append]
      refine ⟨h.ids, List.nodup_singleton _, fun id hid id' hid' heq => ?_⟩
      obtain ⟨t, ht, rfl⟩ := List.mem_map.mp hid
      obtain rfl := List.mem_singleton.mp hid'
      exact hfresh ⟨t, ht, decide_eq_true (.inl heq)⟩
    · rw [List.map_append, List.nodup_append]
      refine ⟨h.publicIds, List.nodup_singleton _, fun id hid id' hid' heq => ?_⟩
      obtain ⟨t, ht, rfl⟩ := List.mem_map.mp hid
      obtain rfl := List.mem_singleton.mp hid'
      exact hfresh ⟨t, ht, decide_eq_true (.inr heq)⟩

lemma keyed_of_ran {r : Except Thrown α} (h : Ran p s tr r s') (hkeyed : s.Keyed) : s'.Keyed := by
  refine h.keeps (fun a _ hgoes hfound => ?_) (fun _ _ hother h => h.congr hother.ramps) hkeyed
  rcases hgoes.left with heq | ⟨-, v, hv⟩
  · rw [heq]
    exact hfound
  · exact hfound.returns hv

lemma keyed_step (h : s.Keyed) (hstep : (service anchor).Step s q s') : s'.Keyed := by
  obtain ⟨s₁, tr, hother, hgoes⟩ := hstep
  have h₁ := h.congr hother.ramps
  cases q with
  | initiateOnRamp publicId args r => exact keyed_of_ran hgoes h₁
  | initiateOffRamp publicId args r => exact keyed_of_ran hgoes h₁
  | getRamp userId publicId r => exact keyed_of_ran hgoes h₁
  | reconcilePending r => exact keyed_of_ran hgoes h₁

lemma keyed_run {run : List (Move Rails Request)} (hinit : (service anchor).Init s)
    (hrun : (service anchor).Run s run s') : s'.Keyed := by
  induction hrun with
  | nil => exact hinit
  | snoc hrun hstep ih => exact keyed_step ih hstep

/-- The row is found by its public identifier and its owner. -/
lemma owned_of_mem (hkeyed : s.Keyed) (ht : t ∈ s.ramps) : s.owned t.publicId t.userId = some t := by
  cases hfound : s.owned t.publicId t.userId with
  | none =>
    rw [Rails.owned, List.find?_eq_none] at hfound
    exact absurd (decide_eq_true ⟨rfl, rfl⟩) (hfound t ht)
  | some t' =>
    have hmem : t' ∈ s.ramps := List.mem_of_find?_eq_some hfound
    have hfits := List.find?_some hfound
    rw [decide_eq_true_eq] at hfits
    rw [List.inj_on_of_nodup_map hkeyed.publicIds hmem ht hfits.1]

/-! ### One read -/

/-- A read that returns gives the row as it was stored, and stores nothing. -/
lemma getRamp_ok {userId publicId : String} (h : Ran (getRamp userId publicId) s tr (.ok t) s') :
    s.owned publicId userId = some t ∧ s'.ramps = s.ramps := by
  rcases h.of_perform_bind with ⟨found, s₁, s₂, tr, -, hfind, hother, hrest⟩ | ⟨_, _, _, heq, -⟩
  · obtain ⟨o, ho⟩ := hfind
    obtain ⟨rfl, rfl⟩ := Prod.mk.inj (Option.some.inj ho)
    cases howned : s.owned publicId userId with
    | none =>
      rw [howned] at hrest
      obtain ⟨-, heq, -⟩ := hrest.of_done
      cases heq
    | some t' =>
      rw [howned] at hrest
      obtain ⟨-, heq, rfl⟩ := hrest.of_done
      obtain rfl := Except.ok.inj heq
      exact ⟨rfl, hother.ramps⟩
  · cases heq

lemma silent_getRamp {userId publicId : String} :
    (getRamp userId publicId).All fun op => op.writes = false := by
  refine all_bind (all_perform rfl) fun found => ?_
  cases found with
  | none => exact all_throw _
  | some t => exact all_pure _

/-- The provider's status is returned and stored if and only if it was stored before. -/
lemma reads_through_of_mem {raw : String} {r : Except Thrown RampTransaction} (hkeyed : s.Keyed)
    (ht : t ∈ s.ramps) (hstep : (service anchor).Step s (.getRamp t.userId t.publicId r) s')
    (hok : r.isOk) : ReadsThrough raw t.id r s' ↔ t.status = mapStatus raw := by
  obtain ⟨s₁, tr, hother, hran⟩ := hstep
  cases r with
  | error e => cases hok
  | ok t' =>
    obtain ⟨howned, hramps⟩ := getRamp_ok hran
    rw [owned_of_mem (hkeyed.congr hother.ramps) (by rwa [hother.ramps])] at howned
    obtain rfl := Option.some.inj howned
    have hrow : s'.ramp t.id = some t :=
      (ramp_congr (hramps.trans hother.ramps) t.id).trans (ramp_of_mem hkeyed.ids ht)
    constructor
    · rintro ⟨⟨t', heq, hstatus⟩, -⟩
      obtain rfl := Except.ok.inj heq
      exact hstatus
    · intro hstatus
      refine ⟨⟨t, rfl, hstatus⟩, ?_⟩
      rw [Rails.status, hrow, Option.map_some, hstatus]

/-! ### Ramps that are older than a day -/

/-- Starting a ramp writes no other row. -/
lemma initiate_spares {publicId : String} {type : RampType} {args : InitiateArgs}
    {r : Except Thrown RampTransaction}
    (h : Ran (initiate publicId type (moneyGramProvider anchor) args) s tr r s')
    (ht : s.ramp i = some t) : s'.ramp i = some t := by
  rcases h.of_bind with ⟨ramp, s₁, tr₁, tr₂, rfl, hcreate, hrest⟩ | ⟨e, rfl, hcreate⟩
  · have ht₁ := ramp_of_silent (all_perform rfl) hcreate ht
    obtain ⟨took, s₂, rfl, ⟨-, hreturns⟩, -⟩ := hcreate.of_perform
    have hi : ramp.id ≠ i := by
      rintro rfl
      rw [(returns_create hreturns).1] at ht
      cases ht
    have hwrite (data : RampTransactionData) :
        (call (.updateRamp ramp.id data)).All (Op.Spares i) := by
      refine all_perform fun data' heq => ?_
      exact hi (Op.updateRamp.inj heq).1
    have hevent {status : Option RampStatus} {eventType source : String} {payload : Api.Metadata} :
        (appendEvent ramp.id status eventType source payload).All (Op.Spares i) :=
      silent_appendEvent.mono fun _ => Op.spares_of_writes
    refine ramp_of_ran ?_ hrest ht₁
    refine all_bind hevent fun _ => all_bind (all_attempt ?_) fun r => ?_
    · refine all_bind ((unwriting_openInteractive type args).mono
        fun _ => Op.spares_of_writes) fun result => ?_
      exact all_bind (hwrite _) fun _ => all_bind hevent fun _ => all_pure _
    · cases r with
      | ok updated => exact all_pure _
      | error err =>
        exact all_bind (all_bind (hwrite _) fun _ => hevent) fun _ => all_throw _
  · exact ramp_of_silent (all_perform rfl) hcreate ht

/-- The check of the user, the provider, and then the ramp. -/
lemma checked_spares {userId id : String} {start : FiatRampProvider → Service RampTransaction}
    {r : Except Thrown RampTransaction}
    (h : Ran (assertKycVerified userId >>= fun _ =>
      (Program.done (RampProviderRegistry.get (RAMP_PROVIDERS anchor) id) >>= start)) s tr r s')
    (hstart : ∀ {s₁ tr₁}, s₁.ramp i = some t → Ran (start (moneyGramProvider anchor)) s₁ tr₁ r s' →
      s'.ramp i = some t)
    (ht : s.ramp i = some t) : s'.ramp i = some t := by
  have hsilent : (assertKycVerified userId).All fun op => op.writes = false :=
    (outside_assertKycVerified userId).mono fun op hop => op.writes_of_outside hop.1
  rcases h.of_bind with ⟨_, s₁, tr₁, tr₂, rfl, h₁, h₂⟩ | ⟨e, rfl, h₁⟩
  · have ht₁ := ramp_of_silent hsilent h₁ ht
    rcases h₂.of_bind with ⟨provider, s₂, tr₃, tr₄, rfl, h₃, h₄⟩ | ⟨e, rfl, h₃⟩
    · obtain ⟨rfl, hget, rfl⟩ := h₃.of_done
      obtain rfl := provider_of_get hget.symm
      exact hstart ht₁ h₄
    · obtain ⟨rfl, -, rfl⟩ := h₃.of_done
      exact ht₁
  · exact ramp_of_silent hsilent h₁ ht

/-- The refreshes of a tick write no other row. -/
lemma visits_spare {l : List RampTransaction} {visits : List Visit}
    (h : Async.Passes Returns Total Rails.Other
      (fun ramp : RampTransaction => refreshStatus anchor ramp.id) l s visits s')
    (hl : ∀ ramp ∈ l, ramp.id ≠ i) (ht : s.ramp i = some t) : s'.ramp i = some t := by
  induction h with
  | nil => exact ht
  | cons hpass hrest ih =>
    refine ih (fun ramp hramp => hl ramp (List.mem_cons_of_mem _ hramp)) ?_
    exact refreshStatus_spares hpass (hl _ (List.mem_cons_self ..)).symm ht

/-- The poller leaves a ramp alone that is older than a day. -/
lemma reconcilePending_spares {r : Except Thrown Unit}
    (h : Ran (reconcilePending anchor) s tr r s') (hkeyed : s.Keyed) (ht : s.ramp i = some t)
    (hold : t.createdAt + maxAgeMs < s.clock) : s'.ramp i = some t := by
  rcases reconcilePending_cases h with ⟨-, tick, -, hnow, s₁, l, hramps, -, hforemost, hvisits⟩ | ⟨-, hkept⟩
  · refine visits_spare hvisits (fun ramp hramp heq => ?_) ((ramp_congr hramps i).trans ht)
    obtain ⟨hmem, hpending⟩ := List.mem_filter.mp (hforemost.eligible hramp)
    rw [hramps] at hmem
    have hrow := ramp_of_mem hkeyed.ids hmem
    rw [heq, ht] at hrow
    obtain rfl := Option.some.inj hrow
    obtain ⟨-, -, hyoung⟩ := of_decide_eq_true hpending
    omega
  · exact hkept i t ht

lemma clock_step (hstep : (service anchor).Step s q s') : s.clock ≤ s'.clock := by
  obtain ⟨s₁, tr, hother, hgoes⟩ := hstep
  refine hother.clock.trans ?_
  cases q with
  | initiateOnRamp publicId args r => exact clock_of_ran hgoes
  | initiateOffRamp publicId args r => exact clock_of_ran hgoes
  | getRamp userId publicId r => exact clock_of_ran hgoes
  | reconcilePending r => exact clock_of_ran hgoes

/-- Nothing that the service is asked changes a ramp that is older than a day. -/
lemma abandoned_step (hstep : (service anchor).Step s q s') (hkeyed : s.Keyed)
    (ht : s.ramp i = some t) (hold : t.createdAt + maxAgeMs < s.clock) : s'.ramp i = some t := by
  obtain ⟨s₁, tr, hother, hgoes⟩ := hstep
  rw [← ramp_congr hother.ramps i] at ht
  cases q with
  | initiateOnRamp publicId args r =>
    refine checked_spares hgoes (fun ht h => ?_) ht
    exact initiate_spares h ht
  | initiateOffRamp publicId args r =>
    refine checked_spares hgoes (fun ht h => ?_) ht
    simp only [moneyGramProvider, if_true] at h
    split at h
    · exact initiate_spares h ht
    · obtain ⟨-, -, rfl⟩ := h.of_done
      exact ht
  | getRamp userId publicId r => exact ramp_of_silent silent_getRamp hgoes ht
  | reconcilePending r =>
    exact reconcilePending_spares hgoes (hkeyed.congr hother.ramps) ht (hold.trans_le hother.clock)

lemma abandoned_run {run : List (Move Rails Request)} (hinit : (service anchor).Init s)
    (hrun : (service anchor).Run s run s') (ht : s.ramp i = some t)
    (hold : t.createdAt + maxAgeMs < s.clock) : s'.ramp i = some t ∧ s.clock ≤ s'.clock := by
  induction hrun with
  | nil => exact ⟨ht, le_rfl⟩
  | snoc hrun hstep ih =>
    obtain ⟨hrow, hle⟩ := ih
    refine ⟨?_, hle.trans (clock_step hstep)⟩
    exact abandoned_step hstep (keyed_run hinit hrun) hrow (hold.trans_le hle)

end Requests

/-- A read is read-through if and only if the row has the provider's status already; and once a ramp
is older than a day its row has the same status for ever. -/
theorem reads_through_iff {anchor : Anchor} {s s' : Rails} {run : List (Move Rails Request)}
    (hinit : (service anchor).Init s) (hrun : (service anchor).Run s run s') :
    (∀ m ∈ run, ∀ t ∈ m.pre.ramps, ∀ r, m.label = .getRamp t.userId t.publicId r → r.isOk → ∀ raw,
      ReadsThrough raw t.id r m.post ↔ t.status = mapStatus raw) ∧
    ∀ t ∈ s.ramps, t.createdAt + maxAgeMs < s.clock → t ∈ s'.ramps := by
  refine ⟨fun m hm t ht r hlabel hok raw => ?_, fun t ht hold => ?_⟩
  · obtain ⟨tr₁, tr₂, rfl, hbefore, hstep⟩ := hrun.split_of_mem hm
    rw [hlabel] at hstep
    exact reads_through_of_mem (keyed_run hinit hbefore) ht hstep hok
  · obtain ⟨hrow, -⟩ := abandoned_run hinit hrun (ramp_of_mem hinit.ids ht) hold
    exact List.mem_of_find?_eq_some hrow

/-! ### A transfer that is completed after a day -/

namespace PlayedRamps

/-- The ramp is older than a day. -/
def forgotten : Rails := { waiting with clock := maxAgeMs + 1 }

lemma keyed_forgotten : (service anchor).Init forgotten := ⟨by decide, by decide⟩

/-- The ramp is opened while the provider reports the status. -/
def opened (raw : String) : List Attempted × Except Thrown RampTransaction × Rails :=
  (getRamp "customer" "ONRAMP_1").play (answering raw) forgotten

lemma step_opened (raw : String) : (service anchor).Step forgotten
    (.getRamp "customer" "ONRAMP_1" (opened raw).2.1) (opened raw).2.2 :=
  ⟨forgotten, _, ⟨rfl, rfl, List.Subset.refl _, le_rfl⟩, ran_answeringBy _ _ _⟩

end PlayedRamps

/-- The provider's status is the one that is stored. -/
theorem reads_through_iff_of_pending : ∃ m : Move Rails Request,
    (service PlayedRamps.anchor).Run PlayedRamps.forgotten [m] m.post ∧
    ∃ t ∈ m.pre.ramps, ReadsThrough "pending_anchor" t.id (.ok t) m.post ∧ t ∈ m.post.ramps := by
  have hrun := System.Run.single (PlayedRamps.step_opened "pending_anchor")
  obtain ⟨hreads, hstays⟩ := reads_through_iff PlayedRamps.keyed_forgotten hrun
  refine ⟨_, hrun, _, List.mem_singleton_self _, ?_, hstays _ (List.mem_singleton_self _) (by decide)⟩
  exact (hreads _ (List.mem_singleton_self _) _ (List.mem_singleton_self _) _ rfl rfl _).mpr rfl

/-- The transfer is completed, and the ramp that is opened is returned and stored as pending. -/
theorem opened_ramp_stays_pending : ∃ (s s' : Rails) (t : RampTransaction),
    (service PlayedRamps.anchor).Init s ∧ t ∈ s.ramps ∧ ¬t.Idle ∧ t.createdAt + maxAgeMs < s.clock ∧
    (service PlayedRamps.anchor).Step s (.getRamp t.userId t.publicId (.ok t)) s' ∧
    (∃ tr s₁, Ran (refreshStatus PlayedRamps.anchor t.id) s tr (.ok (mapStatus "completed")) s₁) ∧
    ¬ReadsThrough "completed" t.id (.ok t) s' := by
  refine ⟨PlayedRamps.forgotten, _, _, PlayedRamps.keyed_forgotten, List.mem_singleton_self _, ?_,
    by decide, PlayedRamps.step_opened "completed", ?_, ?_⟩
  · rintro (hidle | hidle)
    · cases hidle
    · cases hidle
  · have hran := PlayedRamps.ran_answeringBy (fun _ s => { PlayedRamps.oracle s with
      transaction := { status := 200, body := .ok { status := "completed" } } })
      (refreshStatus PlayedRamps.anchor "ramp") PlayedRamps.forgotten
    have hcompleted : ((refreshStatus PlayedRamps.anchor "ramp").play
        (PlayedRamps.answering "completed") PlayedRamps.forgotten).2.1 = .ok (mapStatus "completed") := by
      decide +kernel
    rw [hcompleted] at hran
    exact ⟨_, _, hran⟩
  · rintro ⟨⟨t, heq, hstatus⟩, -⟩
    obtain rfl := Except.ok.inj heq
    cases hstatus

end PayEra.Ramps
