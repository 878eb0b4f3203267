import PayEra.Api.Answers
import PayEra.Api.Playback

/-!
# The merchant is paid at most once

Neither the claim of a tick nor the status column excludes two runs of one transaction. The guard is
the chain: a run that has got past `createPayment` has created the payment's record, and there is one
record for each id. The ghost state of a thread is the permission to pay that it got there, and gives
up when it asks for the payout.
-/

namespace PayEra.Api

open Async (Program Safe Discipline upon safe_pure safe_bind safe_attempt safe_perform safe_forM)
open Async.Program

/-! ### The permission to pay -/

/-- How often a payout for a transaction was asked for, whatever the answers were. -/
def payoutCalls (id : String) (w : World) : ℕ := w.calls.countP fun c => c.1.op.isPayout id

/-- A permission is never held twice, nor held after it was used, nor without a record on chain. -/
def PaidOnce (w : World) (f : Multiset (Option String)) : Prop :=
  ∀ id, payoutCalls id w + f.count (some id) ≤ if (w.state.payments id).isSome then 1 else 0

def permission : Discipline World Request Request.Res String (Option String) where
  env := env
  inv := PaidOnce
  link ℓ c := ∀ id, c.op.isPayout id → ℓ = some id
  allowed _ _ _ _ := True
  halt _ := True

/-! ### Single calls -/

lemma payoutCalls_env {c : Request} {w w' : World} {r : Except String c.Res} (h : env c w r w')
    (id : String) :
    payoutCalls id w' = payoutCalls id w + if c.op.isPayout id then 1 else 0 := by
  rw [payoutCalls, h.1, List.countP_append, List.countP_singleton]
  rfl

/-- Calls that neither create a payment on chain nor pay it out. -/
def Op.free : Op → Prop
  | .createPayment _ | .initiateUpiPayout _ => False
  | _ => True

/-- A free call, or one that fails to be a payout, keeps every permission. -/
lemma PaidOnce.env {c : Request} {w w' : World} {r : Except String c.Res}
    {f : Multiset (Option String)} (h : PaidOnce w f) (henv : env c w r w')
    (hc : ∀ id, c.op.isPayout id = false) : PaidOnce w' f := by
  intro id
  rw [payoutCalls_env henv, hc id]
  exact (h id).trans (bound_mono (env_paymentsGrow henv) id)

lemma Op.free.isPayout {op : Op} (h : op.free) (id : String) : op.isPayout id = false := by
  cases op with
  | initiateUpiPayout p => exact h.elim
  | _ => rfl

/-- A class of calls with neither of the two. -/
lemma Op.free_of {P : Op → Prop} {op : Op} (hcreate : ∀ p, ¬P (.createPayment p))
    (hpay : ∀ p, ¬P (.initiateUpiPayout p)) (h : P op) : op.free := by
  cases op with
  | createPayment p => exact hcreate p h
  | initiateUpiPayout p => exact hpay p h
  | _ => trivial

lemma Op.plain.free {id : String} {op : Op} (h : op.plain id) : op.free :=
  Op.free_of (fun _ h => h) (fun _ h => h) h

lemma Op.closing.free {id : String} {op : Op} (h : op.closing id) : op.free :=
  Op.free_of (fun _ h => h) (fun _ h => h) h

lemma Op.failing.free {id : String} {op : Op} (h : op.failing id) : op.free :=
  Op.free_of (fun _ h => h) (fun _ h => h) h

lemma Op.ticking.free {op : Op} (h : op.ticking) : op.free :=
  Op.free_of (fun _ h => h) (fun _ h => h) h

lemma Op.polling.free {op : Op} (h : op.polling) : op.free :=
  Op.free_of (fun _ h => h) (fun _ h => h) h

lemma Op.requested.free {op : Op} (h : op.requested) : op.free :=
  Op.free_of (fun _ h => h) (fun _ h => h) h

/-! ### Programs -/

abbrev Free (c : Request) : Prop := c.op.free

section Programs

variable {α : Type} {js : Js} {tx : Transaction} {ℓ : Option String} {p : Service α}
  {Q : Except String α → Option String → Prop}

/-- A program of free calls keeps the permission it starts with. -/
lemma safe_of_free (hp : p.All Free) (hQ : ∀ r, Q r ℓ) : Safe permission p ℓ Q := by
  refine Safe.of_all hp hQ fun c hc => ⟨fun id h => ?_, ?_⟩
  · rw [hc.isPayout] at h
    exact absurd h Bool.false_ne_true
  intro w f r w' hinv _ henv
  exact hinv.env henv hc.isPayout

/-- No postcondition. -/
abbrev anyhow {α : Type} : Except String α → Option String → Prop :=
  upon (fun _ _ => True) fun _ => True

lemma anyhow_intro (r : Except String α) : anyhow r ℓ := by
  cases r with
  | ok a => trivial
  | error e => trivial

lemma safe_free (hp : p.All Free) : Safe permission p ℓ anyhow :=
  safe_of_free hp anyhow_intro

/-- A program of free calls passes the permission on. -/
lemma safe_keep (hp : p.All Free) :
    Safe permission p ℓ (upon (fun _ ℓ' => ℓ' = ℓ) fun _ => True) := by
  refine safe_of_free hp fun r => ?_
  cases r with
  | ok a => rfl
  | error e => trivial

lemma free_of {source : Source} {P : Op → Prop} (hP : ∀ op, P op → op.free)
    (hp : p.All (Request.By source P)) : p.All Free :=
  hp.mono fun _ hc => hP _ hc.2

lemma free_of_plain {id : String} (hp : p.All (Plain id)) : p.All Free :=
  free_of (fun _ => Op.plain.free) hp

lemma free_call {source : Source} {op : Op} (h : op.free) : (call source op).All Free :=
  all_perform h

namespace Processor

lemma free_complete {stellar : StellarResult} {attempt : ℕ} {rewardResult : RewardResult} :
    (complete tx stellar attempt rewardResult).All Free :=
  free_of (fun _ => Op.closing.free) closing_complete

lemma free_abort {hash : Option String} {message : String} : (abort tx hash message).All Free :=
  free_of (fun _ => Op.failing.free) failing_abort

lemma free_giveUp {message : String} : (giveUp tx message).All Free :=
  free_of (fun _ => Op.failing.free) failing_giveUp

/-! ### Getting the permission and using it -/

/-- Only one run gets past `createPayment`: it had no record before, so nobody else has one. -/
lemma safe_createPayment {p : CreatePayment} (hp : p.paymentId = tx.id)
    {Q : Except String String → Option String → Prop} (hok : ∀ hash, Q (.ok hash) (some tx.id))
    (herr : ∀ e, Q (.error e) ℓ) :
    Safe permission (call (.run tx.id) (.createPayment p)) ℓ Q := by
  refine safe_perform (fun id h => absurd h Bool.false_ne_true) ?_
  intro w f r w' hinv _ henv
  cases r with
  | error e => exact ⟨ℓ, hinv.env henv fun _ => rfl, herr e⟩
  | ok hash =>
    refine ⟨some tx.id, ?_, hok hash⟩
    obtain ⟨hnew, hrecord⟩ := env_createPayment henv
    rw [hp] at hnew hrecord
    intro id
    have hbefore := hinv id
    have hcalls : payoutCalls id w' = payoutCalls id w := payoutCalls_env henv id
    have hdrop : f.count (some id) ≤ (ℓ ::ₘ f).count (some id) := Multiset.count_le_count_cons ..
    rw [hcalls, Multiset.count_cons]
    by_cases hid : id = tx.id
    · subst hid
      rw [hnew] at hbefore
      rw [if_pos rfl, if_pos hrecord]
      simp only [Option.isSome_none, Bool.false_eq_true, if_false] at hbefore
      omega
    · have hne : ¬some id = some tx.id := fun h => hid (Option.some.inj h)
      rw [if_neg hne]
      have hbound := bound_mono (env_paymentsGrow henv) id
      omega

/-- The payout uses the permission up, whether or not it is answered. -/
lemma safe_initiateUpiPayout {vpa name : String}
    {Q : Except String PayoutResult → Option String → Prop} (hQ : ∀ r, Q r none) :
    Safe permission (call (.run tx.id) (.initiateUpiPayout (payoutRequest tx vpa name)))
      (some tx.id) Q := by
  refine safe_perform (fun id h => ?_) ?_
  · by_cases hid : id = tx.id
    · rw [hid]
    · exact absurd ((isPayout_payoutRequest hid).symm.trans h) Bool.false_ne_true
  intro w f r w' hinv _ henv
  refine ⟨none, ?_, hQ r⟩
  intro id
  have hbefore := (hinv id).trans (bound_mono (env_paymentsGrow henv) id)
  rw [payoutCalls_env henv, Multiset.count_cons_of_ne (Option.some_ne_none id)]
  by_cases hid : id = tx.id
  · subst hid
    rw [Multiset.count_cons_self] at hbefore
    refine le_trans ?_ hbefore
    split_ifs <;> omega
  · have hne : ¬some id = some tx.id := fun h => hid (Option.some.inj h)
    rw [Multiset.count_cons_of_ne hne] at hbefore
    rw [isPayout_payoutRequest hid]
    simpa using hbefore

/-! ### The run of a transaction -/

lemma safe_route :
    Safe permission (route js tx) ℓ (upon (fun _ ℓ' => ℓ' = some tx.id) fun _ => True) := by
  refine safe_bind (safe_free (free_of_plain plain_prepare)) fun lookup ℓ₁ _ => ?_
  refine safe_bind (R := fun _ ℓ' => ℓ' = some tx.id)
    (safe_createPayment rfl (fun hash => rfl) fun e => trivial) fun hash ℓ₂ h => ?_
  obtain rfl := h
  refine safe_bind (safe_keep (free_of_plain plain_quote)) fun _ ℓ₃ h => ?_
  obtain rfl := h
  exact safe_keep (free_of_plain plain_convert)

lemma safe_payMerchant : Safe permission (payMerchant tx) (some tx.id) anyhow := by
  refine safe_bind (safe_keep (free_call trivial)) fun merchant ℓ h => ?_
  obtain rfl := h
  cases merchant with
  | none => trivial
  | some merchant =>
    dsimp only
    cases truthy merchant.defaultUpiVpa with
    | none => trivial
    | some vpa =>
      refine safe_bind (safe_initiateUpiPayout anyhow_intro) fun result ℓ _ => ?_
      exact safe_free (all_bind (free_call trivial) fun _ => all_pure _)

lemma safe_settle {stellar : StellarResult} {attempt : ℕ} :
    Safe permission (settle tx stellar attempt) (some tx.id) anyhow := by
  refine safe_bind (safe_keep (free_of_plain plain_markSettled)) fun _ ℓ h => ?_
  obtain rfl := h
  refine safe_bind safe_payMerchant fun _ ℓ _ => ?_
  exact safe_free (all_bind (free_of_plain plain_issueStarRewards) fun _ => free_complete)

lemma safe_processTransaction {attempt : ℕ} :
    Safe permission (processTransaction js tx attempt) ℓ anyhow := by
  refine safe_attempt safe_route (fun stellar ℓ h => ?_) fun message ℓ _ => safe_free free_abort
  obtain rfl := h
  refine safe_attempt safe_settle (fun _ ℓ _ => safe_pure trivial) fun message ℓ _ => ?_
  exact safe_free free_abort

/-- A retry starts without the permission, like the first attempt. -/
lemma safe_retryFrom {remaining : ℕ} : Safe permission (retryFrom js tx remaining) ℓ anyhow :=
  safe_attempts (I := fun _ => True) (fun _ _ _ => safe_processTransaction)
    (fun _ _ _ => safe_free free_giveUp) (fun _ _ _ => safe_free (free_call trivial)) trivial

lemma safe_handlePendingTransactions : Safe permission (handlePendingTransactions js) ℓ anyhow := by
  have htick := safe_ticks js (D := permission) (I := fun _ => True) (R := fun _ _ => True)
    (E := fun _ => True) (ℓ := ℓ) (fun hop _ => safe_free (free_call hop.free))
    (fun _ => safe_free (free_call trivial)) (fun tx _ _ => safe_retryFrom) trivial
  exact htick.weaken (fun _ _ _ => trivial) fun _ h => h

end Processor

/-! ### The pipeline -/

lemma safe_starts {w : World} {p : Service Unit} (h : Starts js w p) :
    Safe permission p ℓ anyhow := by
  obtain rfl | rfl | hrequest := h.job_or_requested
  · exact Processor.safe_handlePendingTransactions
  · exact safe_free (free_of (fun _ => Op.polling.free) Processor.polling_handlePendingSettlements)
  · exact safe_free (free_of (fun _ => Op.requested.free) hrequest)

lemma PaidOnce.started {w : World} (h : Started w) : PaidOnce w 0 := by
  intro id
  rw [payoutCalls, h.calls]
  exact Nat.zero_le _

/-- Nobody else takes a record off the chain. -/
lemma PaidOnce.other {w w' : World} {f : Multiset (Option String)} (h : PaidOnce w f)
    (hcalls : w'.calls = w.calls) (hother : Backend.Other w.state w'.state) : PaidOnce w' f := by
  intro id
  rw [payoutCalls, hcalls]
  exact (h id).trans (bound_mono hother.paymentsGrow id)

theorem permission_governs {cond : Condition} : Async.Governs permission (setting js cond) where
  env _ _ _ _ h := h
  init _ h := .started h
  start w p h := by
    refine ⟨none, (safe_starts h).mono fun _ _ _ => trivial, fun f hf id => ?_⟩
    rw [Multiset.count_cons_of_ne (Option.some_ne_none id)]
    exact hf id
  world w w' f h hf := hf.other h.1 h.2
  cond _ _ _ _ _ _ _ := trivial

/-- How often a payout for a transaction was asked for or is being asked for. -/
def payoutsAsked (id : String) (s : Async.Pool World Request Request.Res String) : ℕ :=
  payoutCalls id s.world + s.threads.countP fun p => p.next.any fun c => c.op.isPayout id

/-- **At most one payout.** In whatever order ticks, polls and requests interleave, whatever fails
and however often a run is retried, the provider is asked at most once for the payout of a
transaction. -/
theorem payout_at_most_once {s : Async.Pool World Request Request.Res String}
    (h : (pipeline js anyAnswer).Reachable s) (id : String) : payoutsAsked id s ≤ 1 := by
  obtain ⟨f, hrel, hinv⟩ := Async.reachable_sound permission_governs h
  have hpaid := hinv id
  have hnext := Async.countP_next_le (D := permission) (P := fun c => c.op.isPayout id)
    (G := fun ℓ => decide (ℓ = some id)) (fun ℓ c hlink hc => decide_eq_true (hlink id hc)) hrel
  have hghost : f.countP (fun ℓ => decide (ℓ = some id) = true) = f.count (some id) := by
    simp only [decide_eq_true_eq, Multiset.count]
    exact Multiset.countP_congr rfl fun ℓ _ => propext eq_comm
  rw [payoutsAsked]
  split_ifs at hpaid <;> omega

end Programs

/-- The shop's order is paid out once. -/
theorem payout_of_order : ∃ s, (pipeline OneOrder.js anyAnswer).Reachable s ∧
    payoutCalls OneOrder.orderId s.world = 1 ∧ payoutsAsked OneOrder.orderId s ≤ 1 := by
  obtain ⟨threads, hreach⟩ := OneOrder.processed_reachable
  have hpaid : payoutCalls OneOrder.orderId (OneOrder.processing OneOrder.order 50).2 = 1 := by
    decide +kernel
  exact ⟨_, hreach, hpaid, payout_at_most_once hreach OneOrder.orderId⟩

end PayEra.Api
