import PayEra.Api.Cancellation

/-!
# The row and the record on chain

A row is `COMPLETED` only after `completePayment` has returned, so its record is `Completed`. The
other two final statuses have no counterpart on chain: the API has no call that fails or cancels a
payment, and a record stays where the last accepted call has left it.

The ghost state of a thread is the transaction whose record it has completed.
-/

namespace PayEra.Api

open Async (Program Safe Discipline upon safe_pure safe_bind safe_attempt safe_perform safe_forM)
open Async.Program
open PaymentEngine (PaymentStatus Edge)
open Transition (Turn)

/-! ### What the API does on chain -/

/-- Edges that do not give a payment up. -/
def Advance (s s' : PaymentStatus) : Prop := Edge s s' ∧ s' ≠ .failed ∧ s' ≠ .cancelled

/-- The API creates records and moves them on. -/
abbrev Advances : Option PaymentStatus → Option PaymentStatus → Prop := Turn (· = .created) Advance

section Records

variable {b b' : Backend} {id : String}

lemma advances_of_move {i : String} {s s' : PaymentStatus} (hadvance : Advance s s')
    (h : b.movePayment i s s' = some b') : Advances (b.payments id) (b'.payments id) := by
  rw [Backend.movePayment] at h
  split_ifs at h with hs
  obtain rfl := Option.some.inj h
  show Advances (b.payments id) (Function.update b.payments i (some s') id)
  by_cases hid : id = i
  · subst hid
    rw [Function.update_self, hs]
    exact .change hadvance
  · rw [Function.update_of_ne hid]
    exact .same _

theorem answer_advances {op : Op} {o : Oracle} {v : op.Res}
    (h : Backend.answer o op b = some (v, b')) : Advances (b.payments id) (b'.payments id) := by
  cases op with
  | createPayment p =>
    obtain ⟨hnone, rfl⟩ := createPayment_answer h
    show Advances (b.payments id) (Function.update b.payments p.paymentId (some .created) id)
    by_cases hid : id = p.paymentId
    · subst hid
      rw [Function.update_self, hnone]
      exact .appear rfl
    · rw [Function.update_of_ne hid]
      exact .same _
  | quotePayment p =>
    simp only [Backend.answer, Option.map_eq_some_iff] at h
    obtain ⟨b₁, hb, heq⟩ := h
    cases heq
    exact advances_of_move ⟨.quote, by simp, by simp⟩ hb
  | markConverted i =>
    simp only [Backend.answer, Option.map_eq_some_iff] at h
    obtain ⟨b₁, hb, heq⟩ := h
    cases heq
    exact advances_of_move ⟨.convert, by simp, by simp⟩ hb
  | markSettled i =>
    simp only [Backend.answer, Option.map_eq_some_iff] at h
    obtain ⟨b₁, hb, heq⟩ := h
    cases heq
    exact advances_of_move ⟨.settle, by simp, by simp⟩ hb
  | completePayment i =>
    simp only [Backend.answer, Option.map_eq_some_iff] at h
    obtain ⟨b₁, hb, heq⟩ := h
    cases heq
    exact advances_of_move ⟨.complete, by simp, by simp⟩ hb
  | updateTransaction i data =>
    simp only [Backend.answer, Option.map_eq_some_iff] at h
    obtain ⟨t, -, heq⟩ := h
    cases heq
    exact .same _
  | uuid | createEvent _ | updateReward _ _ | createReward _ | createTransaction _
  | updateSettlement _ _ =>
    simp only [Backend.answer] at h
    split_ifs at h
    cases h
    exact .same _
  | _ =>
    cases h
    exact .same _

lemma env_advances {c : Request} {w w' : World} {r : Except String c.Res} (h : env c w r w') :
    Advances (w.state.payments id) (w'.state.payments id) := by
  rcases Async.faulty_state h with heq | ⟨v, o, hans⟩
  · rw [heq]
    exact .same _
  · exact answer_advances hans

/-- Nothing follows `Completed`. -/
lemma not_edge_completed {s : PaymentStatus} : ¬Edge .completed s := by
  intro h
  cases h with
  | fail h => exact h.1 rfl

lemma completed_env {c : Request} {w w' : World} {r : Except String c.Res} (h : env c w r w')
    (hw : w.state.payments id = some .completed) : w'.state.payments id = some .completed := by
  have hadvances : Advances (w.state.payments id) _ := env_advances h
  rw [hw] at hadvances
  generalize w'.state.payments id = s at hadvances
  cases hadvances with
  | same => rfl
  | change hadvance => exact absurd hadvance.1 not_edge_completed

lemma completed_other (h : Backend.Other b b') (hb : b.payments id = some .completed) :
    b'.payments id = some .completed := by
  obtain ⟨s, hs, rfl | hpath⟩ := h.payments id _ hb
  · exact hs
  · obtain ⟨s', hedge, -⟩ := Relation.TransGen.head'_iff.mp hpath
    exact absurd hedge not_edge_completed

end Records

/-! ### The discipline -/

structure Agreeing (w : World) (f : Multiset (Option String)) : Prop where
  distinct : w.state.Distinct
  completing : ∀ id, some id ∈ f → w.state.payments id = some .completed
  completed : ∀ id, w.state.status id = some .COMPLETED → w.state.payments id = some .completed

def agreeing : Discipline World Request Request.Res String (Option String) where
  env := env
  inv := Agreeing
  link ℓ c := c.Usual ∧ ∀ id, c.writes id .COMPLETED → ℓ = some id
  allowed _ _ _ _ := True
  halt _ := True

section Calls

variable {c : Request} {w w' : World} {r : Except String c.Res} {f : Multiset (Option String)}
  {ℓ ℓ' : Option String}

/-- Every call of a thread that completes rows after their records keeps the invariant. -/
lemma Agreeing.call (h : Agreeing w (ℓ ::ₘ f)) (hlink : agreeing.link ℓ c) (henv : env c w r w') :
    Agreeing w' (ℓ ::ₘ f) := by
  obtain ⟨husual, hwrites⟩ := hlink
  refine ⟨env_distinct henv h.distinct, fun id hid => completed_env henv (h.completing id hid),
    fun id hid => completed_env henv ?_⟩
  rcases env_status husual henv id with heq | hchange
  · exact h.completed id (heq.symm.trans hid)
  · rw [hid] at hchange
    generalize w.state.status id = s at hchange
    cases hchange with
    | run hc hdata =>
      have hℓ : ℓ = some id := hwrites id (by rw [hc]; exact decide_eq_true ⟨rfl, hdata⟩)
      exact h.completing id (by rw [hℓ]; exact Multiset.mem_cons_self ..)
    | request hc hdata =>
      subst hc
      rcases requested_status husual hdata with h | h
      · cases h
      · cases h

/-- The ghost state is replaced by a record that is completed. -/
lemma Agreeing.replace (h : Agreeing w (ℓ ::ₘ f))
    (hℓ' : ∀ id, ℓ' = some id → w.state.payments id = some .completed) :
    Agreeing w (ℓ' ::ₘ f) := by
  refine ⟨h.distinct, fun id hid => ?_, h.completed⟩
  rcases Multiset.mem_cons.mp hid with heq | hid
  · exact hℓ' id heq.symm
  · exact h.completing id (Multiset.mem_cons_of_mem hid)

end Calls

/-! ### Safe programs -/

section Programs

variable {α : Type} {js : Js} {tx : Transaction} {id : String} {ℓ : Option String} {p : Service α}

/-- A call that completes no row. -/
def Incomplete (c : Request) : Prop := c.Usual ∧ ∀ id, ¬c.writes id .COMPLETED

/-- No postcondition. -/
abbrev anyway {α L : Type} : Except String α → L → Prop := upon (fun _ _ => True) fun _ => True

lemma anyway_intro {L : Type} (r : Except String α) (ℓ : L) : anyway r ℓ := by
  cases r with
  | ok a => trivial
  | error e => trivial

lemma safe_incomplete (hp : p.All Incomplete) : Safe agreeing p ℓ anyway := by
  apply Safe.of_all hp fun r => anyway_intro r ℓ
  intro c hc
  have hlink : agreeing.link ℓ c := ⟨hc.1, fun i hi => absurd hi (hc.2 i)⟩
  exact ⟨hlink, fun w f r w' hinv _ henv => hinv.call hlink henv⟩

lemma incomplete_of (hp : p.All Request.Usual) (hw : p.All fun c => ∀ id, ¬c.writes id .COMPLETED) :
    p.All Incomplete := hp.and hw

lemma incomplete_plain (hp : p.All (Running id)) (hplain : p.All (Plain id)) :
    p.All Incomplete := by
  refine incomplete_of (usual_run hp) (hplain.mono fun c hc i hwrites => ?_)
  obtain ⟨source, op⟩ := c
  cases op with
  | updateTransaction j data => exact hc.2.2.1 (of_decide_eq_true hwrites).2
  | _ => cases hwrites

lemma incomplete_failing (hp : p.All (Running id)) (hfailing : p.All (Failing id)) :
    p.All Incomplete := by
  refine incomplete_of (usual_run hp) (hfailing.mono fun c hc i hwrites => ?_)
  obtain ⟨source, op⟩ := c
  cases op with
  | updateTransaction j data =>
    have hdata := (of_decide_eq_true hwrites).2
    rcases hc.2.2 with h | h
    · cases hdata.symm.trans h
    · cases hdata.symm.trans h
  | _ => cases hwrites

lemma incomplete_still (hp : p.All (Still id)) : p.All Incomplete := by
  refine incomplete_of (usual_run (running_of_still hp)) (hp.mono fun c hc i hwrites => ?_)
  obtain ⟨source, op⟩ := c
  cases op with
  | updateTransaction j data => cases (of_decide_eq_true hwrites).2.symm.trans hc.2.2
  | _ => cases hwrites

namespace Processor

lemma incomplete_updateStatus {status : TransactionStatus} (hcompleted : status ≠ .COMPLETED)
    (hcreated : status ≠ .CREATED) (hcancelled : status ≠ .CANCELLED)
    {failure : Option (String × String)} : (updateStatus id status failure).All Incomplete := by
  refine incomplete_of (usual_run (running_updateStatus hcreated hcancelled)) ?_
  rw [updateStatus, completionDate_of_ne hcompleted]
  refine all_bind (all_pure _) fun _ => all_bind (all_perform fun i hwrites => ?_) fun _ => ?_
  · exact hcompleted (Option.some.inj (of_decide_eq_true hwrites).2)
  · exact (incomplete_still still_logEvent).mono fun c hc => hc.2

lemma incomplete_route : (route js tx).All Incomplete := by
  refine all_bind (incomplete_plain running_prepare plain_prepare) fun lookup => ?_
  have hcreate : (call (.run tx.id) (.createPayment (paymentParams tx lookup))).All (Still tx.id) :=
    all_call ⟨rfl, trivial⟩
  refine all_bind (incomplete_still hcreate) fun _ => ?_
  refine all_bind (incomplete_plain running_quote plain_quote) fun _ => ?_
  refine all_bind (incomplete_still (all_call ⟨rfl, trivial⟩)) fun _ => ?_
  refine all_bind (incomplete_updateStatus (by simp) (by simp) (by simp)) fun _ => ?_
  exact incomplete_still (all_call ⟨trivial, trivial⟩)

/-- Once `completePayment` has returned the row may be completed. -/
lemma safe_completeAgreeing {stellar : StellarResult} {attempt : ℕ} {rewardResult : RewardResult} :
    Safe agreeing (complete tx stellar attempt rewardResult) ℓ anyway := by
  refine safe_bind (safe_incomplete (incomplete_updateStatus (by simp) (by simp) (by simp)))
    fun _ ℓ _ => ?_
  have hlink : agreeing.link ℓ ⟨.run tx.id, .completePayment tx.id⟩ :=
    ⟨rfl, fun i hi => by cases hi⟩
  refine safe_bind (R := fun _ ℓ => ℓ = some tx.id) (safe_perform hlink ?_) fun _ ℓ hℓ => ?_
  · intro w f r w' hinv _ henv
    have hinv' := hinv.call hlink henv
    cases r with
    | error e => exact ⟨ℓ, hinv', trivial⟩
    | ok hash =>
      refine ⟨some tx.id, hinv'.replace fun i hi => ?_, rfl⟩
      cases hi
      obtain ⟨o, hans⟩ := henv.2
      simp only [Backend.answer, Option.map_eq_some_iff, Backend.movePayment] at hans
      obtain ⟨b₁, hb, heq⟩ := hans
      split_ifs at hb
      obtain ⟨-, hstate⟩ := Prod.mk.inj heq
      rw [← hstate, ← Option.some.inj hb]
      exact Function.update_self ..
  · subst hℓ
    refine safe_bind (R := fun _ _ => True) ?_ fun _ ℓ _ => safe_incomplete ?_
    · have hdate : Safe agreeing (completionDate tx.id .COMPLETED) (some tx.id)
          (upon (fun _ ℓ => ℓ = some tx.id) fun _ => True) := by
        have hnow : agreeing.link (some tx.id) ⟨.run tx.id, .now⟩ :=
          ⟨trivial, fun i hi => by cases hi⟩
        refine safe_bind (R := fun _ ℓ => ℓ = some tx.id) (safe_perform hnow ?_)
          fun _ _ hℓ => safe_pure hℓ
        intro w f r w' hinv _ henv
        refine ⟨some tx.id, hinv.call hnow henv, ?_⟩
        cases r with
        | ok v => rfl
        | error e => trivial
      refine safe_bind hdate fun completedAt ℓ hℓ => ?_
      subst hℓ
      refine safe_bind (R := fun _ _ => True) (safe_perform ?_ ?_) fun _ ℓ _ => ?_
      · refine ⟨⟨rfl, by simp, by simp⟩, fun i hi => ?_⟩
        rw [(of_decide_eq_true hi).1]
      · intro w f r w' hinv _ henv
        refine ⟨some tx.id, hinv.call ?_ henv, anyway_intro r _⟩
        refine ⟨⟨rfl, by simp, by simp⟩, fun i hi => ?_⟩
        rw [(of_decide_eq_true hi).1]
      · exact safe_incomplete (incomplete_still still_logEvent)
    · refine all_bind (incomplete_still (all_now ⟨trivial, trivial⟩)) fun _ => ?_
      refine all_bind (incomplete_still (all_call ⟨rfl, trivial⟩)) fun _ => ?_
      exact incomplete_still still_logCompletion

lemma safe_settleAgreeing {stellar : StellarResult} {attempt : ℕ} :
    Safe agreeing (settle tx stellar attempt) ℓ anyway := by
  refine safe_bind (safe_incomplete (incomplete_plain running_markSettled plain_markSettled))
    fun _ ℓ _ => ?_
  refine safe_bind (safe_incomplete (incomplete_still still_payMerchant)) fun _ ℓ _ => ?_
  refine safe_bind (safe_incomplete (incomplete_still still_issueStarRewards)) fun _ ℓ _ => ?_
  exact safe_completeAgreeing

lemma safe_processAgreeing {attempt : ℕ} :
    Safe agreeing (processTransaction js tx attempt) ℓ anyway := by
  have habort : ∀ {hash : Option String} {message : String} {ℓ : Option String},
      Safe agreeing (abort tx hash message) ℓ anyway :=
    safe_incomplete (incomplete_failing running_abort failing_abort)
  refine safe_attempt (safe_incomplete incomplete_route) (fun stellar ℓ _ => ?_)
    fun message ℓ _ => habort
  exact safe_attempt safe_settleAgreeing (fun _ ℓ _ => safe_pure trivial) fun message ℓ _ => habort

lemma safe_retryAgreeing {remaining : ℕ} : Safe agreeing (retryFrom js tx remaining) ℓ anyway :=
  safe_attempts (I := fun _ => True) (fun _ _ _ => safe_processAgreeing)
    (fun _ _ _ => safe_incomplete (incomplete_failing running_giveUp failing_giveUp))
    (fun _ _ _ => safe_incomplete (incomplete_still (all_call ⟨trivial, trivial⟩))) trivial

lemma safe_tickAgreeing : Safe agreeing (handlePendingTransactions js) ℓ anyway := by
  have hcall : ∀ {op : Op} {ℓ : Option String}, op.ticking →
      Safe agreeing (call .tick op) ℓ anyway := by
    intro op ℓ hop
    apply safe_incomplete
    refine all_perform ⟨hop, fun i hi => ?_⟩
    cases op with
    | updateTransaction => exact hop
    | _ => cases hi
  have hticks := safe_ticks js (D := agreeing) (I := fun _ => True) (R := fun _ _ => True)
    (E := fun _ => True) (ℓ := ℓ) (fun hop _ => hcall hop) (fun _ => hcall trivial)
    (fun tx _ _ => safe_retryAgreeing) trivial
  exact hticks.weaken (fun _ _ _ => trivial) fun _ h => h

end Processor

lemma incomplete_requested (hp : p.All Requested) : p.All Incomplete := by
  refine incomplete_of (usual_requested hp) (hp.mono fun c hc i hwrites => ?_)
  obtain ⟨source, op⟩ := c
  cases op with
  | updateTransaction j data =>
    have hdata := (of_decide_eq_true hwrites).2
    rcases hc.2 with h | h
    · cases hdata.symm.trans h
    · cases hdata.symm.trans h
  | _ => cases hwrites

lemma incomplete_polling (hp : p.All Polling) : p.All Incomplete := by
  refine incomplete_of (usual_polling hp) (hp.mono fun c hc i hwrites => ?_)
  obtain ⟨source, op⟩ := c
  cases op with
  | updateTransaction => exact hc.2
  | _ => cases hwrites

lemma safe_startsAgreeing {w : World} {q : Service Unit} (h : Starts js w q) :
    Async.Safely agreeing q none := by
  have hanyway : Safe agreeing q none anyway := by
    obtain rfl | rfl | hrequest := h.job_or_requested
    · exact Processor.safe_tickAgreeing
    · exact safe_incomplete (incomplete_polling Processor.polling_handlePendingSettlements)
    · exact safe_incomplete (incomplete_requested hrequest)
  exact hanyway.mono fun _ _ _ => trivial

/-! ### The pipeline -/

theorem agreeing_governs {cond : Condition} : Async.Governs agreeing (setting js cond) where
  env _ _ _ _ h := h
  init w h := by
    refine ⟨distinct_of_started h, fun id hid => absurd hid (Multiset.notMem_zero _), fun id hid => ?_⟩
    rw [Backend.status, Backend.transaction, h.transactions] at hid
    cases hid
  start w q h := by
    refine ⟨none, safe_startsAgreeing h, fun f hf => ⟨hf.distinct, fun id hid => ?_, hf.completed⟩⟩
    exact hf.completing id (by simpa using hid)
  world w w' f h hf := by
    refine ⟨other_distinct h.2 hf.distinct, fun id hid => completed_other h.2 (hf.completing id hid),
      fun id hid => completed_other h.2 (hf.completed id ?_)⟩
    rwa [other_status h.2 hf.distinct] at hid
  cond _ _ _ _ _ _ _ := trivial

/-- The record of a transaction in a state of the pipeline. -/
abbrev recordOf (id : String) (s : Async.Pool World Request Request.Res String) :
    Option PaymentStatus := s.world.state.payments id

/-- How far the row and the record agree: a `COMPLETED` row has a `Completed` record, no call makes
a record `Failed` or `Cancelled`, and a transaction whose cancellations were punctual was never run
if its row is `CANCELLED`. -/
structure TerminalAgreement (js : Js) (id : String) : Prop where
  completed : ∀ s, (pipeline js anyAnswer).Reachable s →
    s.world.state.status id = some .COMPLETED → recordOf id s = some .completed
  kept : ∀ s c r t, (pipeline js anyAnswer).Reachable s →
    (pipeline js anyAnswer).Step s (.call c r) t →
    recordOf id t = some .failed ∨ recordOf id t = some .cancelled → recordOf id t = recordOf id s
  cancelled : ∀ s, (pipeline js punctual).Reachable s →
    s.world.state.status id = some .CANCELLED → ∀ e ∈ s.world.calls, e.1.source ≠ .run id

/-- **Terminal agreement**, as far as it goes: the API completes payments on chain before it
completes their rows, and it gives none up on chain. -/
theorem terminal_agreement (js : Js) (id : String) : TerminalAgreement js id := by
  refine ⟨fun s h hstatus => ?_, fun s c r t _ hstep hgiven => ?_, fun s h hstatus e he hsource => ?_⟩
  · obtain ⟨f, -, hinv⟩ := Async.reachable_sound agreeing_governs h
    exact hinv.completed id hstatus
  · obtain ⟨k, rest, -, -, henv, -⟩ := hstep
    have hadvances : Advances (s.world.state.payments id) _ := env_advances henv
    rw [recordOf] at hgiven
    show t.world.state.payments id = s.world.state.payments id
    generalize t.world.state.payments id = record at hadvances hgiven ⊢
    generalize s.world.state.payments id = before at hadvances ⊢
    cases hadvances with
    | same => rfl
    | appear hcreated =>
      subst hcreated
      rcases hgiven with h | h <;> cases h
    | change hadvance =>
      rcases hgiven with h | h
      · exact absurd (Option.some.inj h) hadvance.2.1
      · exact absurd (Option.some.inj h) hadvance.2.2
  · obtain ⟨f, -, hinv⟩ := Async.reachable_sound stopping_governs h
    obtain ⟨s', hs', -, hne⟩ := hinv.ran e he id hsource
    exact hne (Option.some.inj (hs'.symm.trans hstatus))

end Programs

/-! ### The shop -/

/-- When `completePayment` is refused the row becomes `FAILED` and the run ends, and the record stays
`Settled`. -/
theorem failed_order_settled : ∃ s, (pipeline OneOrder.js anyAnswer).Reachable s ∧
    (∀ p ∈ s.threads, p.next = none) ∧ s.world.state.status OneOrder.orderId = some .FAILED ∧
    recordOf OneOrder.orderId s = some .settled := by
  have hordered : Idle OneOrder.js anyAnswer (OneOrder.ordered OneOrder.order) :=
    OneOrder.ordered_idle OneOrder.anyAnswer_checkedBy (checkFor_true ..) (by decide +kernel)
  obtain ⟨threads, hdone, hreach⟩ := OneOrder.processing_reachable (n := 50) hordered
    OneOrder.anyAnswer_checkedBy (checkFor_true ..)
  have hfailed :
      (OneOrder.processing OneOrder.order 50).2.state.status OneOrder.orderId = some .FAILED := by
    decide +kernel
  have hsettled :
      (OneOrder.processing OneOrder.order 50).2.state.payments OneOrder.orderId = some .settled := by
    decide +kernel
  refine ⟨_, hreach, fun p hp => ?_, hfailed, hsettled⟩
  rcases Multiset.mem_cons.mp hp with rfl | hp
  · decide +kernel
  · exact hdone p hp

end PayEra.Api
