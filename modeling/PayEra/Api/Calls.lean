import PayEra.Api.Transactions

/-!
# Which calls the services make

The processor's run of one transaction makes many calls that read, or write what nobody decides
anything on, and a few that matter: creating the payment on chain, paying the merchant, and the
writes of the settlement and of a final status. The former are the plain calls. For each part of the
code it is proved once which kind its calls are of: plain, closing a payment, writing its failure,
polling, or requested by a user.
-/

namespace PayEra.Api

open Async (Program Safe Discipline upon safe_pure safe_bind safe_attempt safe_forM)
open Async.Program

/-! ### Plain calls -/

/-- The calls of a run that decide nothing. -/
def Op.plain (id : String) : Op → Prop
  | .now | .sleep _ | .maxEventSequence _ | .createEvent _ | .findSpendReward _ | .findQrCode _
  | .findWallet _ | .findMerchant _ | .findPendingRewards _ | .updateReward _ _
  | .createAdminLog _ | .fetchUsdcRate | .issueStarReward _ | .submitPayment _ => True
  | .quotePayment p => p.paymentId = id
  | .markConverted i | .markSettled i | .completePayment i => i = id
  | .updateTransaction i data =>
    i = id ∧ data.status ≠ some .COMPLETED ∧ data.status ≠ some .FAILED
  | _ => False

/-- The call is made for `source` and is one of `P`. -/
def Request.By (source : Source) (P : Op → Prop) (c : Request) : Prop :=
  c.source = source ∧ P c.op

/-- A plain call of a run of the transaction `id`. -/
abbrev Plain (id : String) : Request → Prop := Request.By (.run id) (Op.plain id)

section Programs

variable {js : Js} {tx : Transaction} {id : String} {status : TransactionStatus}

lemma all_call {source : Source} {P : Op → Prop} {op : Op} (h : P op) :
    (call source op).All (Request.By source P) :=
  all_perform ⟨rfl, h⟩

lemma all_ifPresent {α : Type} {P : Request → Prop} {key : Option String}
    {query : String → Service (Option α)} (h : ∀ k, (query k).All P) :
    (ifPresent key query).All P := by
  cases key with
  | none => exact all_pure _
  | some k => exact h k

lemma all_now {source : Source} {P : Op → Prop} (h : P .now) :
    (now source).All (Request.By source P) := all_call h

namespace Processor

lemma plain_logEvent {payload : Metadata} : (logEvent id status payload).All (Plain id) :=
  all_bind (all_call trivial) fun _ => all_call trivial

lemma completionDate_of_ne (h : status ≠ .COMPLETED) :
    completionDate id status = pure none := if_neg h

lemma plain_updateStatus {failure : Option (String × String)} (hc : status ≠ .COMPLETED)
    (hf : status ≠ .FAILED) : (updateStatus id status failure).All (Plain id) := by
  rw [updateStatus, completionDate_of_ne hc]
  refine all_bind (all_pure _) fun completedAt => ?_
  refine all_bind (all_call ⟨rfl, ?_, ?_⟩) fun _ => plain_logEvent
  · simpa using hc
  · simpa using hf

lemma plain_prepare : (prepare tx).All (Plain tx.id) := by
  refine all_bind (plain_updateStatus (by decide) (by decide)) fun _ => ?_
  refine all_bind (all_call trivial) fun reward => ?_
  cases reward with
  | none => exact all_throw _
  | some reward =>
    refine all_bind (all_ifPresent fun _ => all_call trivial) fun _ => ?_
    exact all_bind (all_ifPresent fun _ => all_call trivial) fun _ => all_pure _

lemma plain_getUsdcRate : (getUsdcRate id).All (Plain id) := by
  refine all_bind (all_attempt (all_call trivial)) fun r => ?_
  cases r with
  | error e => exact all_pure _
  | ok rate =>
    cases rate with
    | none => exact all_pure _
    | some rate => exact all_pure _

lemma plain_done {r : Except String ℤ} : (Program.done r : Service ℤ).All (Plain id) := trivial

lemma plain_quote : (quote js tx).All (Plain tx.id) := by
  refine all_bind (plain_updateStatus (by decide) (by decide)) fun _ => ?_
  refine all_bind plain_getUsdcRate fun _ => ?_
  refine all_bind plain_done fun _ => all_bind plain_done fun _ => ?_
  exact all_bind (all_call rfl) fun _ => plain_updateStatus (by decide) (by decide)

lemma plain_convert : (convert js tx).All (Plain tx.id) := by
  refine all_bind (all_call rfl) fun _ => ?_
  refine all_bind (plain_updateStatus (by decide) (by decide)) fun _ => ?_
  exact all_call trivial

lemma plain_markSettled {stellar : StellarResult} : (markSettled tx stellar).All (Plain tx.id) := by
  refine all_bind (all_call ⟨rfl, by simp, by simp⟩) fun _ => ?_
  refine all_bind plain_logEvent fun _ => ?_
  refine all_bind (all_call rfl) fun _ => ?_
  exact plain_updateStatus (by decide) (by decide)

lemma plain_mintOnChain {reward : Reward} {walletAddress : String} :
    (mintOnChain tx reward walletAddress).All (Plain tx.id) := by
  refine all_bind (all_call trivial) fun _ => all_bind (all_now trivial) fun _ => ?_
  exact all_bind (all_call trivial) fun _ => all_pure _

lemma plain_issueStarReward {acc : RewardResult} {r : PendingReward} :
    (issueStarReward tx acc r).All (Plain tx.id) := by
  rw [issueStarReward]
  cases truthy r.walletAddress with
  | none =>
    refine all_bind (all_now trivial) fun _ => ?_
    exact all_bind (all_call trivial) fun _ => all_pure _
  | some walletAddress =>
    refine all_bind (all_attempt plain_mintOnChain) fun outcome => ?_
    cases outcome with
    | ok hash => exact all_pure _
    | error e => exact all_bind (all_call trivial) fun _ => all_pure _

lemma plain_issueStarRewards : (issueStarRewards tx).All (Plain tx.id) :=
  all_bind (all_call trivial) fun _ => all_foldlM (fun _ _ _ => plain_issueStarReward) none

end Processor

end Programs

/-! ### Closing a payment, and writing its failure -/

/-- The calls that close a payment. -/
def Op.closing (id : String) : Op → Prop
  | .now | .maxEventSequence _ | .createEvent _ | .createAdminLog _ => True
  | .completePayment i => i = id
  | .updateTransaction i data => i = id ∧ ∃ s, data.status = some s ∧ s ≠ .FAILED
  | .updateSettlements i data =>
    i = id ∧ data.status = some .CONFIRMED ∧ data.settlementReference = none
  | _ => False

abbrev Closing (id : String) : Request → Prop := Request.By (.run id) (Op.closing id)

/-- The calls of the `catch` block and of giving up. -/
def Op.failing (id : String) : Op → Prop
  | .maxEventSequence _ | .createEvent _ => True
  | .updateTransaction i data => i = id ∧ (data.status = none ∨ data.status = some .FAILED)
  | _ => False

abbrev Failing (id : String) : Request → Prop := Request.By (.run id) (Op.failing id)

section Ends

variable {tx : Transaction} {id : String}

namespace Processor

lemma closing_updateStatus {status : TransactionStatus} (h : status ≠ .FAILED) :
    (updateStatus id status none).All (Closing id) := by
  have hdate : (completionDate id status).All (Closing id) := by
    rw [completionDate]
    split_ifs
    · exact all_bind (all_now trivial) fun _ => all_pure _
    · exact all_pure _
  refine all_bind hdate fun _ => all_bind (all_call ⟨rfl, status, rfl, h⟩) fun _ => ?_
  exact all_bind (all_call trivial) fun _ => all_call trivial

lemma closing_logCompletion {stellar : StellarResult} {attempt : ℕ} {rewardResult : RewardResult} :
    (logCompletion tx stellar attempt rewardResult).All (Closing tx.id) := by
  cases rewardResult with
  | none => exact all_pure _
  | some r =>
    rw [logCompletion]
    split
    · exact all_call trivial
    · exact all_pure _

lemma closing_complete {stellar : StellarResult} {attempt : ℕ} {rewardResult : RewardResult} :
    (complete tx stellar attempt rewardResult).All (Closing tx.id) := by
  refine all_bind (closing_updateStatus (by decide)) fun _ => ?_
  refine all_bind (all_call rfl) fun _ => ?_
  refine all_bind (closing_updateStatus (by decide)) fun _ => ?_
  refine all_bind (all_now trivial) fun _ => ?_
  exact all_bind (all_call ⟨rfl, rfl, rfl⟩) fun _ => closing_logCompletion

lemma failing_saveHash {hash : Option String} : (saveHash tx hash).All (Failing tx.id) := by
  rw [saveHash]
  split
  · exact all_bind (all_attempt (all_call ⟨rfl, .inl rfl⟩)) fun _ => all_pure _
  · exact all_pure _

lemma failing_abort {hash : Option String} {message : String} :
    (abort tx hash message).All (Failing tx.id) := by
  refine all_bind failing_saveHash fun _ => ?_
  rw [updateStatus, completionDate_of_ne (by decide)]
  refine all_bind (all_pure _) fun _ => all_bind (all_call ⟨rfl, .inr rfl⟩) fun _ => ?_
  exact all_bind (all_call trivial) fun _ => all_call trivial

lemma failing_giveUp {message : String} : (giveUp tx message).All (Failing tx.id) :=
  all_bind (all_call ⟨rfl, .inr rfl⟩) fun _ => all_pure _

end Processor

end Ends

/-! ### Ticks and polls -/

/-- The calls of a tick besides those of its runs. -/
def Op.ticking : Op → Prop
  | .now | .claimTransactions _ _ | .findAuthorized _ => True
  | _ => False

/-- The calls of the settlement poller. -/
def Op.polling : Op → Prop
  | .now | .findSentSettlements | .checkPayoutStatus _ | .updateSettlement _ _ => True
  | _ => False

abbrev Polling : Request → Prop := Request.By .poller Op.polling

namespace Processor

variable {js : Js}

lemma polling_recordStatus {s : SettlementInstruction} {result : PayoutStatus} :
    (recordStatus js s result).All Polling := by
  rw [recordStatus]
  split_ifs
  · exact all_bind (all_now trivial) fun _ => all_call trivial
  · exact all_call trivial
  · exact all_bind (all_now trivial) fun _ => all_call trivial

lemma polling_pollSettlement {s : SettlementInstruction} : (pollSettlement js s).All Polling :=
  all_bind (all_call trivial) fun _ => polling_recordStatus

lemma polling_handlePendingSettlements : (handlePendingSettlements js).All Polling :=
  all_bind (all_call trivial) fun _ => all_forM fun _ _ =>
    all_bind (all_attempt polling_pollSettlement) fun _ => all_pure _

end Processor

/-! ### Requests -/

/-- What `create` writes: a new transaction with its unsent settlement instruction. -/
structure NewTransaction.Fresh (t : NewTransaction) : Prop where
  status : t.row.status = .CREATED
  amount : t.row.merchantSettlementPaise = t.row.amountInPaise
  transactionId : t.settlement.transactionId = t.row.id
  settlementStatus : t.settlement.status = .PENDING
  settlementReference : t.settlement.settlementReference = none

/-- The calls of `create` before it writes. -/
def Op.checking : Op → Prop
  | .now | .uuid | .findWallet _ | .findMerchant _ | .findActiveQrCode _ _ | .fetchRates => True
  | _ => False

abbrev Checking : Request → Prop := Request.By .request Op.checking

/-- The calls of `create`. -/
def Op.creating : Op → Prop
  | .now | .uuid | .findWallet _ | .findMerchant _ | .findActiveQrCode _ _ | .createAdminLog _
  | .createReward _ | .fetchRates => True
  | .createTransaction t => t.Fresh
  | _ => False

abbrev Creating : Request → Prop := Request.By .request Op.creating

/-- The calls of `cancel` and `fail`. -/
def Op.revising : Op → Prop
  | .maxEventSequence _ | .createEvent _ | .findTransaction _ _ => True
  | .updateTransaction _ data => data.status = some .CANCELLED ∨ data.status = some .FAILED
  | _ => False

abbrev Revising : Request → Prop := Request.By .request Op.revising

/-- The calls of requests. -/
def Op.requested : Op → Prop
  | .now | .uuid | .maxEventSequence _ | .createEvent _ | .findWallet _ | .findMerchant _
  | .findActiveQrCode _ _ | .findTransaction _ _ | .createAdminLog _ | .createReward _
  | .fetchRates => True
  | .createTransaction t => t.Fresh
  | .updateTransaction _ data => data.status = some .CANCELLED ∨ data.status = some .FAILED
  | _ => False

abbrev Requested : Request → Prop := Request.By .request Op.requested

section Requests

variable {js : Js}

namespace Transactions

lemma checking_getLiveRates : getLiveRates.All Checking := by
  refine all_bind (all_attempt (all_call trivial)) fun r => ?_
  cases r with
  | ok rates => exact all_pure _
  | error e => exact all_pure _

lemma checking_createQuote {assetIn : AssetCode} {amountInPaise : ℤ} :
    (createQuote js assetIn amountInPaise).All Checking := by
  rw [createQuote]
  split_ifs
  · exact all_throw _
  · exact all_bind checking_getLiveRates fun _ => all_bind (all_now trivial) fun _ => all_pure _

lemma checking_assertWalletAccess {owner : Principal} {walletId : Option String} :
    (assertWalletAccess owner walletId).All Checking := by
  cases walletId with
  | none => exact all_pure _
  | some walletId =>
    refine all_bind (all_call trivial) fun wallet => ?_
    cases wallet with
    | none => exact all_throw _
    | some wallet =>
      dsimp only
      split_ifs
      · exact all_throw _
      · exact all_pure _

lemma checking_resolvePayee {owner : Principal} {dto : CreateTransactionDto} :
    (resolvePayee owner dto).All Checking := by
  refine all_bind (all_call trivial) fun merchant => ?_
  refine all_bind (all_ifPresent fun _ => all_call trivial) fun qrCode => ?_
  cases merchant with
  | none => exact all_throw _
  | some merchant =>
    dsimp only
    split_ifs
    · exact all_throw _
    · refine all_bind checking_assertWalletAccess fun _ => all_throw _
    · refine all_bind checking_assertWalletAccess fun _ => ?_
      split
      · exact all_throw _
      · exact all_pure _

lemma newTransaction_fresh {owner : Principal} {dto : CreateTransactionDto}
    {id publicId settlementId merchantUpiVpa : String} {qrPayloadHash : Option String}
    {quote : Quote} :
    (newTransaction owner dto id publicId settlementId merchantUpiVpa qrPayloadHash quote).Fresh :=
  ⟨rfl, rfl, rfl, rfl, rfl⟩

lemma creating_of_checking {α : Type} {p : Service α} (h : p.All Checking) : p.All Creating := by
  refine h.mono fun c hc => ?_
  obtain ⟨source, op⟩ := c
  obtain ⟨rfl, hop⟩ := hc
  refine ⟨rfl, ?_⟩
  cases op with
  | now | uuid | findWallet | findMerchant | findActiveQrCode | fetchRates => trivial
  | _ => exact hop.elim

lemma creating_createResult {owner : Principal} {dto : CreateTransactionDto} :
    (createResult js owner dto).All Creating := by
  refine all_bind (creating_of_checking checking_resolvePayee) fun _ => ?_
  refine all_bind (creating_of_checking checking_createQuote) fun _ => ?_
  refine all_bind (all_call trivial) fun _ => all_bind (all_call trivial) fun _ => ?_
  refine all_bind (all_call trivial) fun _ => ?_
  refine all_bind (all_call newTransaction_fresh) fun _ => ?_
  refine all_bind (all_call trivial) fun _ => all_bind (all_call trivial) fun _ => ?_
  exact all_bind (all_call trivial) fun _ => all_pure _

lemma creating_create {owner : Principal} {dto : CreateTransactionDto} :
    (create js owner dto).All Creating :=
  all_bind creating_createResult fun _ => all_pure _

lemma requested_create {owner : Principal} {dto : CreateTransactionDto} :
    (create js owner dto).All Requested := by
  refine creating_create.mono fun c hc => ?_
  obtain ⟨source, op⟩ := c
  obtain ⟨rfl, hop⟩ := hc
  refine ⟨rfl, ?_⟩
  cases op with
  | createTransaction t => exact hop
  | now | uuid | findWallet | findMerchant | findActiveQrCode | createAdminLog | createReward
  | fetchRates => trivial
  | _ => exact hop.elim

lemma revising_findOne {owner : Principal} {id : String} : (findOne owner id).All Revising := by
  refine all_bind (all_call trivial) fun transaction => ?_
  cases transaction with
  | none => exact all_throw _
  | some transaction => exact all_pure _

lemma revising_nextEventSequence {id : String} : (nextEventSequence id).All Revising :=
  all_bind (all_call trivial) fun _ => all_pure _

lemma revising_cancel {owner : Principal} {id : String} : (cancel owner id).All Revising := by
  refine all_bind revising_findOne fun _ => ?_
  split_ifs
  · exact all_throw _
  · refine all_bind revising_nextEventSequence fun _ => ?_
    refine all_bind (all_call trivial) fun _ => ?_
    exact all_bind (all_call (.inl rfl)) fun _ => all_pure _

lemma revising_fail {owner : Principal} {id : String} {dto : FailTransactionDto} :
    (fail owner id dto).All Revising := by
  refine all_bind revising_findOne fun _ => ?_
  split_ifs
  · exact all_throw _
  · refine all_bind revising_nextEventSequence fun _ => ?_
    refine all_bind (all_call trivial) fun _ => ?_
    exact all_bind (all_call (.inr rfl)) fun _ => all_pure _

lemma requested_of_revising {α : Type} {p : Service α} (h : p.All Revising) : p.All Requested := by
  refine h.mono fun c hc => ?_
  obtain ⟨source, op⟩ := c
  obtain ⟨rfl, hop⟩ := hc
  refine ⟨rfl, ?_⟩
  cases op with
  | updateTransaction i data => exact hop
  | maxEventSequence | createEvent | findTransaction => trivial
  | _ => exact hop.elim

lemma requested_cancel {owner : Principal} {id : String} : (cancel owner id).All Requested :=
  requested_of_revising revising_cancel

lemma requested_fail {owner : Principal} {id : String} {dto : FailTransactionDto} :
    (fail owner id dto).All Requested :=
  requested_of_revising revising_fail

end Transactions

/-- What is started is one of the two cron jobs or makes the calls of a user's request. -/
lemma Starts.job_or_requested {w : World} {p : Service Unit} (h : Starts js w p) :
    p = Processor.handlePendingTransactions js ∨ p = Processor.handlePendingSettlements js ∨
      p.All Requested := by
  cases h with
  | tick => exact .inl rfl
  | poller => exact .inr (.inl rfl)
  | create owner dto => exact .inr (.inr Transactions.requested_create)
  | cancel owner id => exact .inr (.inr Transactions.requested_cancel)
  | fail owner id dto => exact .inr (.inr Transactions.requested_fail)

end Requests

/-! ### Rules -/

section Rules

variable {ω L : Type} {D : Discipline ω Request Request.Res String L} {js : Js} {tx : Transaction}
  {I J E F : L → Prop} {ℓ : L}

namespace Processor

/-- An attempt begins in `I`, and ends in `J`, or, if it fails, in `F`, from where the next one begins
or the last one is given up. -/
lemma safe_attempts {remaining : ℕ}
    (hrun : ∀ attempt ℓ, I ℓ → Safe D (processTransaction js tx attempt) ℓ (upon (fun _ => J) F))
    (hgiveUp : ∀ message ℓ, F ℓ → Safe D (giveUp tx message) ℓ (upon (fun _ => J) E))
    (hsleep : ∀ ms ℓ, F ℓ → Safe D (call (.run tx.id) (.sleep ms)) ℓ (upon (fun _ => I) E))
    (hℓ : I ℓ) : Safe D (retryFrom js tx remaining) ℓ (upon (fun _ => J) E) := by
  induction remaining generalizing ℓ with
  | zero =>
    exact safe_attempt (hrun _ ℓ hℓ) (fun _ ℓ hℓ => safe_pure hℓ) fun message ℓ hℓ => hgiveUp message ℓ hℓ
  | succ remaining ih =>
    refine safe_attempt (hrun _ ℓ hℓ) (fun _ ℓ hℓ => safe_pure hℓ) fun _ ℓ hℓ => ?_
    exact safe_bind (hsleep _ ℓ hℓ) fun _ ℓ hℓ => ih hℓ

variable (js) in
/-- A tick is in `I` until it has fetched its rows, and in `R` of them while it processes them. -/
lemma safe_ticks {R : List Transaction → L → Prop}
    (hcall : ∀ {op : Op} {ℓ}, op.ticking → I ℓ → Safe D (call .tick op) ℓ (upon (fun _ => I) E))
    (hfetch : ∀ {since : ℕ} {ℓ}, I ℓ → Safe D (call .tick (.findAuthorized since)) ℓ (upon R E))
    (hrun : ∀ {rows : List Transaction} {ℓ}, ∀ tx ∈ rows, R rows ℓ →
      Safe D (processTransactionWithRetry js tx) ℓ (upon (fun _ => R rows) E))
    (hℓ : I ℓ) :
    Safe D (handlePendingTransactions js) ℓ (upon (fun _ ℓ => I ℓ ∨ ∃ rows, R rows ℓ) E) := by
  refine safe_bind (hcall trivial hℓ) fun now₁ ℓ hℓ => safe_bind (hcall trivial hℓ) fun now₂ ℓ hℓ => ?_
  refine safe_bind (hcall trivial hℓ) fun claimed ℓ hℓ => ?_
  split_ifs
  · exact safe_pure (.inl hℓ)
  · refine safe_bind (hcall trivial hℓ) fun now₃ ℓ hℓ => safe_bind (hfetch hℓ) fun rows ℓ hℓ => ?_
    have htxs := safe_forM hℓ fun tx htx ℓ hℓ => hrun tx htx hℓ
    exact htxs.weaken (fun _ _ h => .inr ⟨rows, h⟩) fun _ h => h

end Processor

end Rules

end PayEra.Api
