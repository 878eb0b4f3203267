import PayEra.Api.Processor

/-!
# The transactions service

`apps/api/src/transactions/transactions.service.ts`: creating, cancelling and failing a transaction.
-/

namespace PayEra.Api

open Async (Program)
open Async.Program

def STAR_PER_100_INR : ℤ := 10

def PAISE_PER_100_INR : ℤ := 10000

/-- `calculateSpendRewardStar`, with the division of `BigInt`. -/
def calculateSpendRewardStar (amountInPaise : ℤ) : ℤ :=
  amountInPaise.tdiv PAISE_PER_100_INR * STAR_PER_100_INR

lemma calculateSpendRewardStar_of_nonneg {amountInPaise : ℤ} (h : 0 ≤ amountInPaise) :
    calculateSpendRewardStar amountInPaise = amountInPaise / 10000 * 10 := by
  rw [calculateSpendRewardStar, Int.tdiv_eq_ediv_of_nonneg h]
  rfl

lemma calculateSpendRewardStar_mono {a b : ℤ} (hab : a ≤ b) :
    calculateSpendRewardStar a ≤ calculateSpendRewardStar b := by
  have hdiv : a.tdiv 10000 ≤ b.tdiv 10000 := Int.tdiv_le_tdiv (by decide) hab
  exact Int.mul_le_mul_of_nonneg_right hdiv (by decide)

/-- There is a reward from a hundred rupees on. -/
lemma calculateSpendRewardStar_pos_iff {a : ℤ} : 0 < calculateSpendRewardStar a ↔ 10000 ≤ a := by
  constructor
  · intro h
    by_contra hlt
    have hle : a ≤ 9999 := by omega
    exact absurd (calculateSpendRewardStar_mono hle) (not_le.mpr h)
  · intro h
    rw [calculateSpendRewardStar_of_nonneg (by omega)]
    omega

/-- `CreateTransactionDto`, after validation. -/
structure CreateTransactionDto where
  walletId : Option String
  merchantId : String
  merchantQrCodeId : Option String
  campaignId : Option String
  assetIn : AssetCode
  amountInPaise : ℤ
  merchantUpiVpa : Option String
  qrPayload : Option String

/-- `FailTransactionDto`. -/
structure FailTransactionDto where
  failureCode : String
  failureMessage : Option String

namespace Transactions

variable (js : Js)

/-- `getLiveRates`. A cached answer is an answer like any other; without one the static estimates
are used. -/
def getLiveRates : Service (AssetCode → ℚ) := do
  match ← (call .request .fetchRates).attempt with
  | .ok rates => pure rates
  | .error _ => pure fun
    | .XLM => 9
    | .USDC => 83
    | .BTC => 9000000
    | .ETH => 300000
    | .SOL => 14000
    | .INR => 1

structure Quote where
  amountInCrypto : ℚ
  usdcAmount : ℚ
  quoteRateInrPerAsset : ℚ
  expiresAt : ℕ

def createQuote (assetIn : AssetCode) (amountInPaise : ℤ) : Service Quote := do
  if assetIn = .INR then throw "assetIn must be a crypto asset" else
    let rates ← getLiveRates
    let now ← now .request
    pure
      { amountInCrypto := js.amountInCrypto amountInPaise (rates assetIn)
        usdcAmount := js.amountInCrypto amountInPaise (rates .USDC)
        quoteRateInrPerAsset := js.toFixed (rates assetIn)
        expiresAt := now + 30 * 1000 }

/-- A request without a wallet is not checked. -/
def assertWalletAccess (owner : Principal) : (walletId : Option String) → Service Unit
  | none => pure ()
  | some walletId => do
    let wallet : Option Wallet ← call .request (.findWallet walletId)
    match wallet with
    | none => throw "Wallet not found"
    | some wallet =>
      if owner.role ≠ .ADMIN ∧ wallet.userId ≠ owner.id then
        throw "Wallet belongs to another user"
      else pure ()

/-- The checks of `create`, and the destination of the payout: the request's, the QR code's or the
merchant's, in this order. -/
def resolvePayee (owner : Principal) (dto : CreateTransactionDto) :
    Service (String × Option MerchantQrCode) := do
  let merchant : Option Merchant ← call .request (.findMerchant dto.merchantId)
  let qrCode ← ifPresent dto.merchantQrCodeId fun id =>
    call .request (.findActiveQrCode id dto.merchantId)
  match merchant with
  | none => throw "Merchant is not approved"
  | some merchant =>
    if merchant.status ≠ .APPROVED then throw "Merchant is not approved" else
      assertWalletAccess owner dto.walletId
      if dto.merchantQrCodeId.isSome ∧ qrCode.isNone then throw "Merchant QR is not active" else
        match dto.merchantUpiVpa <|> qrCode.map (·.upiVpa) <|> merchant.defaultUpiVpa with
        | none => throw "Merchant UPI VPA is required"
        | some merchantUpiVpa => pure (merchantUpiVpa, qrCode)

/-- The rows that `create` writes in one go. -/
def newTransaction (owner : Principal) (dto : CreateTransactionDto) (id publicId settlementId : String)
    (merchantUpiVpa : String) (qrPayloadHash : Option String) (quote : Quote) :
    NewTransaction where
  row :=
    { id, publicId, userId := owner.id, walletId := dto.walletId, merchantId := dto.merchantId
      merchantQrCodeId := dto.merchantQrCodeId, campaignId := dto.campaignId, status := .CREATED
      assetIn := dto.assetIn, amountInCrypto := some quote.amountInCrypto
      amountInPaise := dto.amountInPaise
      quoteRateInrPerAsset := some quote.quoteRateInrPerAsset
      usdcAmount := some quote.usdcAmount, networkFeePaise := 0
      merchantSettlementPaise := dto.amountInPaise, merchantUpiVpa, qrPayloadHash
      expiresAt := some quote.expiresAt }
  event :=
    { transactionId := id, sequence := 1, status := .CREATED, eventType := "transaction.created"
      payload := [("source", "api")] }
  settlement :=
    { id := settlementId, transactionId := id, merchantId := dto.merchantId
      amountPaise := dto.amountInPaise }

/-- `create`, with what it returns. -/
def createResult (owner : Principal) (dto : CreateTransactionDto) : Service NewTransaction := do
  let (merchantUpiVpa, qrCode) ← resolvePayee owner dto
  let quote ← createQuote js dto.assetIn dto.amountInPaise
  let qrPayloadHash := match dto.qrPayload with
    | some payload => some (js.sha256Hex payload)
    | none => qrCode.map (·.qrPayloadHash)
  let id : String ← call .request .uuid
  let publicId : String ← call .request .uuid
  let settlementId : String ← call .request .uuid
  let result :=
    newTransaction owner dto id publicId settlementId merchantUpiVpa qrPayloadHash quote
  call .request (.createTransaction result)
  call .request (.createAdminLog
    { actorUserId := some owner.id, action := "TRANSACTION_CREATED", targetType := "TRANSACTION"
      targetId := id
      metadata := [("merchantId", dto.merchantId),
        ("amountInPaise", toString dto.amountInPaise), ("publicId", publicId)] })
  let rewardId : String ← call .request .uuid
  call .request (.createReward
    { id := rewardId, userId := owner.id, transactionId := some id, reason := .SPEND
      status := .PENDING, starAmount := calculateSpendRewardStar dto.amountInPaise
      formulaVersion := "STAR_SPEND_V1" })
  pure result

def create (owner : Principal) (dto : CreateTransactionDto) : Service Unit := do
  let _ ← createResult js owner dto

def nextEventSequence (transactionId : String) : Service ℕ := do
  let maxEvent : Option ℕ ← call .request (.maxEventSequence transactionId)
  pure (maxEvent.getD 0 + 1)

def findOne (owner : Principal) (id : String) : Service Transaction := do
  let transaction : Option Transaction ← call .request (.findTransaction owner id)
  match transaction with
  | none => throw "Transaction not found"
  | some transaction => pure transaction

def cancel (owner : Principal) (id : String) : Service Unit := do
  let transaction ← findOne owner id
  if transaction.status ≠ .CREATED then throw "Only created transactions can be cancelled" else
    let sequence ← nextEventSequence id
    call .request (.createEvent
      { transactionId := id, sequence, status := .CANCELLED, eventType := "transaction.cancelled"
        payload := [] })
    let _ ← call .request (.updateTransaction id { status := some .CANCELLED })

def fail (owner : Principal) (id : String) (dto : FailTransactionDto) : Service Unit := do
  let transaction ← findOne owner id
  if transaction.status = .COMPLETED then throw "Completed transactions cannot be failed" else
    let sequence ← nextEventSequence id
    call .request (.createEvent
      { transactionId := id, sequence, status := .FAILED, eventType := "transaction.failed"
        payload := [("failureCode", dto.failureCode)] ++
          (dto.failureMessage.map fun m => ("failureMessage", m)).toList })
    let _ ← call .request (.updateTransaction id
      { status := some .FAILED, failureCode := some dto.failureCode
        failureMessage := some dto.failureMessage })

end Transactions

/-! ### Everything that can be running -/

/-- The programs that the API starts: ticks of the two cron jobs, on any number of instances, and
requests of users. -/
inductive Starts (js : Js) : World → Service Unit → Prop where
  | tick (w : World) : Starts js w (Processor.handlePendingTransactions js)
  | poller (w : World) : Starts js w (Processor.handlePendingSettlements js)
  | create (w : World) (owner : Principal) (dto : CreateTransactionDto) :
      Starts js w (Transactions.create js owner dto)
  | cancel (w : World) (owner : Principal) (id : String) :
      Starts js w (Transactions.cancel owner id)
  | fail (w : World) (owner : Principal) (id : String) (dto : FailTransactionDto) :
      Starts js w (Transactions.fail owner id dto)

/-- The API starts on an empty history: no transactions, no payments and no payouts yet. -/
structure Started (w : World) : Prop where
  transactions : w.state.transactions = []
  settlementInstructions : w.state.settlementInstructions = []
  transactionEvents : w.state.transactionEvents = []
  payouts : w.state.payouts = []
  calls : w.calls = []

/-- A condition on the answer to a call, given the other programs in progress. -/
abbrev Condition :=
  Multiset (Service Unit) → (c : Request) → World → Except String c.Res → Prop

/-- The pipeline: any interleaving of the services, any answers, any failures. -/
def setting (js : Js) (cond : Condition) : Async.Setting World Request Request.Res String where
  init := Started
  env := env
  cond := cond
  start := Starts js
  world w w' := w'.calls = w.calls ∧ Backend.Other w.state w'.state

/-- The pipeline in which the answers to calls satisfy a condition. -/
abbrev pipeline (js : Js) (cond : Condition) :=
  Async.system (setting js cond)

/-- No condition. -/
def anyAnswer : Condition := fun _ _ _ _ => True

end PayEra.Api
