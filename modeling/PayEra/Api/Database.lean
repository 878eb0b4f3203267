import Mathlib.Data.List.Perm.Basic
import Mathlib.Data.Rat.Defs
import PayEra.Lib.Async
import PayEra.PaymentEngine.Lifecycle

/-!
# What the API's services talk to

The tables of `apps/api/prisma/schema.prisma` as far as the transaction services read and write
them, and the calls that these services await: on the database, the clock, the payment contracts,
the Stellar network and the payout provider.
-/

namespace PayEra.Api

open PaymentEngine (PaymentStatus)

/-! ### Rows -/

inductive AssetCode where
  | ETH | BTC | SOL | XLM | USDC | INR
  deriving DecidableEq, Repr

inductive TransactionStatus where
  | CREATED | QUOTED | AUTHORIZED | CONVERTING | ROUTING_STELLAR | SETTLING | REWARDING
  | COMPLETED | FAILED | CANCELLED
  deriving DecidableEq, Repr

inductive SettlementStatus where
  | PENDING | SENT | CONFIRMED | FAILED
  deriving DecidableEq, Repr

inductive RewardReason where
  | SPEND | REFERRAL | CAMPAIGN | MERCHANT
  deriving DecidableEq, Repr

inductive RewardStatus where
  | PENDING | MINTED | FAILED | REVERSED
  deriving DecidableEq, Repr

inductive MerchantStatus where
  | PENDING | APPROVED | REJECTED | SUSPENDED
  deriving DecidableEq, Repr

/-- A JSON object of strings. -/
abbrev Metadata := List (String × String)

/-- `{ ...metadata, key: value }`. -/
def Metadata.spread (m : Metadata) (key value : String) : Metadata :=
  m.filter (·.1 ≠ key) ++ [(key, value)]

/-- `{ ...metadata, key: value }` with a `value` that may be `undefined`. -/
def Metadata.spreadOption (m : Metadata) (key : String) : Option String → Metadata
  | some value => m.spread key value
  | none => m.filter (·.1 ≠ key)

structure Transaction where
  id : String
  publicId : String
  userId : String
  walletId : Option String
  merchantId : String
  merchantQrCodeId : Option String
  campaignId : Option String
  status : TransactionStatus
  assetIn : AssetCode
  amountInCrypto : Option ℚ
  amountInPaise : ℤ
  quoteRateInrPerAsset : Option ℚ
  usdcAmount : Option ℚ
  networkFeePaise : ℤ
  merchantSettlementPaise : ℤ
  merchantUpiVpa : String
  qrPayloadHash : Option String
  stellarLedger : Option ℕ := none
  stellarTransactionHash : Option String := none
  failureCode : Option String := none
  failureMessage : Option String := none
  expiresAt : Option ℕ
  authorizedAt : Option ℕ := none
  completedAt : Option ℕ := none
  metadata : Metadata := []
  deriving DecidableEq

structure TransactionEvent where
  transactionId : String
  sequence : ℕ
  status : TransactionStatus
  eventType : String
  payload : Metadata
  deriving DecidableEq

structure SettlementInstruction where
  id : String
  transactionId : String
  merchantId : String
  amountPaise : ℤ
  status : SettlementStatus := .PENDING
  settlementReference : Option String := none
  mockReference : Option String := none
  confirmedAt : Option ℕ := none
  failureReason : Option String := none
  metadata : Metadata := []
  deriving DecidableEq

structure Reward where
  id : String
  userId : String
  transactionId : Option String
  reason : RewardReason
  status : RewardStatus
  starAmount : ℤ
  formulaVersion : String
  stellarMintHash : Option String := none
  mintedAt : Option ℕ := none
  deriving DecidableEq

structure Merchant where
  id : String
  ownerUserId : Option String
  displayName : String
  defaultUpiVpa : Option String
  status : MerchantStatus
  deriving DecidableEq

structure MerchantQrCode where
  id : String
  merchantId : String
  upiVpa : String
  qrPayloadHash : String
  isActive : Bool
  deriving DecidableEq

structure Wallet where
  id : String
  userId : String
  address : String
  active : Bool
  isPrimary : Bool
  deriving DecidableEq

structure AdminLog where
  actorUserId : Option String
  action : String
  targetType : String
  targetId : String
  metadata : Metadata
  deriving DecidableEq

/-! ### Updates -/

/-- The `data` of `transaction.update`; what is `none` stays as it is. -/
structure TransactionData where
  status : Option TransactionStatus := none
  stellarTransactionHash : Option String := none
  stellarLedger : Option ℕ := none
  failureCode : Option String := none
  failureMessage : Option (Option String) := none
  completedAt : Option ℕ := none
  metadata : Option Metadata := none
  deriving DecidableEq

def Transaction.update (t : Transaction) (d : TransactionData) : Transaction :=
  { t with
    status := d.status.getD t.status
    stellarTransactionHash := d.stellarTransactionHash <|> t.stellarTransactionHash
    stellarLedger := d.stellarLedger <|> t.stellarLedger
    failureCode := d.failureCode <|> t.failureCode
    failureMessage := d.failureMessage.getD t.failureMessage
    completedAt := d.completedAt <|> t.completedAt
    metadata := d.metadata.getD t.metadata }

structure SettlementData where
  status : Option SettlementStatus := none
  settlementReference : Option String := none
  mockReference : Option String := none
  confirmedAt : Option ℕ := none
  failureReason : Option String := none
  metadata : Option Metadata := none
  deriving DecidableEq

def SettlementInstruction.update (s : SettlementInstruction) (d : SettlementData) :
    SettlementInstruction :=
  { s with
    status := d.status.getD s.status
    settlementReference := d.settlementReference <|> s.settlementReference
    mockReference := d.mockReference <|> s.mockReference
    confirmedAt := d.confirmedAt <|> s.confirmedAt
    failureReason := d.failureReason <|> s.failureReason
    metadata := d.metadata.getD s.metadata }

structure RewardData where
  status : Option RewardStatus := none
  mintedAt : Option ℕ := none
  stellarMintHash : Option (Option String) := none
  deriving DecidableEq

def Reward.update (r : Reward) (d : RewardData) : Reward :=
  { r with
    status := d.status.getD r.status
    mintedAt := d.mintedAt <|> r.mintedAt
    stellarMintHash := d.stellarMintHash.getD r.stellarMintHash }

/-- `updateMany`. -/
def updateWhere {α : Type} (p : α → Bool) (f : α → α) (rows : List α) : List α :=
  rows.map fun r => if p r then f r else r

/-- A row that is found by its key, after the row with a key was updated. -/
lemma find?_updateWhere_key {α κ : Type} [DecidableEq κ] {key : α → κ} {f : α → α} {rows : List α}
    (h : ∀ r, key (f r) = key r) (k k' : κ) :
    (updateWhere (fun r => key r = k') f rows).find? (fun r => key r = k) =
      (rows.find? fun r => key r = k).map fun r => if k' = k then f r else r := by
  have hkey : ∀ r, key (if key r = k' then f r else r) = key r := by
    intro r
    split_ifs
    · exact h r
    · rfl
  rw [updateWhere, List.find?_map]
  simp only [Function.comp_def, decide_eq_true_eq, hkey]
  refine Option.map_congr fun r hr => ?_
  have hfound : key r = k := by simpa using List.find?_some hr
  simp only [hfound, eq_comm]

/-- With unique keys the order of the rows does not matter. -/
lemma find?_key_perm {α κ : Type} [DecidableEq κ] {key : α → κ} {rows rows' : List α}
    (h : rows'.Perm rows) (hnodup : (rows.map key).Nodup) (k : κ) :
    (rows'.find? fun r => key r = k) = rows.find? fun r => key r = k := by
  have hnodup' : (rows'.map key).Nodup := (h.map key).nodup_iff.mpr hnodup
  have hiff : ∀ {l : List α}, (l.map key).Nodup → ∀ r,
      (l.find? fun r => key r = k) = some r ↔ r ∈ l ∧ key r = k := by
    intro l hl r
    constructor
    · exact fun hr => ⟨List.mem_of_find?_eq_some hr, by simpa using List.find?_some hr⟩
    · rintro ⟨hr, rfl⟩
      obtain ⟨r', hr'⟩ := Option.isSome_iff_exists.mp
        (List.find?_isSome.mpr ⟨r, hr, decide_eq_true rfl⟩ :
          (l.find? fun r' => key r' = key r).isSome)
      have hkey : key r' = key r := by simpa using List.find?_some hr'
      rw [hr', List.inj_on_of_nodup_map hl (List.mem_of_find?_eq_some hr') hr hkey]
  refine Option.ext fun r => ?_
  rw [hiff hnodup', hiff hnodup, h.mem_iff]

/-! ### Calls -/

/-- The parameters of `SorobanService.createPayment`. -/
structure CreatePayment where
  paymentId : String
  payer : String
  merchantId : String
  asset : AssetCode
  amountInPaise : ℤ
  qrHash : String
  rewardId : String
  deriving DecidableEq

structure QuotePayment where
  paymentId : String
  assetAmount : ℤ
  usdcAmount : ℤ
  networkFeePaise : ℤ
  deriving DecidableEq

structure IssueStarReward where
  rewardId : String
  userId : String
  userWalletAddress : String
  starAmount : ℤ
  deriving DecidableEq

structure SubmitPayment where
  transactionPublicId : String
  assetCode : AssetCode
  amountCrypto : String
  deriving DecidableEq

/-- The parameters of `SettlementService.initiateUpiPayout`. -/
structure UpiPayout where
  referenceId : String
  amountPaise : ℤ
  merchantUpiVpa : String
  merchantName : String
  purpose : String
  deriving DecidableEq

structure PayoutResult where
  transactionId : String
  status : String
  deriving DecidableEq

structure PayoutStatus where
  status : String
  utrNumber : Option String
  deriving DecidableEq

/-- A pending reward with the address of its user's primary active wallet. -/
structure PendingReward where
  reward : Reward
  walletAddress : Option String
  deriving DecidableEq

/-- `createTransaction` of the tables: the row, its first event and its settlement instruction. -/
structure NewTransaction where
  row : Transaction
  event : TransactionEvent
  settlement : SettlementInstruction
  deriving DecidableEq

inductive UserRole where
  | CONSUMER | MERCHANT_OPERATOR | BRAND_OPERATOR | ADMIN
  deriving DecidableEq, Repr

/-- `AuthenticatedPrincipal`. -/
structure Principal where
  id : String
  role : UserRole
  deriving DecidableEq

/-- The calls that the services await. -/
inductive Op where
  | now
  | sleep (ms : ℕ)
  | uuid
  | claimTransactions (now authorizedAt : ℕ)
  | findAuthorized (since : ℕ)
  | updateTransaction (id : String) (data : TransactionData)
  | maxEventSequence (transactionId : String)
  | createEvent (e : TransactionEvent)
  | findSpendReward (transactionId : String)
  | findQrCode (id : String)
  | findWallet (id : String)
  | findMerchant (id : String)
  | updateSettlements (transactionId : String) (data : SettlementData)
  | findSentSettlements
  | updateSettlement (id : String) (data : SettlementData)
  | findPendingRewards (transactionId : String)
  | updateReward (id : String) (data : RewardData)
  | createAdminLog (log : AdminLog)
  | findActiveQrCode (id merchantId : String)
  | findTransaction (owner : Principal) (id : String)
  | createTransaction (t : NewTransaction)
  | createReward (r : Reward)
  | fetchUsdcRate
  | fetchRates
  | createPayment (p : CreatePayment)
  | quotePayment (p : QuotePayment)
  | markConverted (paymentId : String)
  | markSettled (paymentId : String)
  | completePayment (paymentId : String)
  | issueStarReward (p : IssueStarReward)
  | submitPayment (p : SubmitPayment)
  | initiateUpiPayout (p : UpiPayout)
  | checkPayoutStatus (transactionId : String)
  deriving DecidableEq

/-- `{ hash, ledger }` of a submitted Stellar payment. -/
structure StellarResult where
  hash : String
  ledger : ℕ
  deriving DecidableEq

/-- What each call answers. -/
abbrev Op.Res : Op → Type
  | .now | .claimTransactions _ _ | .updateSettlements _ _ => ℕ
  | .findAuthorized _ => List Transaction
  | .updateTransaction _ _ => Transaction
  | .maxEventSequence _ => Option ℕ
  | .findSpendReward _ => Option Reward
  | .findQrCode _ | .findActiveQrCode _ _ => Option MerchantQrCode
  | .findWallet _ => Option Wallet
  | .findMerchant _ => Option Merchant
  | .findSentSettlements => List SettlementInstruction
  | .findPendingRewards _ => List PendingReward
  | .findTransaction _ _ => Option Transaction
  | .fetchUsdcRate => Option ℚ
  | .fetchRates => AssetCode → ℚ
  | .uuid | .createPayment _ | .quotePayment _ | .markConverted _ | .markSettled _ | .completePayment _
  | .issueStarReward _ => String
  | .submitPayment _ => StellarResult
  | .initiateUpiPayout _ => PayoutResult
  | .checkPayoutStatus _ => PayoutStatus
  | .sleep _ | .createEvent _ | .updateSettlement _ _ | .updateReward _ _ | .createAdminLog _
  | .createTransaction _ | .createReward _ => Unit

end PayEra.Api
