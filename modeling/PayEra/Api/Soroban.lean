import PayEra.Api.Database
import PayEra.Lib.Hex
import PayEra.MerchantRegistry.Basic
import PayEra.RewardEngine.Basic
import PayEra.StarToken.Basic

/-!
# The Soroban service

`apps/api/src/stellar/soroban.service.ts`: the argument vectors that it builds, and what the host
makes of them. The host binds arguments to parameters by position and refuses a call whose arguments
are too many, too few or of another type.
-/

namespace PayEra.Api

open Soroban (Address Bytes32 I128)

/-! ### Argument vectors -/

/-- `xdr.ScVal`, as far as the calls use it. -/
inductive ScVal where
  | void
  | u32 (n : UInt32)
  | i128 (n : I128)
  | bytes (b : List UInt8)
  | address (a : Address)
  deriving DecidableEq

inductive Contract where
  | paymentEngine | rewardEngine | merchantRegistry | starToken
  deriving DecidableEq

/-- The names of the functions that are called. -/
inductive Method where
  | createPayment | quotePayment | markConverted | markSettled | issueReward | completePayment
  | issueSpendReward
  | registerMerchant | approveMerchant | suspendMerchant | rejectMerchant
  | balance
  deriving DecidableEq

/-- `contract.call(method, ...args)`. -/
structure Invocation where
  contract : Contract
  method : Method
  args : List ScVal
  deriving DecidableEq

/-- The parameters of `registerMerchant`. -/
structure RegisterMerchant where
  merchantId : String
  owner : String
  upiIdHash : String
  metadataHash : String
  deriving DecidableEq

/-- What the service takes from the SDK and its configuration: `Address.fromString`, which throws if
the string is no address, and the address of the platform's key. -/
structure Sdk where
  address : String → Option Address
  platform : Address

namespace SorobanService

/-- The identifier without its dashes. -/
def clean (uuid : String) : List Char := uuid.toList.filter (· ≠ '-')

/-- `clean.padStart(64, '0').slice(-64)`. -/
def lastDigits (clean : List Char) : List Char :=
  let padded := List.replicate (64 - clean.length) '0' ++ clean
  padded.drop (padded.length - 64)

/-- The decoded bytes are copied over 32 zeros. -/
def uuidToBytes32 (uuid : String) : Bytes32 where
  bytes := (Hex.decode (lastDigits (clean uuid)) ++ List.replicate 32 0).take 32
  length_eq := by simp

section Calls

variable (sdk : Sdk)

def idBytes (id : String) : ScVal := .bytes (uuidToBytes32 id).bytes

/-- `assetMap`, without an entry for the rupee. -/
def assetMap : AssetCode → ScVal
  | .ETH => .u32 1
  | .BTC => .u32 2
  | .SOL => .u32 3
  | .XLM => .u32 4
  | .USDC => .u32 5
  | .INR => .void

def createPayment (p : CreatePayment) : Option Invocation := do
  let payer ← sdk.address p.payer
  let amountInPaise ← I128.ofInt? p.amountInPaise
  pure
    { contract := .paymentEngine, method := .createPayment
      args := [.address sdk.platform, .address payer, idBytes p.paymentId, idBytes p.merchantId,
        assetMap p.asset, .i128 amountInPaise, idBytes p.qrHash, idBytes p.rewardId] }

def quotePayment (p : QuotePayment) : Option Invocation := do
  let assetAmount ← I128.ofInt? p.assetAmount
  let usdcAmount ← I128.ofInt? p.usdcAmount
  let networkFeePaise ← I128.ofInt? p.networkFeePaise
  pure
    { contract := .paymentEngine, method := .quotePayment
      args := [idBytes p.paymentId, .i128 assetAmount, .i128 usdcAmount, .i128 networkFeePaise] }

def transitionPaymentStatus (paymentId : String) (method : Method) : Invocation where
  contract := .paymentEngine
  method := method
  args := [idBytes paymentId]

def markConverted (paymentId : String) : Invocation :=
  transitionPaymentStatus paymentId .markConverted

def markSettled (paymentId : String) : Invocation := transitionPaymentStatus paymentId .markSettled

def completePayment (paymentId : String) : Invocation :=
  transitionPaymentStatus paymentId .completePayment

/-- `issueRewardOnChain`. -/
def issueReward (paymentId : String) : Invocation where
  contract := .paymentEngine
  method := .issueReward
  args := [idBytes paymentId]

def issueStarReward (p : IssueStarReward) : Option Invocation := do
  let recipient ← sdk.address p.userWalletAddress
  let starAmount ← I128.ofInt? p.starAmount
  pure
    { contract := .rewardEngine, method := .issueSpendReward
      args := [idBytes p.rewardId, idBytes p.userId, .address recipient, .i128 starAmount] }

def registerMerchant (p : RegisterMerchant) : Option Invocation := do
  let owner ← sdk.address p.owner
  pure
    { contract := .merchantRegistry, method := .registerMerchant
      args := [idBytes p.merchantId, .address owner, idBytes p.upiIdHash, idBytes p.metadataHash] }

def approveMerchant (merchantId : String) : Invocation where
  contract := .merchantRegistry
  method := .approveMerchant
  args := [idBytes merchantId]

def transitionMerchantStatus (merchantId : String) (method : Method) : Invocation where
  contract := .merchantRegistry
  method := method
  args := [idBytes merchantId]

def suspendMerchant (merchantId : String) : Invocation :=
  transitionMerchantStatus merchantId .suspendMerchant

def rejectMerchant (merchantId : String) : Invocation :=
  transitionMerchantStatus merchantId .rejectMerchant

def getStarBalance (walletAddress : String) : Option Invocation := do
  let id ← sdk.address walletAddress
  pure { contract := .starToken, method := .balance, args := [.address id] }

end Calls

/-- The calls of the service with their parameters. -/
inductive ServiceCall where
  | createPayment (p : CreatePayment)
  | quotePayment (p : QuotePayment)
  | markConverted (paymentId : String)
  | markSettled (paymentId : String)
  | issueReward (paymentId : String)
  | completePayment (paymentId : String)
  | issueStarReward (p : IssueStarReward)
  | registerMerchant (p : RegisterMerchant)
  | approveMerchant (merchantId : String)
  | suspendMerchant (merchantId : String)
  | rejectMerchant (merchantId : String)
  | getStarBalance (walletAddress : String)

/-- The invocation that a call builds; nothing if it throws before. -/
def invocation (sdk : Sdk) : ServiceCall → Option Invocation
  | .createPayment p => createPayment sdk p
  | .quotePayment p => quotePayment p
  | .markConverted paymentId => some (markConverted paymentId)
  | .markSettled paymentId => some (markSettled paymentId)
  | .issueReward paymentId => some (issueReward paymentId)
  | .completePayment paymentId => some (completePayment paymentId)
  | .issueStarReward p => issueStarReward sdk p
  | .registerMerchant p => registerMerchant sdk p
  | .approveMerchant merchantId => some (approveMerchant merchantId)
  | .suspendMerchant merchantId => some (suspendMerchant merchantId)
  | .rejectMerchant merchantId => some (rejectMerchant merchantId)
  | .getStarBalance walletAddress => getStarBalance sdk walletAddress

end SorobanService

/-! ### The host -/

/-- An entrypoint of one of the contracts with its arguments. -/
inductive ContractEntry where
  | paymentEngine (e : PaymentEngine.Entry)
  | rewardEngine (e : RewardEngine.Entry)
  | merchantRegistry (e : MerchantRegistry.Entry)
  | starToken (e : StarToken.Entry)

namespace Host

/-- `BytesN<32>` from a value. -/
def bytes32 (b : List UInt8) : Option Bytes32 :=
  if h : b.length = 32 then some ⟨b, h⟩ else none

/-- `AssetCode` from a value: its discriminants. -/
def assetCode (n : UInt32) : Option PaymentEngine.AssetCode :=
  if n = 1 then some .ETH
  else if n = 2 then some .BTC
  else if n = 3 then some .SOL
  else if n = 4 then some .XLM
  else if n = 5 then some .USDC
  else none

/-- The entrypoint that a payment engine invocation reaches. -/
def paymentEngine : Method → List ScVal → Option PaymentEngine.Entry
  | .createPayment, [.address operator, .address payer, .bytes paymentId, .bytes merchantId,
      .u32 asset, .i128 amountInPaise, .bytes qrHash, .bytes rewardId] => do
    pure (.createPayment operator payer (← bytes32 paymentId) (← bytes32 merchantId)
      (← assetCode asset) amountInPaise (← bytes32 qrHash) (← bytes32 rewardId))
  | .quotePayment, [.address operator, .bytes paymentId, .i128 assetAmount, .i128 usdcAmount,
      .i128 networkFeePaise] => do
    pure (.quotePayment operator (← bytes32 paymentId) assetAmount usdcAmount networkFeePaise)
  | .markConverted, [.address operator, .bytes paymentId] => do
    pure (.markConverted operator (← bytes32 paymentId))
  | .markSettled, [.address operator, .bytes paymentId] => do
    pure (.markSettled operator (← bytes32 paymentId))
  | .issueReward, [.address operator, .bytes paymentId] => do
    pure (.issueReward operator (← bytes32 paymentId))
  | .completePayment, [.address operator, .bytes paymentId] => do
    pure (.completePayment operator (← bytes32 paymentId))
  | _, _ => none

def rewardEngine : Method → List ScVal → Option RewardEngine.Entry
  | .issueSpendReward, [.address issuer, .bytes rewardId, .address recipient, .bytes sourceId,
      .i128 amountInPaise] => do
    pure (.issue (.spend issuer (← bytes32 rewardId) recipient (← bytes32 sourceId) amountInPaise))
  | _, _ => none

def merchantRegistry : Method → List ScVal → Option MerchantRegistry.Entry
  | .registerMerchant, [.bytes merchantId, .address owner, .bytes upiIdHash,
      .bytes metadataHash] => do
    pure (.registerMerchant (← bytes32 merchantId) owner (← bytes32 upiIdHash)
      (← bytes32 metadataHash))
  | .approveMerchant, [.bytes merchantId] => do pure (.approveMerchant (← bytes32 merchantId))
  | .suspendMerchant, [.bytes merchantId] => do pure (.suspendMerchant (← bytes32 merchantId))
  | .rejectMerchant, [.bytes merchantId] => do pure (.rejectMerchant (← bytes32 merchantId))
  | _, _ => none

def starToken : Method → List ScVal → Option StarToken.Entry
  | .balance, [.address id] => some (.balance id)
  | _, _ => none

/-- What the host calls; nothing if it refuses the invocation. -/
def bind (i : Invocation) : Option ContractEntry :=
  match i.contract with
  | .paymentEngine => (paymentEngine i.method i.args).map .paymentEngine
  | .rewardEngine => (rewardEngine i.method i.args).map .rewardEngine
  | .merchantRegistry => (merchantRegistry i.method i.args).map .merchantRegistry
  | .starToken => (starToken i.method i.args).map .starToken

end Host

end PayEra.Api
