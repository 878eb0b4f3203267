import PayEra.Lib.Soroban

/-!
# The payment engine contract

`contracts/payment-engine/src/lib.rs`. The engine asks a merchant registry whether a merchant is
approved and a reward engine to issue the spend reward. What the contracts at those addresses do
is a parameter, the `Clients`, over the state `ω` of the contracts the engine can reach.
-/

namespace PayEra.PaymentEngine

open Soroban Soroban.Call

inductive PaymentEngineError where
  | alreadyInitialized
  | notInitialized
  | paused
  | unauthorized
  | invalidAmount
  | merchantNotApproved
  | paymentAlreadyExists
  | paymentNotFound
  | invalidStatus
  | noPendingAdmin
  deriving DecidableEq, Repr

inductive AssetCode where
  | ETH | BTC | SOL | XLM | USDC
  deriving DecidableEq, Repr

inductive PaymentStatus where
  | created
  | quoted
  | converted
  | settled
  | rewarded
  | completed
  | failed
  | cancelled
  deriving DecidableEq, Repr

structure PaymentRecord where
  paymentId : Bytes32
  payer : Address
  merchantId : Bytes32
  asset : AssetCode
  amountInPaise : I128
  qrHash : Bytes32
  rewardId : Bytes32
  assetAmount : I128
  usdcAmount : I128
  networkFeePaise : I128
  starReward : I128
  status : PaymentStatus
  createdLedger : Nat
  updatedLedger : Nat
  deriving DecidableEq, Repr

/-- The `action` topics of the payment events. -/
inductive Action where
  | created | quoted | convert | settled | reward | rewarderr | complete | cancel | failed
  deriving DecidableEq, Repr

inductive ConfigAction where
  | init | admProp | admin | pause | unpause | operator | config
  deriving DecidableEq, Repr

/-- `PaymentEvent` and `PaymentConfigEvent`. -/
inductive Event where
  | payment (action : Action) (paymentId : Bytes32) (actor : Address) (status : PaymentStatus)
      (amount : I128)
  | config (action : ConfigAction) (account counterparty : Address) (flag : Bool)
  deriving DecidableEq, Repr

structure Storage where
  admin : Option Address := none
  initialized : Option Bool := none
  merchantRegistry : Option Address := none
  operator : Address → Option Bool := fun _ => none
  paused : Option Bool := none
  payment : Bytes32 → Option PaymentRecord := fun _ => none
  pendingAdmin : Option Address := none
  rewardEngine : Option Address := none
  events : List Event := []

/-- The arguments of `issue_spend_reward`. -/
structure SpendReward where
  issuer : Address
  rewardId : Bytes32
  recipient : Address
  sourceId : Bytes32
  amountInPaise : I128
  deriving DecidableEq, Repr

/-- `is_approved` and `issue_spend_reward` of the contracts at an address. -/
structure Clients (ω : Type) where
  isApproved : (registry : Address) → Bytes32 → Reply ω Bool
  issueSpendReward : (rewardEngine : Address) → SpendReward → Reply ω I128

abbrev Engine := Call PaymentEngineError Storage

/-! ### Storage access -/

namespace Storage

def isInitialized (s : Storage) : Bool := s.initialized.getD false

def isPaused (s : Storage) : Bool := s.paused.getD false

def isOperator (s : Storage) (operator : Address) : Bool := (s.operator operator).getD false

def setOperator (s : Storage) (operator : Address) (flag : Bool) : Storage :=
  { s with operator := Function.update s.operator operator (some flag) }

def writePayment (s : Storage) (payment : PaymentRecord) : Storage :=
  { s with payment := Function.update s.payment payment.paymentId (some payment) }

def publish (s : Storage) (e : Event) : Storage := { s with events := s.events ++ [e] }

end Storage

def publish (e : Event) : Engine Unit := modify (·.publish e)

def requireInitialized : Engine Unit := do
  failIf (¬(← get).isInitialized) .notInitialized

def requireNotPaused : Engine Unit := do
  requireInitialized
  failIf ((← get).isPaused) .paused

def readAdmin : Engine Address := do expect (← get).admin

def readMerchantRegistry : Engine Address := do expect (← get).merchantRegistry

def readRewardEngine : Engine Address := do expect (← get).rewardEngine

def requireOperator (operator : Address) : Engine Unit := do
  requireNotPaused
  requireAuth operator
  failIf (¬(← get).isOperator operator) .unauthorized

def hasPayment (paymentId : Bytes32) : Engine Bool := do
  pure ((← get).payment paymentId).isSome

def readPayment (paymentId : Bytes32) : Engine PaymentRecord := do
  okOr ((← get).payment paymentId) .paymentNotFound

def writePayment (payment : PaymentRecord) : Engine Unit := modify (·.writePayment payment)

def touchAndWrite (payment : PaymentRecord) : Engine Unit := do
  writePayment { payment with updatedLedger := ← sequence }

def requireStatus (payment : PaymentRecord) (status : PaymentStatus) : Engine Unit :=
  failIf (payment.status ≠ status) .invalidStatus

def transitionOperator (operator : Address) (paymentId : Bytes32)
    (fromStatus toStatus : PaymentStatus) (event : Action) : Engine Unit := do
  requireOperator operator
  let payment ← readPayment paymentId
  requireStatus payment fromStatus
  touchAndWrite { payment with status := toStatus }
  publish (.payment event paymentId operator toStatus payment.amountInPaise)

/-! ### Entrypoints on the engine's own storage -/

def constructor (admin merchantRegistry rewardEngine : Address) : Engine Unit := do
  requireAuth admin
  modify fun s => { s with
    initialized := some true
    admin := some admin
    paused := some false
    merchantRegistry := some merchantRegistry
    rewardEngine := some rewardEngine }
  modify (·.setOperator admin true)
  publish (.config .init admin rewardEngine true)

def admin : Engine Address := do
  requireInitialized
  readAdmin

def heartbeat : Engine Unit := requireInitialized

def setAdmin (newAdmin : Address) : Engine Unit := do
  requireNotPaused
  let admin ← readAdmin
  requireAuth admin
  modify fun s => { s with pendingAdmin := some newAdmin }
  publish (.config .admProp admin newAdmin true)

/-- The outgoing admin's operator flag is revoked, unless the role was handed to itself. -/
def acceptAdmin : Engine Unit := do
  requireNotPaused
  let pending ← okOr (← get).pendingAdmin .noPendingAdmin
  requireAuth pending
  let oldAdmin ← readAdmin
  if oldAdmin ≠ pending then modify (·.setOperator oldAdmin false) else pure ()
  modify fun s => { s with admin := some pending, pendingAdmin := none }
  modify (·.setOperator pending true)
  publish (.config .admin oldAdmin pending true)

def pause : Engine Unit := do
  let admin ← readAdmin
  requireAuth admin
  modify fun s => { s with paused := some true }
  publish (.config .pause admin admin true)

def unpause : Engine Unit := do
  let admin ← readAdmin
  requireAuth admin
  modify fun s => { s with paused := some false }
  publish (.config .unpause admin admin false)

def paused : Engine Bool := do
  requireInitialized
  pure (← get).isPaused

def setOperator (operator : Address) (enabled : Bool) : Engine Unit := do
  requireNotPaused
  let admin ← readAdmin
  requireAuth admin
  modify (·.setOperator operator enabled)
  publish (.config .operator operator operator enabled)

def setContracts (merchantRegistry rewardEngine : Address) : Engine Unit := do
  requireNotPaused
  let admin ← readAdmin
  requireAuth admin
  modify fun s => { s with
    merchantRegistry := some merchantRegistry
    rewardEngine := some rewardEngine }
  publish (.config .config admin rewardEngine true)

def quotePayment (operator : Address) (paymentId : Bytes32)
    (assetAmount usdcAmount networkFeePaise : I128) : Engine Unit := do
  requireOperator operator
  failIf (assetAmount.val ≤ 0 ∨ usdcAmount.val ≤ 0 ∨ networkFeePaise.val < 0) .invalidAmount
  let payment ← readPayment paymentId
  requireStatus payment .created
  touchAndWrite { payment with assetAmount, usdcAmount, networkFeePaise, status := .quoted }
  publish (.payment .quoted paymentId operator .quoted usdcAmount)

def markConverted (operator : Address) (paymentId : Bytes32) : Engine Unit :=
  transitionOperator operator paymentId .quoted .converted .convert

def markSettled (operator : Address) (paymentId : Bytes32) : Engine Unit :=
  transitionOperator operator paymentId .converted .settled .settled

def completePayment (operator : Address) (paymentId : Bytes32) : Engine Unit :=
  transitionOperator operator paymentId .rewarded .completed .complete

def cancelPayment (payer : Address) (paymentId : Bytes32) : Engine Unit := do
  requireNotPaused
  requireAuth payer
  let payment ← readPayment paymentId
  failIf (payment.payer ≠ payer) .unauthorized
  failIf (payment.status ≠ .created ∧ payment.status ≠ .quoted) .invalidStatus
  touchAndWrite { payment with status := .cancelled }
  publish (.payment .cancel paymentId payer .cancelled payment.amountInPaise)

/-- A failed payment may be failed again. -/
def failPayment (operator : Address) (paymentId : Bytes32) : Engine Unit := do
  requireOperator operator
  let payment ← readPayment paymentId
  failIf (payment.status = .completed ∨ payment.status = .cancelled) .invalidStatus
  touchAndWrite { payment with status := .failed }
  publish (.payment .failed paymentId operator .failed payment.amountInPaise)

def getPayment (paymentId : Bytes32) : Engine PaymentRecord := do
  requireInitialized
  readPayment paymentId

/-! ### Entrypoints that call another contract -/

section Peers

variable {ω : Type} (clients : Clients ω)

def createPayment (operator payer : Address) (paymentId merchantId : Bytes32)
    (asset : AssetCode) (amountInPaise : I128) (qrHash rewardId : Bytes32) :
    Call PaymentEngineError (WithPeers Storage ω) Unit := do
  own requireNotPaused
  own (requireOperator operator)
  failIf (amountInPaise.val ≤ 0) .invalidAmount
  failIf (← own (hasPayment paymentId)) .paymentAlreadyExists
  let registry ← own readMerchantRegistry
  let approved ← invoke registry (clients.isApproved registry merchantId)
  failIf (¬approved) .merchantNotApproved
  let ledger ← sequence
  own (writePayment
    { paymentId, payer, merchantId, asset, amountInPaise, qrHash, rewardId
      assetAmount := 0, usdcAmount := 0, networkFeePaise := 0, starReward := 0
      status := .created, createdLedger := ledger, updatedLedger := ledger })
  own (publish (.payment .created paymentId payer .created amountInPaise))

/-- A reward that cannot be issued does not hold the payment back: it goes on with no reward. -/
def issueReward (operator : Address) (paymentId : Bytes32) :
    Call PaymentEngineError (WithPeers Storage ω) I128 := do
  own (requireOperator operator)
  let payment ← own (readPayment paymentId)
  own (requireStatus payment .settled)
  let rewardEngine ← own readRewardEngine
  let issuer ← currentContractAddress
  let reward ← tryInvoke rewardEngine (clients.issueSpendReward rewardEngine
    { issuer, rewardId := payment.rewardId, recipient := payment.payer,
      sourceId := payment.paymentId, amountInPaise := payment.amountInPaise })
  let amount := reward.getD 0
  own (touchAndWrite { payment with starReward := amount, status := .rewarded })
  own (publish (.payment (if amount.val > 0 then .reward else .rewarderr) paymentId operator
    .rewarded amount))
  pure amount

end Peers

/-! ### The contract -/

/-- The entrypoints with their arguments. -/
inductive Entry where
  | admin
  | heartbeat
  | setAdmin (newAdmin : Address)
  | acceptAdmin
  | pause
  | unpause
  | paused
  | setOperator (operator : Address) (enabled : Bool)
  | setContracts (merchantRegistry rewardEngine : Address)
  | createPayment (operator payer : Address) (paymentId merchantId : Bytes32)
      (asset : AssetCode) (amountInPaise : I128) (qrHash rewardId : Bytes32)
  | quotePayment (operator : Address) (paymentId : Bytes32)
      (assetAmount usdcAmount networkFeePaise : I128)
  | markConverted (operator : Address) (paymentId : Bytes32)
  | markSettled (operator : Address) (paymentId : Bytes32)
  | issueReward (operator : Address) (paymentId : Bytes32)
  | completePayment (operator : Address) (paymentId : Bytes32)
  | cancelPayment (payer : Address) (paymentId : Bytes32)
  | failPayment (operator : Address) (paymentId : Bytes32)
  | getPayment (paymentId : Bytes32)

section Contract

variable {ω : Type} (clients : Clients ω)

def exec : Entry → Call PaymentEngineError (WithPeers Storage ω) Unit
  | .admin => own admin.void
  | .heartbeat => own heartbeat
  | .setAdmin newAdmin => own (setAdmin newAdmin)
  | .acceptAdmin => own acceptAdmin
  | .pause => own pause
  | .unpause => own unpause
  | .paused => own paused.void
  | .setOperator operator enabled => own (setOperator operator enabled)
  | .setContracts registry rewardEngine => own (setContracts registry rewardEngine)
  | .createPayment operator payer paymentId merchantId asset amount qrHash rewardId =>
    createPayment clients operator payer paymentId merchantId asset amount qrHash rewardId
  | .quotePayment operator paymentId assetAmount usdcAmount networkFeePaise =>
    own (quotePayment operator paymentId assetAmount usdcAmount networkFeePaise)
  | .markConverted operator paymentId => own (markConverted operator paymentId)
  | .markSettled operator paymentId => own (markSettled operator paymentId)
  | .issueReward operator paymentId => (issueReward clients operator paymentId).void
  | .completePayment operator paymentId => own (completePayment operator paymentId)
  | .cancelPayment payer paymentId => own (cancelPayment payer paymentId)
  | .failPayment operator paymentId => own (failPayment operator paymentId)
  | .getPayment paymentId => own (getPayment paymentId).void

end Contract

/-- The engine is deployed by a constructor call on empty storage. -/
def Deployed (env : Env) (s : Storage) : Prop :=
  ∃ admin registry rewardEngine,
    (constructor admin registry rewardEngine).run env {} = .ok ((), s)

end PayEra.PaymentEngine
