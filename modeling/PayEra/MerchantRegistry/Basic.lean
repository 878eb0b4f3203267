import PayEra.Lib.Soroban

/-!
# The merchant registry contract

`contracts/merchant-registry/src/lib.rs`. The admin registers merchants and reviews them; a merchant's
owner may change its metadata and hand it on.
-/

namespace PayEra.MerchantRegistry

open Soroban Soroban.Call

inductive MerchantRegistryError where
  | alreadyInitialized
  | notInitialized
  | paused
  | merchantAlreadyExists
  | merchantNotFound
  | invalidStatus
  | unauthorized
  | noPendingAdmin
  deriving DecidableEq, Repr

inductive MerchantStatus where
  | pending
  | approved
  | suspended
  | rejected
  deriving DecidableEq, Repr

structure MerchantRecord where
  merchantId : Bytes32
  owner : Address
  upiIdHash : Bytes32
  metadataHash : Bytes32
  status : MerchantStatus
  createdLedger : Nat
  updatedLedger : Nat
  deriving DecidableEq, Repr

/-- The `action` topics of the merchant events. -/
inductive Action where
  | regMerch | approve | suspend | reject | metadata | owner
  deriving DecidableEq, Repr

inductive ConfigAction where
  | init | admProp | admin | pause | unpause
  deriving DecidableEq, Repr

/-- `MerchantEvent` and `RegistryConfigEvent`. -/
inductive Event where
  | merchant (action : Action) (merchantId : Bytes32) (account : Address) (status : MerchantStatus)
      (flag : Bool)
  | config (action : ConfigAction) (account counterparty : Address) (flag : Bool)
  deriving DecidableEq, Repr

structure Storage where
  admin : Option Address := none
  initialized : Option Bool := none
  merchant : Bytes32 → Option MerchantRecord := fun _ => none
  paused : Option Bool := none
  pendingAdmin : Option Address := none
  events : List Event := []

abbrev Registry := Call MerchantRegistryError Storage

/-! ### Storage access -/

namespace Storage

def isInitialized (s : Storage) : Bool := s.initialized.getD false

def isPaused (s : Storage) : Bool := s.paused.getD false

def writeMerchant (s : Storage) (record : MerchantRecord) : Storage :=
  { s with merchant := Function.update s.merchant record.merchantId (some record) }

def publish (s : Storage) (e : Event) : Storage := { s with events := s.events ++ [e] }

end Storage

def publish (e : Event) : Registry Unit := modify (·.publish e)

def requireInitialized : Registry Unit := do
  failIf (¬(← get).isInitialized) .notInitialized

def requireNotPaused : Registry Unit := do
  requireInitialized
  failIf ((← get).isPaused) .paused

def readAdmin : Registry Address := do expect (← get).admin

def hasMerchant (merchantId : Bytes32) : Registry Bool := do
  pure ((← get).merchant merchantId).isSome

def readMerchant (merchantId : Bytes32) : Registry MerchantRecord := do
  okOr ((← get).merchant merchantId) .merchantNotFound

def writeMerchant (record : MerchantRecord) : Registry Unit := modify (·.writeMerchant record)

/-! ### Administration -/

def constructor (admin : Address) : Registry Unit := do
  requireAuth admin
  modify fun s => { s with initialized := some true, admin := some admin, paused := some false }
  publish (.config .init admin admin true)

def admin : Registry Address := do
  requireInitialized
  readAdmin

def heartbeat : Registry Unit := requireInitialized

def setAdmin (newAdmin : Address) : Registry Unit := do
  requireNotPaused
  let admin ← readAdmin
  requireAuth admin
  modify fun s => { s with pendingAdmin := some newAdmin }
  publish (.config .admProp admin newAdmin true)

def acceptAdmin : Registry Unit := do
  requireNotPaused
  let pending ← okOr (← get).pendingAdmin .noPendingAdmin
  requireAuth pending
  let oldAdmin ← readAdmin
  modify fun s => { s with admin := some pending, pendingAdmin := none }
  publish (.config .admin oldAdmin pending true)

def pause : Registry Unit := do
  let admin ← readAdmin
  requireAuth admin
  modify fun s => { s with paused := some true }
  publish (.config .pause admin admin true)

def unpause : Registry Unit := do
  let admin ← readAdmin
  requireAuth admin
  modify fun s => { s with paused := some false }
  publish (.config .unpause admin admin false)

def paused : Registry Bool := do
  requireInitialized
  pure (← get).isPaused

/-! ### Merchants -/

def registerMerchant (merchantId : Bytes32) (owner : Address) (upiIdHash metadataHash : Bytes32) :
    Registry Unit := do
  requireNotPaused
  let admin ← readAdmin
  requireAuth admin
  failIf (← hasMerchant merchantId) .merchantAlreadyExists
  let ledger ← sequence
  writeMerchant
    { merchantId, owner, upiIdHash, metadataHash, status := .pending, createdLedger := ledger
      updatedLedger := ledger }
  publish (.merchant .regMerch merchantId owner .pending true)

/-- Only a rejected merchant cannot be approved. -/
def approveMerchant (merchantId : Bytes32) : Registry Unit := do
  requireNotPaused
  let admin ← readAdmin
  requireAuth admin
  let record ← readMerchant merchantId
  failIf (record.status = .rejected) .invalidStatus
  writeMerchant { record with status := .approved, updatedLedger := ← sequence }
  publish (.merchant .approve merchantId record.owner .approved true)

def suspendMerchant (merchantId : Bytes32) : Registry Unit := do
  requireNotPaused
  let admin ← readAdmin
  requireAuth admin
  let record ← readMerchant merchantId
  failIf (record.status ≠ .approved) .invalidStatus
  writeMerchant { record with status := .suspended, updatedLedger := ← sequence }
  publish (.merchant .suspend merchantId record.owner .suspended false)

def rejectMerchant (merchantId : Bytes32) : Registry Unit := do
  requireNotPaused
  let admin ← readAdmin
  requireAuth admin
  let record ← readMerchant merchantId
  failIf (record.status ≠ .pending) .invalidStatus
  writeMerchant { record with status := .rejected, updatedLedger := ← sequence }
  publish (.merchant .reject merchantId record.owner .rejected false)

def updateMetadata (merchantId metadataHash : Bytes32) : Registry Unit := do
  requireNotPaused
  let record ← readMerchant merchantId
  requireAuth record.owner
  writeMerchant { record with metadataHash, updatedLedger := ← sequence }
  publish (.merchant .metadata merchantId record.owner record.status true)

def transferOwner (merchantId : Bytes32) (newOwner : Address) : Registry Unit := do
  requireNotPaused
  let record ← readMerchant merchantId
  requireAuth record.owner
  writeMerchant { record with owner := newOwner, updatedLedger := ← sequence }
  publish (.merchant .owner merchantId newOwner record.status true)

def getMerchant (merchantId : Bytes32) : Registry MerchantRecord := do
  requireInitialized
  readMerchant merchantId

def isApproved (merchantId : Bytes32) : Registry Bool := do
  requireInitialized
  let record ← readMerchant merchantId
  pure (record.status = .approved)

/-! ### The contract -/

/-- The entrypoints with their arguments. -/
inductive Entry where
  | admin
  | heartbeat
  | setAdmin (newAdmin : Address)
  | acceptAdmin
  | pause
  | unpause
  | paused
  | registerMerchant (merchantId : Bytes32) (owner : Address) (upiIdHash metadataHash : Bytes32)
  | approveMerchant (merchantId : Bytes32)
  | suspendMerchant (merchantId : Bytes32)
  | rejectMerchant (merchantId : Bytes32)
  | updateMetadata (merchantId metadataHash : Bytes32)
  | transferOwner (merchantId : Bytes32) (newOwner : Address)
  | getMerchant (merchantId : Bytes32)
  | isApproved (merchantId : Bytes32)
  deriving DecidableEq

def exec : Entry → Registry Unit
  | .admin => admin.void
  | .heartbeat => heartbeat
  | .setAdmin newAdmin => setAdmin newAdmin
  | .acceptAdmin => acceptAdmin
  | .pause => pause
  | .unpause => unpause
  | .paused => paused.void
  | .registerMerchant merchantId owner upiIdHash metadataHash =>
    registerMerchant merchantId owner upiIdHash metadataHash
  | .approveMerchant merchantId => approveMerchant merchantId
  | .suspendMerchant merchantId => suspendMerchant merchantId
  | .rejectMerchant merchantId => rejectMerchant merchantId
  | .updateMetadata merchantId metadataHash => updateMetadata merchantId metadataHash
  | .transferOwner merchantId newOwner => transferOwner merchantId newOwner
  | .getMerchant merchantId => (getMerchant merchantId).void
  | .isApproved merchantId => (isApproved merchantId).void

/-- The registry is deployed by a constructor call on empty storage. -/
def Deployed (env : Env) (s : Storage) : Prop :=
  ∃ admin, (constructor admin).run env {} = .ok ((), s)

end PayEra.MerchantRegistry
