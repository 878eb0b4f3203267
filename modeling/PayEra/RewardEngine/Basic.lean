import PayEra.Lib.Soroban

/-!
# The reward engine contract

`contracts/reward-engine/src/lib.rs`. The engine mints through a STAR token contract at a
configured address; what that contract does is a parameter, the `StarTokenClient`, over the state
`ω` of the contracts the engine can reach.
-/

namespace PayEra.RewardEngine

open Soroban Soroban.Call

def SPEND_REWARD_STAR_PER_100_INR : I128 := .lit 10

def PAISE_PER_100_INR : I128 := .lit 10000

def REFERRAL_REWARD_STAR : I128 := .lit 100

inductive RewardEngineError where
  | alreadyInitialized
  | notInitialized
  | paused
  | unauthorized
  | invalidAmount
  | rewardAlreadyIssued
  | rewardNotFound
  | noPendingAdmin
  deriving DecidableEq, Repr

inductive RewardKind where
  | spend
  | referral
  | campaign
  deriving DecidableEq, Repr

structure RewardRecord where
  rewardId : Bytes32
  recipient : Address
  sourceId : Bytes32
  issuer : Address
  kind : RewardKind
  amountStar : I128
  createdLedger : Nat
  deriving DecidableEq, Repr

inductive ConfigAction where
  | init | admProp | admin | pause | unpause | star | issuer
  deriving DecidableEq, Repr

/-- `RewardIssuedEvent` and `RewardConfigEvent`. -/
inductive Event where
  | issued (rewardId : Bytes32) (recipient issuer : Address) (kind : RewardKind)
      (amountStar : I128)
  | config (action : ConfigAction) (account counterparty : Address) (flag : Bool)
  deriving DecidableEq, Repr

structure Storage where
  admin : Option Address := none
  authorizedIssuer : Address → Option Bool := fun _ => none
  initialized : Option Bool := none
  paused : Option Bool := none
  pendingAdmin : Option Address := none
  reward : Bytes32 → Option RewardRecord := fun _ => none
  starToken : Option Address := none
  events : List Event := []

/-- `mint_from_minter` of the contract at an address. -/
abbrev StarTokenClient (ω : Type) := (token minter toAddr : Address) → I128 → Reply ω Unit

abbrev Engine := Call RewardEngineError Storage

/-! ### Storage access -/

namespace Storage

def isInitialized (s : Storage) : Bool := s.initialized.getD false

def isPaused (s : Storage) : Bool := s.paused.getD false

def isAuthorizedIssuer (s : Storage) (issuer : Address) : Bool :=
  (s.authorizedIssuer issuer).getD false

def setIssuer (s : Storage) (issuer : Address) (flag : Bool) : Storage :=
  { s with authorizedIssuer := Function.update s.authorizedIssuer issuer (some flag) }

def setReward (s : Storage) (record : RewardRecord) : Storage :=
  { s with reward := Function.update s.reward record.rewardId (some record) }

def publish (s : Storage) (e : Event) : Storage := { s with events := s.events ++ [e] }

end Storage

def publish (e : Event) : Engine Unit := modify (·.publish e)

def requireInitialized : Engine Unit := do
  failIf (¬(← get).isInitialized) .notInitialized

def requireNotPaused : Engine Unit := do
  requireInitialized
  failIf ((← get).isPaused) .paused

def readAdmin : Engine Address := do expect (← get).admin

def readStarToken : Engine Address := do expect (← get).starToken

def readReward (rewardId : Bytes32) : Engine RewardRecord := do
  okOr ((← get).reward rewardId) .rewardNotFound

/-! ### Entrypoints on the engine's own storage -/

def constructor (admin starToken : Address) : Engine Unit := do
  requireAuth admin
  modify fun s => { s with
    initialized := some true
    admin := some admin
    paused := some false
    starToken := some starToken }
  modify (·.setIssuer admin true)
  publish (.config .init admin starToken true)

def admin : Engine Address := do
  requireInitialized
  readAdmin

def heartbeat : Engine Unit := requireInitialized

def setAdmin (newAdmin : Address) : Engine Unit := do
  requireNotPaused
  let admin ← readAdmin
  requireAuth admin
  modify fun s => { s with pendingAdmin := some newAdmin }
  publish (.config .admProp admin newAdmin true)

/-- The outgoing admin's issuer flag is revoked, unless the role was handed to itself. -/
def acceptAdmin : Engine Unit := do
  requireNotPaused
  let pending ← okOr (← get).pendingAdmin .noPendingAdmin
  requireAuth pending
  let oldAdmin ← readAdmin
  if oldAdmin ≠ pending then modify (·.setIssuer oldAdmin false) else pure ()
  modify fun s => { s with admin := some pending, pendingAdmin := none }
  modify (·.setIssuer pending true)
  publish (.config .admin oldAdmin pending true)

def pause : Engine Unit := do
  let admin ← readAdmin
  requireAuth admin
  modify fun s => { s with paused := some true }
  publish (.config .pause admin admin true)

def unpause : Engine Unit := do
  let admin ← readAdmin
  requireAuth admin
  modify fun s => { s with paused := some false }
  publish (.config .unpause admin admin false)

def paused : Engine Bool := do
  requireInitialized
  pure (← get).isPaused

def setStarToken (starToken : Address) : Engine Unit := do
  requireNotPaused
  let admin ← readAdmin
  requireAuth admin
  modify fun s => { s with starToken := some starToken }
  publish (.config .star admin starToken true)

def setIssuer (issuer : Address) (enabled : Bool) : Engine Unit := do
  requireNotPaused
  let admin ← readAdmin
  requireAuth admin
  modify (·.setIssuer issuer enabled)
  publish (.config .issuer issuer issuer enabled)

def isIssuer (issuer : Address) : Engine Bool := do
  requireInitialized
  pure ((← get).isAuthorizedIssuer issuer)

def getReward (rewardId : Bytes32) : Engine RewardRecord := do
  requireInitialized
  readReward rewardId

/-- 10 STAR for every full 100 INR. -/
def calculateSpendReward {σ : Type} (amountInPaise : I128) : Call RewardEngineError σ I128 := do
  failIf (amountInPaise.val ≤ 0) .invalidAmount
  let units ← expect (amountInPaise.checkedDiv PAISE_PER_100_INR)
  okOr (units.checkedMul SPEND_REWARD_STAR_PER_100_INR) .invalidAmount

/-! ### Issuing -/

section Issuing

variable {ω : Type} (star : StarTokenClient ω)

/-- `issue_reward`: the external mint comes before the record is written. -/
def issueReward (issuer : Address) (rewardId : Bytes32) (recipient : Address)
    (sourceId : Bytes32) (kind : RewardKind) (amountStar : I128) :
    Call RewardEngineError (WithPeers Storage ω) I128 := do
  own requireNotPaused
  failIf (amountStar.val ≤ 0) .invalidAmount
  requireAuth issuer
  failIf (¬(← get).own.isAuthorizedIssuer issuer) .unauthorized
  failIf (((← get).own.reward rewardId).isSome) .rewardAlreadyIssued
  let starToken ← own readStarToken
  let minter ← currentContractAddress
  invoke starToken (star starToken minter recipient amountStar)
  let createdLedger ← sequence
  own (modify (·.setReward
    { rewardId, recipient, sourceId, issuer, kind, amountStar, createdLedger }))
  own (publish (.issued rewardId recipient issuer kind amountStar))
  pure amountStar

def issueSpendReward (issuer : Address) (rewardId : Bytes32) (recipient : Address)
    (sourceId : Bytes32) (amountInPaise : I128) :
    Call RewardEngineError (WithPeers Storage ω) I128 := do
  let amountStar ← calculateSpendReward amountInPaise
  failIf (amountStar.val ≤ 0) .invalidAmount
  issueReward star issuer rewardId recipient sourceId .spend amountStar

def issueReferralReward (issuer : Address) (rewardId : Bytes32) (recipient : Address)
    (sourceId : Bytes32) : Call RewardEngineError (WithPeers Storage ω) I128 :=
  issueReward star issuer rewardId recipient sourceId .referral REFERRAL_REWARD_STAR

def issueCampaignReward (issuer : Address) (rewardId : Bytes32) (recipient : Address)
    (sourceId : Bytes32) (amountStar : I128) :
    Call RewardEngineError (WithPeers Storage ω) I128 :=
  issueReward star issuer rewardId recipient sourceId .campaign amountStar

end Issuing

/-! ### The contract -/

/-- The issuing entrypoints with their arguments. -/
inductive Issue where
  | spend (issuer : Address) (rewardId : Bytes32) (recipient : Address) (sourceId : Bytes32)
      (amountInPaise : I128)
  | referral (issuer : Address) (rewardId : Bytes32) (recipient : Address) (sourceId : Bytes32)
  | campaign (issuer : Address) (rewardId : Bytes32) (recipient : Address) (sourceId : Bytes32)
      (amountStar : I128)

/-- The entrypoints with their arguments. -/
inductive Entry where
  | admin
  | heartbeat
  | setAdmin (newAdmin : Address)
  | acceptAdmin
  | pause
  | unpause
  | paused
  | setStarToken (starToken : Address)
  | setIssuer (issuer : Address) (enabled : Bool)
  | isIssuer (issuer : Address)
  | calculateSpendReward (amountInPaise : I128)
  | issue (i : Issue)
  | getReward (rewardId : Bytes32)

section Contract

variable {ω : Type} (star : StarTokenClient ω)

def execIssue : Issue → Call RewardEngineError (WithPeers Storage ω) I128
  | .spend issuer rewardId recipient sourceId amountInPaise =>
    issueSpendReward star issuer rewardId recipient sourceId amountInPaise
  | .referral issuer rewardId recipient sourceId =>
    issueReferralReward star issuer rewardId recipient sourceId
  | .campaign issuer rewardId recipient sourceId amountStar =>
    issueCampaignReward star issuer rewardId recipient sourceId amountStar

def exec : Entry → Call RewardEngineError (WithPeers Storage ω) Unit
  | .admin => own admin.void
  | .heartbeat => own heartbeat
  | .setAdmin newAdmin => own (setAdmin newAdmin)
  | .acceptAdmin => own acceptAdmin
  | .pause => own pause
  | .unpause => own unpause
  | .paused => own paused.void
  | .setStarToken starToken => own (setStarToken starToken)
  | .setIssuer issuer enabled => own (setIssuer issuer enabled)
  | .isIssuer issuer => own (isIssuer issuer).void
  | .calculateSpendReward amountInPaise => (calculateSpendReward amountInPaise).void
  | .issue i => (execIssue star i).void
  | .getReward rewardId => own (getReward rewardId).void

end Contract

/-- The engine is deployed by a constructor call on empty storage. -/
def Deployed (env : Env) (s : Storage) : Prop :=
  ∃ admin starToken, (constructor admin starToken).run env {} = .ok ((), s)

end PayEra.RewardEngine
