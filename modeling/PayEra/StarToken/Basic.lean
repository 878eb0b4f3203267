import PayEra.Lib.Soroban

/-!
# The STAR token contract

`contracts/star-token/src/lib.rs`, entrypoint by entrypoint. A storage key of `DataKey` is a
field of `Storage`; a key that was never written is `none`, and the `read_` functions supply the
contract's defaults.
-/

namespace PayEra.StarToken

open Soroban Soroban.Call

def STAR_DECIMALS : UInt32 := 0

inductive StarTokenError where
  | alreadyInitialized
  | notInitialized
  | invalidAmount
  | insufficientBalance
  | insufficientAllowance
  | allowanceExpired
  | supplyCapExceeded
  | paused
  | accountNotAuthorized
  | noPendingAdmin
  deriving DecidableEq, Repr

structure TokenMetadata where
  name : String
  symbol : String
  decimals : UInt32
  maxSupply : I128
  deriving DecidableEq, Repr

/-- One basis point is 0.01%. -/
structure FeeBurnConfig where
  enabled : Bool
  feeBasisPoints : UInt32
  feeRecipient : Address
  deriving DecidableEq, Repr

/-- The `action` topics. -/
inductive Action where
  | init | admProp | admin | feeburn | burnfee | pause | unpause | minter | auth | mint
  | approve | transfer | burn
  deriving DecidableEq, Repr

structure StarEvent where
  action : Action
  account : Address
  counterparty : Address
  amount : I128
  flag : Bool
  deriving DecidableEq, Repr

structure AllowanceValue where
  amount : I128
  expirationLedger : Nat
  deriving DecidableEq, Repr

/-- The contract's storage and the events it has published. -/
structure Storage where
  admin : Option Address := none
  allowance : Address → Address → Option AllowanceValue := fun _ _ => none
  authorized : Address → Option Bool := fun _ => none
  balance : Address → Option I128 := fun _ => none
  initialized : Option Bool := none
  metadata : Option TokenMetadata := none
  minter : Address → Option Bool := fun _ => none
  paused : Option Bool := none
  pendingAdmin : Option Address := none
  totalSupply : Option I128 := none
  feeBurnConfig : Option FeeBurnConfig := none
  events : List StarEvent := []

/-- A destination: an address and, possibly, a multiplexing id. -/
structure MuxedAddress where
  address : Address
  muxId : Option Nat

abbrev Star := Call StarTokenError Storage

/-! ### Storage access -/

namespace Storage

def isInitialized (s : Storage) : Bool := s.initialized.getD false

def isPaused (s : Storage) : Bool := s.paused.getD false

def readTotalSupply (s : Storage) : I128 := s.totalSupply.getD 0

def isMinter (s : Storage) (id : Address) : Bool := (s.minter id).getD false

/-- STAR has a freeze list, not an allow list: an address is authorized until it is frozen. -/
def isAuthorized (s : Storage) (id : Address) : Bool := (s.authorized id).getD true

def readBalance (s : Storage) (id : Address) : I128 := (s.balance id).getD 0

def setBalance (s : Storage) (id : Address) (amount : I128) : Storage :=
  { s with balance := Function.update s.balance id (some amount) }

def setTotalSupply (s : Storage) (supply : I128) : Storage :=
  { s with totalSupply := some supply }

def setAuthorized (s : Storage) (id : Address) (flag : Bool) : Storage :=
  { s with authorized := Function.update s.authorized id (some flag) }

def setMinter (s : Storage) (id : Address) (flag : Bool) : Storage :=
  { s with minter := Function.update s.minter id (some flag) }

def setAllowance (s : Storage) (fromAddr spender : Address) (v : AllowanceValue) : Storage :=
  { s with allowance :=
      Function.update s.allowance fromAddr (Function.update (s.allowance fromAddr) spender (some v)) }

def publish (s : Storage) (e : StarEvent) : Storage := { s with events := s.events ++ [e] }

/-- `get_fee_burn_config`'s and `burn_fee`'s default. -/
def readFeeBurnConfig (s : Storage) (self : Address) : FeeBurnConfig :=
  s.feeBurnConfig.getD { enabled := false, feeBasisPoints := 0, feeRecipient := self }

end Storage

def publish (e : StarEvent) : Star Unit := modify (·.publish e)

def requireInitialized : Star Unit := do
  failIf (¬(← get).isInitialized) .notInitialized

def requireNotPaused : Star Unit := do
  requireInitialized
  failIf ((← get).isPaused) .paused

def readAdmin : Star Address := do expect (← get).admin

def readMetadata : Star TokenMetadata := do expect (← get).metadata

def requireAuthorized (id : Address) : Star Unit := do
  failIf (¬(← get).isAuthorized id) .accountNotAuthorized

def requirePositive (amount : I128) : Star Unit := failIf (amount.val ≤ 0) .invalidAmount

def addBalance (id : Address) (amount : I128) : Star Unit := do
  let next ← okOr (((← get).readBalance id).checkedAdd amount) .invalidAmount
  modify (·.setBalance id next)

def subBalance (id : Address) (amount : I128) : Star Unit := do
  let current := (← get).readBalance id
  failIf (current.val < amount.val) .insufficientBalance
  let next ← okOr (current.checkedSub amount) .insufficientBalance
  modify (·.setBalance id next)

def transferInternal (fromAddr toAddr : Address) (amount : I128) : Star Unit := do
  requirePositive amount
  requireAuthorized fromAddr
  requireAuthorized toAddr
  subBalance fromAddr amount
  addBalance toAddr amount

def burnInternal (fromAddr : Address) (amount : I128) : Star Unit := do
  requirePositive amount
  requireAuthorized fromAddr
  subBalance fromAddr amount
  let nextSupply ← okOr ((← get).readTotalSupply.checkedSub amount) .invalidAmount
  modify (·.setTotalSupply nextSupply)

def readAllowance (fromAddr spender : Address) : Star I128 := do
  match (← get).allowance fromAddr spender with
  | none => pure 0
  | some allowance =>
    if allowance.expirationLedger < (← sequence) then pure 0 else pure allowance.amount

def spendAllowance (fromAddr spender : Address) (amount : I128) : Star Unit := do
  requirePositive amount
  let allowance ← okOr ((← get).allowance fromAddr spender) .insufficientAllowance
  failIf (allowance.expirationLedger < (← sequence)) .allowanceExpired
  failIf (allowance.amount.val < amount.val) .insufficientAllowance
  let nextAmount ← okOr (allowance.amount.checkedSub amount) .insufficientAllowance
  modify (·.setAllowance fromAddr spender
    { amount := nextAmount, expirationLedger := allowance.expirationLedger })

/-! ### Entrypoints -/

/-- `__constructor`. It cannot return an error, so an invalid `max_supply` traps and aborts the
deployment. -/
def constructor (admin : Address) (name symbol : String) (maxSupply : I128) : Star Unit := do
  if maxSupply.val ≤ 0 then trap else pure ()
  requireAuth admin
  modify fun s => { s with
    initialized := some true
    admin := some admin
    metadata := some { name, symbol, decimals := STAR_DECIMALS, maxSupply }
    totalSupply := some 0
    paused := some false }
  modify (·.setAuthorized admin true)
  modify (·.setMinter admin true)
  publish { action := .init, account := admin, counterparty := admin, amount := maxSupply,
            flag := true }

def admin : Star Address := do
  requireInitialized
  readAdmin

def heartbeat : Star Unit := requireInitialized

def setAdmin (newAdmin : Address) : Star Unit := do
  requireNotPaused
  let admin ← readAdmin
  requireAuth admin
  modify fun s => { s with pendingAdmin := some newAdmin }
  publish { action := .admProp, account := admin, counterparty := newAdmin, amount := 0,
            flag := true }

/-- The proposed admin claims the role; the outgoing admin's flags are revoked, unless the role
was handed to itself. -/
def acceptAdmin : Star Unit := do
  requireNotPaused
  let pending ← okOr (← get).pendingAdmin .noPendingAdmin
  requireAuth pending
  let oldAdmin ← readAdmin
  if oldAdmin ≠ pending then
    modify fun s => (s.setMinter oldAdmin false).setAuthorized oldAdmin false
  else pure ()
  modify fun s => { s with admin := some pending, pendingAdmin := none }
  modify (·.setAuthorized pending true)
  modify (·.setMinter pending true)
  publish { action := .admin, account := oldAdmin, counterparty := pending, amount := 0,
            flag := true }

def setFeeBurnConfig (enabled : Bool) (feeBasisPoints : UInt32) (feeRecipient : Address) :
    Star Unit := do
  requireNotPaused
  let admin ← readAdmin
  requireAuth admin
  failIf (feeBasisPoints > 10000) .invalidAmount
  modify fun s => { s with feeBurnConfig := some { enabled, feeBasisPoints, feeRecipient } }
  publish { action := .feeburn, account := admin, counterparty := feeRecipient,
            amount := .ofUInt32 feeBasisPoints, flag := enabled }

def getFeeBurnConfig : Star FeeBurnConfig := do
  requireInitialized
  let self ← currentContractAddress
  pure ((← get).readFeeBurnConfig self)

lemma basisPoints_inRange : -2 ^ 127 ≤ (10000 : Int) ∧ (10000 : Int) < 2 ^ 127 := by decide

/-- The fee is rounded down, and taken directly from the payer's balance and the supply. -/
def burnFee (fromAddr : Address) (amount : I128) : Star I128 := do
  requireNotPaused
  requirePositive amount
  requireAuth fromAddr
  let self ← currentContractAddress
  let config := (← get).readFeeBurnConfig self
  if !config.enabled || config.feeBasisPoints = 0 then pure 0 else
    let product ← okOr (amount.checkedMul (.ofUInt32 config.feeBasisPoints)) .invalidAmount
    let feeAmount ← expect (product.checkedDiv (.lit 10000 basisPoints_inRange))
    if feeAmount = 0 then pure 0 else
      burnInternal fromAddr feeAmount
      publish { action := .burnfee, account := fromAddr, counterparty := config.feeRecipient,
                amount := feeAmount, flag := true }
      pure feeAmount

def pause : Star Unit := do
  let admin ← readAdmin
  requireAuth admin
  modify fun s => { s with paused := some true }
  publish { action := .pause, account := admin, counterparty := admin, amount := 0,
            flag := true }

def unpause : Star Unit := do
  let admin ← readAdmin
  requireAuth admin
  modify fun s => { s with paused := some false }
  publish { action := .unpause, account := admin, counterparty := admin, amount := 0,
            flag := false }

def paused : Star Bool := do
  requireInitialized
  pure (← get).isPaused

/-- A minter must be able to receive STAR as well, so enabling one also thaws it. -/
def setMinter (minter : Address) (enabled : Bool) : Star Unit := do
  requireNotPaused
  let admin ← readAdmin
  requireAuth admin
  modify (·.setMinter minter enabled)
  if enabled then modify (·.setAuthorized minter true) else pure ()
  publish { action := .minter, account := minter, counterparty := minter, amount := 0,
            flag := enabled }

def isMinter (minter : Address) : Star Bool := do
  requireInitialized
  pure ((← get).isMinter minter)

def setAuthorized (id : Address) (authorize : Bool) : Star Unit := do
  requireNotPaused
  let admin ← readAdmin
  requireAuth admin
  modify (·.setAuthorized id authorize)
  publish { action := .auth, account := id, counterparty := id, amount := 0, flag := authorize }

def authorized (id : Address) : Star Bool := do
  requireInitialized
  pure ((← get).isAuthorized id)

/-- The cap check that both mint entrypoints make before they credit anyone. -/
def nextSupply (amount : I128) : Star I128 := do
  let metadata ← readMetadata
  let next ← okOr ((← get).readTotalSupply.checkedAdd amount) .supplyCapExceeded
  failIf (next.val > metadata.maxSupply.val) .supplyCapExceeded
  pure next

def mint (toAddr : Address) (amount : I128) : Star Unit := do
  requireNotPaused
  requirePositive amount
  requireAuthorized toAddr
  requireAuth (← readAdmin)
  let next ← nextSupply amount
  addBalance toAddr amount
  modify (·.setTotalSupply next)
  publish { action := .mint, account := toAddr, counterparty := toAddr, amount, flag := true }

def mintFromMinter (minter toAddr : Address) (amount : I128) : Star Unit := do
  requireNotPaused
  requirePositive amount
  requireAuthorized toAddr
  requireAuth minter
  failIf (¬(← get).isMinter minter) .accountNotAuthorized
  let next ← nextSupply amount
  addBalance toAddr amount
  modify (·.setTotalSupply next)
  publish { action := .mint, account := minter, counterparty := toAddr, amount, flag := true }

def allowance (fromAddr spender : Address) : Star I128 := do
  requireInitialized
  readAllowance fromAddr spender

def approve (fromAddr spender : Address) (amount : I128) (expirationLedger : Nat) :
    Star Unit := do
  requireNotPaused
  failIf (amount.val < 0) .invalidAmount
  requireAuth fromAddr
  requireAuthorized fromAddr
  requireAuthorized spender
  failIf (amount.val > 0 ∧ expirationLedger < (← sequence)) .allowanceExpired
  modify (·.setAllowance fromAddr spender { amount, expirationLedger })
  publish { action := .approve, account := fromAddr, counterparty := spender, amount,
            flag := true }

def balance (id : Address) : Star I128 := do
  requireInitialized
  pure ((← get).readBalance id)

def transfer (fromAddr : Address) (toAddr : MuxedAddress) (amount : I128) : Star Unit := do
  requireNotPaused
  requireAuth fromAddr
  transferInternal fromAddr toAddr.address amount
  publish { action := .transfer, account := fromAddr, counterparty := toAddr.address, amount,
            flag := true }

def transferFrom (spender fromAddr toAddr : Address) (amount : I128) : Star Unit := do
  requireNotPaused
  requireAuth spender
  spendAllowance fromAddr spender amount
  transferInternal fromAddr toAddr amount
  publish { action := .transfer, account := fromAddr, counterparty := toAddr, amount, flag := true }

def burn (fromAddr : Address) (amount : I128) : Star Unit := do
  requireNotPaused
  requireAuth fromAddr
  burnInternal fromAddr amount
  publish { action := .burn, account := fromAddr, counterparty := fromAddr, amount, flag := true }

def burnFrom (spender fromAddr : Address) (amount : I128) : Star Unit := do
  requireNotPaused
  requireAuth spender
  spendAllowance fromAddr spender amount
  burnInternal fromAddr amount
  publish { action := .burn, account := fromAddr, counterparty := fromAddr, amount, flag := true }

def decimals : Star UInt32 := do
  requireInitialized
  pure (← readMetadata).decimals

def name : Star String := do
  requireInitialized
  pure (← readMetadata).name

def symbol : Star String := do
  requireInitialized
  pure (← readMetadata).symbol

def totalSupply : Star I128 := do
  requireInitialized
  pure (← get).readTotalSupply

def maxSupply : Star I128 := do
  requireInitialized
  pure (← readMetadata).maxSupply

/-! ### The contract -/

/-- The entrypoints with their arguments. -/
inductive Entry where
  | admin
  | heartbeat
  | setAdmin (newAdmin : Address)
  | acceptAdmin
  | setFeeBurnConfig (enabled : Bool) (feeBasisPoints : UInt32) (feeRecipient : Address)
  | getFeeBurnConfig
  | burnFee (fromAddr : Address) (amount : I128)
  | pause
  | unpause
  | paused
  | setMinter (minter : Address) (enabled : Bool)
  | isMinter (minter : Address)
  | setAuthorized (id : Address) (authorize : Bool)
  | authorized (id : Address)
  | mint (toAddr : Address) (amount : I128)
  | mintFromMinter (minter toAddr : Address) (amount : I128)
  | allowance (fromAddr spender : Address)
  | approve (fromAddr spender : Address) (amount : I128) (expirationLedger : Nat)
  | balance (id : Address)
  | transfer (fromAddr : Address) (toAddr : MuxedAddress) (amount : I128)
  | transferFrom (spender fromAddr toAddr : Address) (amount : I128)
  | burn (fromAddr : Address) (amount : I128)
  | burnFrom (spender fromAddr : Address) (amount : I128)
  | decimals
  | name
  | symbol
  | totalSupply
  | maxSupply

def exec : Entry → Star Unit
  | .admin => admin.void
  | .heartbeat => heartbeat
  | .setAdmin newAdmin => setAdmin newAdmin
  | .acceptAdmin => acceptAdmin
  | .setFeeBurnConfig enabled bps recipient => setFeeBurnConfig enabled bps recipient
  | .getFeeBurnConfig => getFeeBurnConfig.void
  | .burnFee fromAddr amount => (burnFee fromAddr amount).void
  | .pause => pause
  | .unpause => unpause
  | .paused => paused.void
  | .setMinter minter enabled => setMinter minter enabled
  | .isMinter minter => (isMinter minter).void
  | .setAuthorized id authorize => setAuthorized id authorize
  | .authorized id => (authorized id).void
  | .mint toAddr amount => mint toAddr amount
  | .mintFromMinter minter toAddr amount => mintFromMinter minter toAddr amount
  | .allowance fromAddr spender => (allowance fromAddr spender).void
  | .approve fromAddr spender amount expiration => approve fromAddr spender amount expiration
  | .balance id => (balance id).void
  | .transfer fromAddr toAddr amount => transfer fromAddr toAddr amount
  | .transferFrom spender fromAddr toAddr amount => transferFrom spender fromAddr toAddr amount
  | .burn fromAddr amount => burn fromAddr amount
  | .burnFrom spender fromAddr amount => burnFrom spender fromAddr amount
  | .decimals => decimals.void
  | .name => name.void
  | .symbol => symbol.void
  | .totalSupply => totalSupply.void
  | .maxSupply => maxSupply.void

/-- The contract is deployed by a constructor call on empty storage. -/
def Deployed (env : Env) (s : Storage) : Prop :=
  ∃ admin name symbol maxSupply,
    (constructor admin name symbol maxSupply).run env {} = .ok ((), s)

/-- STAR as a system: every sequence of entrypoint calls after a deployment. -/
def system : Transition.System (OnLedger Storage) (Env × Entry) := contract Deployed exec

end PayEra.StarToken
