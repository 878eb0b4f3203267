import PayEra.Api.Abi
import PayEra.Api.Processor
import PayEra.MerchantRegistry.Lifecycle

/-!
# The reviews of merchants

`apps/api/src/admin/admin.service.ts` and `apps/api/src/merchants/merchants.service.ts`, as far as
they review a merchant. Both write the merchant's row; the admin service then tells the registry,
and goes on if the registry refuses.
-/

namespace PayEra.Api.Merchants

open Soroban (Address Bytes32 Env)
open SorobanService (ServiceCall uuidToBytes32)

/-! ### Identifiers -/

/-- A UUID: 32 digits. -/
structure Uuid where
  digits : List Char
  length_eq : digits.length = 32
  lower : ∀ c ∈ digits, Hex.Lower c
  deriving DecidableEq

/-- The digits in groups of 8, 4, 4, 4 and 12. -/
def Uuid.text (u : Uuid) : String :=
  String.ofList (u.digits.take 8 ++ '-' :: (u.digits.drop 8).take 4 ++
    '-' :: (u.digits.drop 12).take 4 ++ '-' :: (u.digits.drop 16).take 4 ++
    '-' :: u.digits.drop 20)

/-! ### Rows -/

inductive RiskLevel where
  | LOW | MEDIUM | HIGH | BLOCKED
  deriving DecidableEq, Repr

/-- A row of `merchants` with the columns that a review reads or writes. -/
structure MerchantRow where
  id : Uuid
  ownerUserId : Option String
  approvedByAdminId : Option String := none
  displayName : String
  defaultUpiVpa : Option String
  category : Option String := none
  status : MerchantStatus := .PENDING
  riskLevel : RiskLevel := .LOW
  city : Option String := none
  state : Option String := none
  country : String := "IN"
  postalCode : Option String := none
  approvedAt : Option ℕ := none
  metadata : Metadata := []
  deriving DecidableEq

/-- What the admin service logs: the row before and after. -/
structure ReviewLog where
  action : String
  actorUserId : String
  before : MerchantRow
  after : MerchantRow
  targetId : Uuid
  targetType : String
  deriving DecidableEq

structure ReviewMerchantDto where
  riskLevel : Option RiskLevel := none
  metadata : Option Metadata := none

structure UpdateMerchantDto where
  displayName : Option String := none
  defaultUpiVpa : Option String := none
  category : Option String := none
  status : Option MerchantStatus := none
  riskLevel : Option RiskLevel := none
  city : Option String := none
  state : Option String := none
  country : Option String := none
  postalCode : Option String := none
  metadata : Option Metadata := none

inductive ReviewError where
  /-- `findUniqueOrThrow` or `update` without a row. -/
  | recordNotFound
  /-- `NotFoundException("Merchant not found")`. -/
  | merchantNotFound
  /-- `ForbiddenException("Merchant belongs to another user")`. -/
  | forbidden
  /-- The unique column `default_upi_vpa`. -/
  | uniqueConstraint
  deriving DecidableEq, Repr

/-- The table of merchants, the log, and the registry's storage. -/
structure Books where
  merchants : List MerchantRow
  adminLogs : List ReviewLog := []
  registry : MerchantRegistry.Storage

namespace Books

def find (d : Books) (id : Uuid) : Option MerchantRow := d.merchants.find? (·.id = id)

/-- `merchant.update`. -/
def update (d : Books) (id : Uuid) (f : MerchantRow → MerchantRow) : Books :=
  { d with merchants := updateWhere (fun r => r.id = id) f d.merchants }

end Books

/-! ### The registry's service -/

/-- The SDK, the registry's address, and `createHash('sha256')` to hexadecimal digits. -/
structure Platform extends Sdk where
  registry : Address
  sha256 : String → String

/-- When a review runs: its date, and the ledgers of its transactions. -/
structure Moment where
  date : ℕ
  registered : ℕ
  reviewed : ℕ

section Registry

variable (p : Platform)

/-- Transactions are signed with the platform's key. -/
def Platform.env (ledger : ℕ) : Env where
  ledger := ledger
  signed := fun a => decide (a = p.platform)
  invoker := none
  self := p.registry

/-- A call of the service on the registry: simulated, submitted, and polled until it is confirmed.
Nothing if it throws. -/
def send (ledger : ℕ) (c : ServiceCall) (s : MerchantRegistry.Storage) :
    Option MerchantRegistry.Storage := do
  let i ← SorobanService.invocation p.toSdk c
  match ← Host.bind i with
  | .merchantRegistry e => ((MerchantRegistry.exec e).reply (p.env ledger) s).map Prod.snd
  | _ => none

/-- `getMerchant`, which answers `null` for every error. -/
def getMerchant (ledger : ℕ) (merchantId : String) (s : MerchantRegistry.Storage) :
    Option MerchantRegistry.MerchantRecord :=
  ((MerchantRegistry.getMerchant (uuidToBytes32 merchantId)).reply (p.env ledger) s).map Prod.fst

end Registry

/-! ### The admin service -/

namespace AdminService

variable (p : Platform) (t : Moment)

/-- `'0'.repeat(64)`. -/
def zeros : String := String.ofList (List.replicate 64 '0')

/-- The owner of a merchant that has none. -/
def platformDefault : String := "GA6MPSEDZWDYVFN2CLITDXSM2WI545AQATWRPJAA4QKBJKHSLUI5JAE6"

def hashUpiVpa (vpa : String) : String :=
  String.ofList (SorobanService.lastDigits (p.sha256 vpa).toList)

/-- The registration of a merchant that is not on chain yet. -/
def registration (before : MerchantRow) : RegisterMerchant where
  merchantId := before.id.text
  owner := before.ownerUserId.getD platformDefault
  upiIdHash := ((truthy before.defaultUpiVpa).map (hashUpiVpa p)).getD zeros
  metadataHash := zeros

/-- The registry is told of an approval. What is thrown on the way is caught: after a failed
registration nothing is approved. -/
def syncApproval (before : MerchantRow) (s : MerchantRegistry.Storage) : MerchantRegistry.Storage :=
  let registered :=
    match getMerchant p t.registered before.id.text s with
    | some _ => some s
    | none => send p t.registered (.registerMerchant (registration p before)) s
  match registered with
  | some s' => (send p t.reviewed (.approveMerchant before.id.text) s').getD s'
  | none => s

/-- The registry is told of a rejection or a suspension. -/
def sync (c : ServiceCall) (s : MerchantRegistry.Storage) : MerchantRegistry.Storage :=
  (send p t.reviewed c s).getD s

/-- `{ metadata, riskLevel }` of the request, and the new status. -/
def reviewed (dto : ReviewMerchantDto) (status : MerchantStatus) (r : MerchantRow) : MerchantRow :=
  { r with
    metadata := dto.metadata.getD r.metadata
    riskLevel := dto.riskLevel.getD r.riskLevel
    status }

/-- The part that the three reviews share: the row, the log, the registry. -/
def review (actor : Principal) (merchantId : Uuid) (action : String)
    (data : MerchantRow → MerchantRow)
    (onChain : MerchantRow → MerchantRegistry.Storage → MerchantRegistry.Storage) (d : Books) :
    Except ReviewError (MerchantRow × Books) := do
  let before ← (d.find merchantId).elim (throw .recordNotFound) pure
  let after := data before
  let d := d.update merchantId data
  let log : ReviewLog :=
    { action, actorUserId := actor.id, before, after, targetId := merchantId
      targetType := "merchant" }
  pure (after, { d with adminLogs := d.adminLogs ++ [log], registry := onChain before d.registry })

def approveMerchant (actor : Principal) (merchantId : Uuid) (dto : ReviewMerchantDto) :
    Books → Except ReviewError (MerchantRow × Books) :=
  review actor merchantId "merchant.approve"
    (fun r =>
      { reviewed dto .APPROVED r with
        approvedAt := some t.date
        approvedByAdminId := some actor.id })
    (syncApproval p t)

def rejectMerchant (actor : Principal) (merchantId : Uuid) (dto : ReviewMerchantDto) :
    Books → Except ReviewError (MerchantRow × Books) :=
  review actor merchantId "merchant.reject" (reviewed dto .REJECTED)
    (fun _ => sync p t (.rejectMerchant merchantId.text))

def suspendMerchant (actor : Principal) (merchantId : Uuid) (dto : ReviewMerchantDto) :
    Books → Except ReviewError (MerchantRow × Books) :=
  review actor merchantId "merchant.suspend" (reviewed dto .SUSPENDED)
    (fun _ => sync p t (.suspendMerchant merchantId.text))

end AdminService

/-! ### The merchants service -/

namespace MerchantsService

/-- `merchant.update` of one row; nothing happens on chain. -/
def updateRow (id : Uuid) (data : MerchantRow → MerchantRow) (d : Books) :
    Except ReviewError (MerchantRow × Books) := do
  let row ← (d.find id).elim (throw .recordNotFound) pure
  pure (data row, d.update id data)

/-- A request's VPA has no character beyond ASCII. -/
def normalizeUpiVpa (upiVpa : String) : String := upiVpa.trimAscii.toString.toLower

/-- `findOne` with `assertMerchantAccess`. -/
def findOne (owner : Principal) (id : Uuid) (d : Books) : Except ReviewError MerchantRow := do
  let merchant ← (d.find id).elim (throw .merchantNotFound) pure
  if owner.role = .ADMIN ∨ merchant.ownerUserId = some owner.id then pure merchant
  else throw .forbidden

/-- The VPA that an update sets belongs to another merchant. -/
def vpaTaken (id : Uuid) (dto : UpdateMerchantDto) (d : Books) : Bool :=
  d.merchants.any fun r =>
    decide (r.id ≠ id) && dto.defaultUpiVpa.isSome &&
      decide (r.defaultUpiVpa = dto.defaultUpiVpa.map normalizeUpiVpa)

def update (owner : Principal) (id : Uuid) (dto : UpdateMerchantDto) (date : ℕ) (d : Books) :
    Except ReviewError (MerchantRow × Books) := do
  let _ ← findOne owner id d
  if vpaTaken id dto d then throw .uniqueConstraint
  updateRow id
    (fun r =>
      { r with
        category := dto.category <|> r.category
        city := dto.city <|> r.city
        country := dto.country.getD r.country
        defaultUpiVpa := dto.defaultUpiVpa.map normalizeUpiVpa <|> r.defaultUpiVpa
        displayName := dto.displayName.getD r.displayName
        metadata := dto.metadata.getD r.metadata
        postalCode := dto.postalCode <|> r.postalCode
        riskLevel := dto.riskLevel.getD r.riskLevel
        state := dto.state <|> r.state
        status := if owner.role = .ADMIN then dto.status.getD r.status else r.status
        approvedAt :=
          if owner.role = .ADMIN ∧ dto.status = some .APPROVED then some date else r.approvedAt
        approvedByAdminId :=
          if owner.role = .ADMIN ∧ dto.status = some .APPROVED then some owner.id
          else r.approvedByAdminId })
    d

def approve (admin : Principal) (id : Uuid) (date : ℕ) :
    Books → Except ReviewError (MerchantRow × Books) :=
  updateRow id fun r =>
    { r with approvedAt := some date, approvedByAdminId := some admin.id, status := .APPROVED }

def reject (id : Uuid) : Books → Except ReviewError (MerchantRow × Books) :=
  updateRow id fun r => { r with status := .REJECTED }

def suspend (id : Uuid) : Books → Except ReviewError (MerchantRow × Books) :=
  updateRow id fun r => { r with status := .SUSPENDED }

end MerchantsService

/-! ### The reviews as a system -/

/-- The reviews of both services. -/
inductive Review where
  | adminApprove (actor : Principal) (merchantId : Uuid) (dto : ReviewMerchantDto)
  | adminReject (actor : Principal) (merchantId : Uuid) (dto : ReviewMerchantDto)
  | adminSuspend (actor : Principal) (merchantId : Uuid) (dto : ReviewMerchantDto)
  | update (owner : Principal) (id : Uuid) (dto : UpdateMerchantDto)
  | approve (admin : Principal) (id : Uuid)
  | reject (id : Uuid)
  | suspend (id : Uuid)

def Review.exec (p : Platform) (t : Moment) : Review → Books →
    Except ReviewError (MerchantRow × Books)
  | .adminApprove actor merchantId dto => AdminService.approveMerchant p t actor merchantId dto
  | .adminReject actor merchantId dto => AdminService.rejectMerchant p t actor merchantId dto
  | .adminSuspend actor merchantId dto => AdminService.suspendMerchant p t actor merchantId dto
  | .update owner id dto => MerchantsService.update owner id dto t.date
  | .approve admin id => MerchantsService.approve admin id t.date
  | .reject id => MerchantsService.reject id
  | .suspend id => MerchantsService.suspend id

/-- A review that throws has changed nothing. -/
def Books.settle (d : Books) : Except ReviewError (MerchantRow × Books) → Books
  | .ok (_, d') => d'
  | .error _ => d

def Review.after (p : Platform) (t : Moment) (r : Review) (d : Books) : Books :=
  d.settle (r.exec p t d)

/-- Reviews one after the other, over a deployed registry that is not paused and whose admin is the
platform's key. -/
def system (p : Platform) : Transition.System Books (Review × Moment) where
  Init d := (∃ ledger, MerchantRegistry.system.Reachable ⟨ledger, d.registry⟩) ∧
    d.registry.admin = some p.platform ∧ d.registry.isPaused = false
  Step d l d' := d' = l.1.after p l.2 d

end PayEra.Api.Merchants
