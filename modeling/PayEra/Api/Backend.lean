import PayEra.Api.Database

/-!
# The backend

One state for the database, the payment records on chain, the accepted payouts and the clock.
`answer` is what a call does when it returns; what the outside world decides (hashes, rates, the
provider's answers) comes from an `Oracle`. Any call may fail instead, with or without having taken
effect, and between two calls the rest of the system may act.
-/

namespace PayEra.Api

open PaymentEngine (PaymentStatus)

structure Backend where
  transactions : List Transaction := []
  transactionEvents : List TransactionEvent := []
  settlementInstructions : List SettlementInstruction := []
  rewards : List Reward := []
  merchants : List Merchant := []
  merchantQrCodes : List MerchantQrCode := []
  wallets : List Wallet := []
  adminLogs : List AdminLog := []
  /-- The identifiers generated so far. -/
  uuids : List String := []
  /-- The status of the PaymentEngine record of each payment. -/
  payments : String → Option PaymentStatus := fun _ => none
  /-- The payouts that the provider accepted. -/
  payouts : List UpiPayout := []
  clock : ℕ := 0

/-- What the outside world decides about an answer. -/
structure Oracle where
  uuid : String
  hash : String
  stellar : StellarResult
  payout : PayoutResult
  payoutStatus : PayoutStatus
  usdcRate : Option ℚ
  rates : AssetCode → ℚ

namespace Backend

variable (b : Backend)

def transaction (id : String) : Option Transaction := b.transactions.find? (·.id = id)

/-- The address of a user's primary active wallet. -/
def primaryWallet (userId : String) : Option String :=
  (b.wallets.find? fun w => w.userId = userId ∧ w.isPrimary ∧ w.active).map (·.address)

/-- `where: { status: CREATED, expiresAt: { gt: now } }`. -/
def claimable (now : ℕ) (t : Transaction) : Bool :=
  t.status = .CREATED ∧ t.expiresAt.any (now < ·)

/-- `accessWhere`. -/
def visible (owner : Principal) (t : Transaction) : Bool :=
  owner.role = .ADMIN ∨ t.userId = owner.id ∨
    b.merchants.any fun m => m.id = t.merchantId ∧ m.ownerUserId = some owner.id

/-- Moving a payment record from one status to the next. -/
def movePayment (id : String) (source target : PaymentStatus) : Option Backend :=
  if b.payments id = some source then
    some { b with payments := Function.update b.payments id (some target) }
  else none

/-- What a call does when it returns. -/
def answer (o : Oracle) : (op : Op) → Backend → Option (op.Res × Backend)
  | .now, b => some (b.clock, b)
  | .sleep _, b => some ((), b)
  | .uuid, b =>
    if o.uuid ∈ b.uuids then none else some (o.uuid, { b with uuids := o.uuid :: b.uuids })
  | .claimTransactions now authorizedAt, b =>
    some (b.transactions.countP (claimable now), { b with
      transactions := updateWhere (claimable now)
        (fun t => { t with status := .AUTHORIZED, authorizedAt }) b.transactions })
  | .findAuthorized since, b =>
    some ((b.transactions.filter fun t =>
      t.status = .AUTHORIZED ∧ t.authorizedAt.any (since ≤ ·)).take 10, b)
  | .updateTransaction id data, b =>
    (b.transaction id).map fun t => (t.update data, { b with
      transactions := updateWhere (·.id = id) (·.update data) b.transactions })
  | .maxEventSequence transactionId, b =>
    some (((b.transactionEvents.filter (·.transactionId = transactionId)).map
      (·.sequence)).max?, b)
  | .createEvent e, b =>
    if b.transactionEvents.any fun e' =>
        e'.transactionId = e.transactionId ∧ e'.sequence = e.sequence then none
    else some ((), { b with transactionEvents := b.transactionEvents ++ [e] })
  | .findSpendReward transactionId, b =>
    some (b.rewards.find? fun r => r.transactionId = some transactionId ∧ r.reason = .SPEND, b)
  | .findQrCode id, b => some (b.merchantQrCodes.find? (·.id = id), b)
  | .findWallet id, b => some (b.wallets.find? (·.id = id), b)
  | .findMerchant id, b => some (b.merchants.find? (·.id = id), b)
  | .updateSettlements transactionId data, b =>
    some (b.settlementInstructions.countP (·.transactionId = transactionId), { b with
      settlementInstructions := updateWhere (·.transactionId = transactionId) (·.update data)
        b.settlementInstructions })
  | .findSentSettlements, b =>
    some ((b.settlementInstructions.filter fun s =>
      s.status = .SENT ∧ s.settlementReference.isSome).take 20, b)
  | .updateSettlement id data, b =>
    if b.settlementInstructions.any (·.id = id) then
      some ((), { b with
        settlementInstructions := updateWhere (·.id = id) (·.update data)
          b.settlementInstructions })
    else none
  | .findPendingRewards transactionId, b =>
    some ((b.rewards.filter fun r =>
        r.transactionId = some transactionId ∧ r.status = .PENDING).map
      fun r => ({ reward := r, walletAddress := b.primaryWallet r.userId } : PendingReward), b)
  | .updateReward id data, b =>
    if b.rewards.any (·.id = id) then
      some ((), { b with rewards := updateWhere (·.id = id) (·.update data) b.rewards })
    else none
  | .createAdminLog log, b => some ((), { b with adminLogs := b.adminLogs ++ [log] })
  | .findActiveQrCode id merchantId, b =>
    some (b.merchantQrCodes.find? fun q => q.id = id ∧ q.merchantId = merchantId ∧ q.isActive, b)
  | .findTransaction owner id, b => some ((b.transaction id).filter (b.visible owner), b)
  | .createTransaction t, b =>
    if (b.transactions.any fun t' => t'.id = t.row.id ∨ t'.publicId = t.row.publicId) ∨
        b.settlementInstructions.any fun s =>
          s.id = t.settlement.id ∨ s.transactionId = t.settlement.transactionId then none
    else some ((), { b with
      transactions := b.transactions ++ [t.row]
      transactionEvents := b.transactionEvents ++ [t.event]
      settlementInstructions := b.settlementInstructions ++ [t.settlement] })
  | .createReward r, b =>
    -- the database checks that the amount is positive
    if 0 < r.starAmount then some ((), { b with rewards := b.rewards ++ [r] }) else none
  | .fetchUsdcRate, b => some (o.usdcRate, b)
  | .fetchRates, b => some (o.rates, b)
  | .createPayment p, b =>
    -- the contract refuses an id that has a record
    if b.payments p.paymentId = none then
      some (o.hash, { b with
        payments := Function.update b.payments p.paymentId (some .created) })
    else none
  | .quotePayment p, b => (b.movePayment p.paymentId .created .quoted).map fun b' => (o.hash, b')
  | .markConverted id, b => (b.movePayment id .quoted .converted).map fun b' => (o.hash, b')
  | .markSettled id, b => (b.movePayment id .converted .settled).map fun b' => (o.hash, b')
  | .completePayment id, b => (b.movePayment id .rewarded .completed).map fun b' => (o.hash, b')
  | .issueStarReward _, b => some (o.hash, b)
  | .submitPayment _, b => some (o.stellar, b)
  | .initiateUpiPayout p, b => some (o.payout, { b with payouts := b.payouts ++ [p] })
  | .checkPayoutStatus _, b => some (o.payoutStatus, b)

/-- What the rest of the system may do between two calls: time passes, a query may return rows in
another order, the tables that the transaction services only read or only add to change, and other
callers of the contract create payments and move them along its edges. -/
structure Other (b b' : Backend) : Prop where
  transactions : b'.transactions.Perm b.transactions
  settlementInstructions : b'.settlementInstructions.Perm b.settlementInstructions
  transactionEvents : b'.transactionEvents.Perm b.transactionEvents
  payouts : b'.payouts = b.payouts
  uuids : b.uuids ⊆ b'.uuids
  clock : b.clock ≤ b'.clock
  payments : ∀ id s, b.payments id = some s → ∃ s', b'.payments id = some s' ∧
    (s' = s ∨ Relation.TransGen PaymentEngine.Edge s s')

end Backend

/-! ### Who calls -/

/-- What a call is made for: the processing of one transaction, the claim of a tick, the settlement
poller, or a request of a user. -/
inductive Source where
  | run (transactionId : String)
  | tick
  | poller
  | request
  deriving DecidableEq, Repr

structure Request where
  source : Source
  op : Op
  deriving DecidableEq

abbrev Request.Res (c : Request) : Type := c.op.Res

/-- The services' code. -/
abbrev Service (α : Type) := Async.Program Request Request.Res String α

def call (source : Source) (op : Op) : Service op.Res :=
  Async.Program.perform ({ source, op } : Request)

abbrev World := Async.Logged Backend Request Request.Res String

/-- A call returns what some oracle makes it answer. -/
def Returns (c : Request) (b : Backend) (v : c.Res) (b' : Backend) : Prop :=
  ∃ o, Backend.answer o c.op b = some (v, b')

/-- Reading the clock, sleeping and drawing an identifier do not fail. -/
def Total (c : Request) : Prop := c.op = .now ∨ c.op = .uuid ∨ ∃ ms, c.op = .sleep ms

/-- Every pattern of failures. -/
abbrev env : (c : Request) → World → Except String c.Res → World → Prop :=
  Async.faulty Returns Total

end PayEra.Api
