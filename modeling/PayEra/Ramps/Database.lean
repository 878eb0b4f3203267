import PayEra.Api.Database
import PayEra.Lib.Sessions

/-!
# Ramps: rows, calls and their answers

`RampTransaction` and `RampTransactionEvent` of `apps/api/prisma/schema.prisma`, the calls that
`apps/api/src/ramps` awaits, and what they do when they return. What the outside world decides (new
identifiers, the provider's responses) comes from an `Oracle`; any call may fail instead, with or
without having taken effect.
-/

namespace PayEra.Ramps

open Api (Metadata updateWhere find?_updateWhere_key)

/-! ### Rows -/

inductive RampStatus where
  | INITIATED
  | PENDING_USER_TRANSFER
  | PENDING_ANCHOR
  | PENDING_STELLAR
  | PENDING_EXTERNAL
  | COMPLETED
  | REFUNDED
  | EXPIRED
  | ERROR
  deriving DecidableEq, Repr

/-- The status as a string. -/
def RampStatus.name : RampStatus → String
  | .INITIATED => "INITIATED"
  | .PENDING_USER_TRANSFER => "PENDING_USER_TRANSFER"
  | .PENDING_ANCHOR => "PENDING_ANCHOR"
  | .PENDING_STELLAR => "PENDING_STELLAR"
  | .PENDING_EXTERNAL => "PENDING_EXTERNAL"
  | .COMPLETED => "COMPLETED"
  | .REFUNDED => "REFUNDED"
  | .EXPIRED => "EXPIRED"
  | .ERROR => "ERROR"

inductive RampType where
  | ONRAMP
  | OFFRAMP
  deriving DecidableEq, Repr

def RampType.name : RampType → String
  | .ONRAMP => "ONRAMP"
  | .OFFRAMP => "OFFRAMP"

inductive KycStatus where
  | NONE
  | PENDING
  | VERIFIED
  | REJECTED
  deriving DecidableEq, Repr

def KycStatus.name : KycStatus → String
  | .NONE => "NONE"
  | .PENDING => "PENDING"
  | .VERIFIED => "VERIFIED"
  | .REJECTED => "REJECTED"

/-- What a ramp is created with. -/
structure NewRamp where
  publicId : String
  userId : String
  provider : String
  type : RampType
  status : RampStatus
  userStellarAddress : String
  assetCode : String
  amountIn : Option String
  deriving DecidableEq, Repr

structure RampTransaction extends NewRamp where
  id : String
  providerTxId : Option String := none
  interactiveUrl : Option String := none
  amountOut : Option String := none
  amountFee : Option String := none
  referenceNumber : Option String := none
  stellarMemo : Option String := none
  stellarMemoType : Option String := none
  anchorAccount : Option String := none
  stellarTxHash : Option String := none
  failureCode : Option String := none
  failureMessage : Option String := none
  lastPolledAt : Option ℕ := none
  completedAt : Option ℕ := none
  createdAt : ℕ
  deriving DecidableEq, Repr

/-- `Prisma.RampTransactionUpdateInput`: the columns that are written. -/
structure RampTransactionData where
  status : Option RampStatus := none
  providerTxId : Option String := none
  interactiveUrl : Option String := none
  amountIn : Option String := none
  amountOut : Option String := none
  amountFee : Option String := none
  referenceNumber : Option String := none
  stellarMemo : Option String := none
  stellarMemoType : Option String := none
  anchorAccount : Option String := none
  stellarTxHash : Option String := none
  failureCode : Option String := none
  failureMessage : Option String := none
  lastPolledAt : Option ℕ := none
  completedAt : Option ℕ := none
  deriving DecidableEq, Repr

def RampTransaction.update (t : RampTransaction) (data : RampTransactionData) : RampTransaction :=
  { t with
    status := data.status.getD t.status
    providerTxId := data.providerTxId <|> t.providerTxId
    interactiveUrl := data.interactiveUrl <|> t.interactiveUrl
    amountIn := data.amountIn <|> t.amountIn
    amountOut := data.amountOut <|> t.amountOut
    amountFee := data.amountFee <|> t.amountFee
    referenceNumber := data.referenceNumber <|> t.referenceNumber
    stellarMemo := data.stellarMemo <|> t.stellarMemo
    stellarMemoType := data.stellarMemoType <|> t.stellarMemoType
    anchorAccount := data.anchorAccount <|> t.anchorAccount
    stellarTxHash := data.stellarTxHash <|> t.stellarTxHash
    failureCode := data.failureCode <|> t.failureCode
    failureMessage := data.failureMessage <|> t.failureMessage
    lastPolledAt := data.lastPolledAt <|> t.lastPolledAt
    completedAt := data.completedAt <|> t.completedAt }

structure RampTransactionEvent where
  rampTransactionId : String
  sequence : ℕ
  status : Option RampStatus
  eventType : String
  source : String
  payload : Metadata
  deriving DecidableEq, Repr

/-! ### Errors and responses -/

/-- What is thrown: the framework's exceptions, and other errors. -/
inductive Thrown where
  | badRequest (message : String)
  | forbidden (message : String)
  | notFound (message : String)
  | error (message : String)
  deriving DecidableEq, Repr

def Thrown.message : Thrown → String
  | .badRequest message | .forbidden message | .notFound message | .error message => message

/-- An HTTP response, with its body as it is read. -/
structure Response (α : Type) where
  status : ℕ
  body : Except Thrown α

def Response.ok {α : Type} (response : Response α) : Bool :=
  200 ≤ response.status ∧ response.status ≤ 299

structure Challenge where
  transaction : String
  network_passphrase : Option String

structure Interactive where
  url : String
  id : String

structure AnchorTransaction where
  status : String
  amount_in : Option String := none
  amount_out : Option String := none
  amount_fee : Option String := none
  withdraw_memo : Option String := none
  withdraw_memo_type : Option String := none
  withdraw_anchor_account : Option String := none
  stellar_transaction_id : Option String := none
  external_transaction_id : Option String := none

/-! ### Calls -/

inductive Op where
  | now
  | sleep (ms : ℕ)
  | findKycStatus (userId : String)
  | createRamp (data : NewRamp)
  | findRamp (id : String)
  /-- `findFirst` by the public identifier and the owner. -/
  | findOwned (publicId userId : String)
  | updateRamp (id : String) (data : RampTransactionData)
  | findPending (cutoff : ℕ)
  | lastSequence (rampTransactionId : String)
  | createEvent (e : RampTransactionEvent)
  | fetchToml (url : String)
  | fetchChallenge (url : String)
  | fetchToken (url transaction : String)
  | postInteractive (url sessionToken : String) (body : List (String × String))
  | fetchTransaction (url sessionToken : String)
  deriving DecidableEq, Repr

abbrev Op.Res : Op → Type
  | .now => ℕ
  | .sleep _ => Unit
  | .findKycStatus _ => Option KycStatus
  | .createRamp _ => RampTransaction
  | .findRamp _ => Option RampTransaction
  | .findOwned _ _ => Option RampTransaction
  | .updateRamp _ _ => RampTransaction
  | .findPending _ => List RampTransaction
  | .lastSequence _ => Option ℕ
  | .createEvent _ => Unit
  | .fetchToml _ => Response String
  | .fetchChallenge _ => Response Challenge
  | .fetchToken _ _ => Response String
  | .postInteractive _ _ _ => Response Interactive
  | .fetchTransaction _ _ => Response AnchorTransaction

/-! ### Answers -/

/-- The database, the transactions that were opened at the provider, and the clock. -/
structure Rails where
  ramps : List RampTransaction := []
  events : List RampTransactionEvent := []
  kyc : String → Option KycStatus := fun _ => none
  opened : List String := []
  clock : ℕ := 0

/-- What the outside world decides about an answer. -/
structure Oracle where
  id : String
  opens : String
  toml : Response String
  challenge : Response Challenge
  token : Response String
  interactive : Response Interactive
  transaction : Response AnchorTransaction
  /-- The order of the rows that are read; it is open where they were polled at the same time. -/
  order : List RampTransaction := []

/-- The interactive transaction that a response tells of. -/
def Response.interactive? (response : Response Interactive) : Option Interactive :=
  if response.ok then response.body.toOption else none

namespace Rails

variable (s : Rails)

def ramp (id : String) : Option RampTransaction := s.ramps.find? (·.id = id)

def status (id : String) : Option RampStatus := (s.ramp id).map (·.status)

/-- The ramp with the public identifier, if it is the user's. -/
def owned (publicId userId : String) : Option RampTransaction :=
  s.ramps.find? fun t => t.publicId = publicId ∧ t.userId = userId

/-- The audit trail of a ramp. -/
def trail (id : String) : List RampTransactionEvent := s.events.filter (·.rampTransactionId = id)

/-- The `where` of the poller. -/
def isPending (cutoff : ℕ) (t : RampTransaction) : Bool :=
  (t.status = .PENDING_USER_TRANSFER ∨ t.status = .PENDING_ANCHOR ∨ t.status = .PENDING_STELLAR ∨
    t.status = .PENDING_EXTERNAL) ∧ t.providerTxId.isSome ∧ cutoff ≤ t.createdAt

/-- `orderBy: { lastPolledAt: { sort: 'asc', nulls: 'first' } }`. -/
def polledBefore (t t' : RampTransaction) : Bool :=
  match t.lastPolledAt, t'.lastPolledAt with
  | none, _ => true
  | some _, none => false
  | some at₁, some at₂ => at₁ ≤ at₂

def answer (o : Oracle) : (op : Op) → Rails → Option (op.Res × Rails)
  | .now, s => some (s.clock, s)
  | .sleep _, s => some ((), s)
  | .findKycStatus userId, s => some (s.kyc userId, s)
  | .createRamp data, s =>
    if s.ramps.any fun t => t.id = o.id ∨ t.publicId = data.publicId then none
    else
      let ramp : RampTransaction := { data with id := o.id, createdAt := s.clock }
      some (ramp, { s with ramps := s.ramps ++ [ramp] })
  | .findRamp id, s => some (s.ramp id, s)
  | .findOwned publicId userId, s => some (s.owned publicId userId, s)
  | .updateRamp id data, s =>
    if s.ramps.any fun t => t.id ≠ id ∧ t.providerTxId.isSome ∧ t.providerTxId = data.providerTxId
    then none
    else (s.ramp id).map fun t =>
      (t.update data, { s with ramps := updateWhere (·.id = id) (·.update data) s.ramps })
  | .findPending cutoff, s =>
    if o.order.Perm (s.ramps.filter (isPending cutoff)) ∧
        o.order.Pairwise fun t t' => polledBefore t t' = true then
      some (o.order.take 20, s)
    else none
  | .lastSequence id, s => some (((s.trail id).map (·.sequence)).max?, s)
  | .createEvent e, s =>
    if s.events.any fun e' =>
        e'.rampTransactionId = e.rampTransactionId ∧ e'.sequence = e.sequence then none
    else some ((), { s with events := s.events ++ [e] })
  | .fetchToml _, s => some (o.toml, s)
  | .fetchChallenge _, s => some (o.challenge, s)
  | .fetchToken _ _, s => some (o.token, s)
  | .postInteractive _ _ _, s =>
    -- the provider opens a transaction with an identifier of its own, and tells it in its response
    if o.opens ∈ s.opened ∨ o.interactive.interactive?.any (·.id ≠ o.opens) then none
    else some (o.interactive, { s with opened := s.opened ++ [o.opens] })
  | .fetchTransaction _ _, s => some (o.transaction, s)

/-- Between two calls time passes, users' verifications change, and others open transactions at the
provider. -/
structure Other (s s' : Rails) : Prop where
  ramps : s'.ramps = s.ramps
  events : s'.events = s.events
  opened : s.opened ⊆ s'.opened
  clock : s.clock ≤ s'.clock

end Rails

/-- A call returns what some oracle makes it answer. -/
def Returns (op : Op) (s : Rails) (v : op.Res) (s' : Rails) : Prop :=
  ∃ o, Rails.answer o op s = some (v, s')

/-- Reading the clock and sleeping do not fail. -/
def Total (op : Op) : Prop := op = .now ∨ ∃ ms, op = .sleep ms

/-! ### What the calls change -/

/-- The row with the identifier `i` after a call. -/
def Op.row : (op : Op) → op.Res → (i : String) → Option RampTransaction → Option RampTransaction
  | .createRamp _, ramp, i, t => t <|> if ramp.id = i then some ramp else none
  | .updateRamp id data, _, i, t => if id = i then t.map (·.update data) else t
  | _, _, _, t => t

/-- The events that a call appends. -/
def Op.appended : Op → List RampTransactionEvent
  | .createEvent e => [e]
  | _ => []

section Changes

variable {s s' : Rails} {op : Op} {v : op.Res}

lemma ramp_congr {s s' : Rails} (h : s'.ramps = s.ramps) (id : String) : s'.ramp id = s.ramp id := by
  rw [Rails.ramp, Rails.ramp, h]

lemma id_of_ramp {s : Rails} {id : String} {ramp : RampTransaction} (h : s.ramp id = some ramp) :
    ramp.id = id := by
  simpa using List.find?_some h

lemma ramp_returns (h : Returns op s v s') (i : String) : s'.ramp i = op.row v i (s.ramp i) := by
  obtain ⟨o, ho⟩ := h
  cases op with
  | createRamp data =>
    simp only [Rails.answer] at ho
    split_ifs at ho
    cases ho
    show (s.ramps ++ [_]).find? _ = _
    rw [List.find?_append]
    by_cases hid : o.id = i
    · simp [Op.row, Rails.ramp, hid]
    · simp [Op.row, Rails.ramp, hid]
  | updateRamp id data =>
    simp only [Rails.answer] at ho
    split_ifs at ho
    obtain ⟨t, -, heq⟩ := Option.map_eq_some_iff.mp ho
    cases heq
    have hrow : (updateWhere (·.id = id) (·.update data) s.ramps).find? (·.id = i) =
        (s.ramps.find? (·.id = i)).map fun r => if id = i then r.update data else r :=
      find?_updateWhere_key (f := fun r : RampTransaction => r.update data) (fun _ => rfl) i id
    show List.find? _ _ = _
    rw [hrow, Op.row]
    by_cases hid : id = i
    · simp only [hid, if_true]
      rfl
    · simp only [hid, if_false, Option.map_id']
      rfl
  | createEvent _ | postInteractive _ _ _ | findPending _ =>
    simp only [Rails.answer] at ho
    split_ifs at ho
    cases ho
    rfl
  | _ =>
    cases ho
    rfl

lemma events_returns (h : Returns op s v s') : s'.events = s.events ++ op.appended := by
  obtain ⟨o, ho⟩ := h
  cases op with
  | createRamp data =>
    simp only [Rails.answer] at ho
    split_ifs at ho
    cases ho
    exact (List.append_nil _).symm
  | updateRamp id data =>
    simp only [Rails.answer] at ho
    split_ifs at ho
    obtain ⟨t, -, heq⟩ := Option.map_eq_some_iff.mp ho
    cases heq
    exact (List.append_nil _).symm
  | createEvent e =>
    simp only [Rails.answer] at ho
    split_ifs at ho
    cases ho
    rfl
  | postInteractive _ _ _ | findPending _ =>
    simp only [Rails.answer] at ho
    split_ifs at ho
    cases ho
    exact (List.append_nil _).symm
  | _ =>
    cases ho
    exact (List.append_nil _).symm

/-- Only a request that initiates a ramp opens a transaction. -/
lemma opened_returns (h : Returns op s v s')
    (hop : ∀ url token body, op ≠ .postInteractive url token body) : s'.opened = s.opened := by
  obtain ⟨o, ho⟩ := h
  cases op with
  | postInteractive url token body => exact absurd rfl (hop url token body)
  | createRamp data =>
    simp only [Rails.answer] at ho
    split_ifs at ho
    cases ho
    rfl
  | updateRamp id data =>
    simp only [Rails.answer] at ho
    split_ifs at ho
    obtain ⟨t, -, heq⟩ := Option.map_eq_some_iff.mp ho
    cases heq
    rfl
  | createEvent _ | findPending _ =>
    simp only [Rails.answer] at ho
    split_ifs at ho
    cases ho
    rfl
  | _ =>
    cases ho
    rfl

/-- The identifier of the transaction that a request opens; the response tells it. -/
lemma returns_post {url token : String} {body : List (String × String)}
    {response : Response Interactive} (h : Returns (.postInteractive url token body) s response s') :
    ∃ id, s'.opened = s.opened ++ [id] ∧
      ∀ data, response.interactive? = some data → data.id = id := by
  obtain ⟨o, ho⟩ := h
  simp only [Rails.answer] at ho
  split_ifs at ho with hfresh
  cases ho
  rw [not_or] at hfresh
  refine ⟨o.opens, rfl, fun data hdata => ?_⟩
  by_contra hne
  apply hfresh.2
  rw [hdata]
  exact decide_eq_true hne

/-- A new row has an identifier of its own, and nothing but what it was created with. -/
lemma returns_create {data : NewRamp} {ramp : RampTransaction}
    (h : Returns (.createRamp data) s ramp s') :
    s.ramp ramp.id = none ∧ ramp = { data with id := ramp.id, createdAt := ramp.createdAt } := by
  obtain ⟨o, ho⟩ := h
  simp only [Rails.answer] at ho
  split_ifs at ho with hfresh
  cases ho
  refine ⟨?_, rfl⟩
  rw [Rails.ramp, List.find?_eq_none]
  intro t ht hid
  exact hfresh (List.any_eq_true.mpr ⟨t, ht, decide_eq_true (.inl (of_decide_eq_true hid))⟩)

lemma ramp_created {data : NewRamp} {ramp : RampTransaction}
    (h : Returns (.createRamp data) s ramp s') : s'.ramp ramp.id = some ramp := by
  rw [ramp_returns h, Op.row, (returns_create h).1, if_pos rfl]
  rfl

lemma returns_find {id : String} {found : Option RampTransaction}
    (h : Returns (.findRamp id) s found s') : found = s.ramp id ∧ s' = s := by
  obtain ⟨o, ho⟩ := h
  cases ho
  exact ⟨rfl, rfl⟩

lemma returns_update {id : String} {data : RampTransactionData} {t : RampTransaction}
    (h : Returns (.updateRamp id data) s t s') : ∃ t₀, s.ramp id = some t₀ ∧ t = t₀.update data := by
  obtain ⟨o, ho⟩ := h
  simp only [Rails.answer] at ho
  split_ifs at ho
  obtain ⟨t₀, ht₀, heq⟩ := Option.map_eq_some_iff.mp ho
  cases heq
  exact ⟨t₀, ht₀, rfl⟩

/-- A call leaves a row as it is, creates it or updates it. -/
lemma row_returns (h : Returns op s v s') (i : String) :
    s'.ramp i = s.ramp i ∨
    (∃ data ramp, op = .createRamp data ∧ s.ramp i = none ∧ s'.ramp i = some ramp ∧
      ramp = { data with id := i, createdAt := ramp.createdAt }) ∨
    ∃ data t, op = .updateRamp i data ∧ s.ramp i = some t ∧ s'.ramp i = some (t.update data) := by
  have hrow := ramp_returns h i
  cases op with
  | createRamp data =>
    obtain ⟨hfresh, hnew⟩ := returns_create h
    by_cases hid : v.id = i
    · subst hid
      right
      left
      exact ⟨data, v, rfl, hfresh, ramp_created h, hnew⟩
    · left
      rw [hrow, Op.row, if_neg hid]
      cases s.ramp i <;> rfl
  | updateRamp id data =>
    by_cases hid : id = i
    · subst hid
      obtain ⟨t, ht, -⟩ := returns_update h
      right
      right
      refine ⟨data, t, rfl, ht, ?_⟩
      rw [hrow, Op.row, if_pos rfl, ht]
      rfl
    · left
      rw [hrow, Op.row, if_neg hid]
  | _ => exact .inl hrow

end Changes

end PayEra.Ramps
