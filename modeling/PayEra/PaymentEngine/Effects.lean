import PayEra.PaymentEngine.Basic

/-!
# What the payment engine's entrypoints do

For each entrypoint, exactly when it returns and the state it leaves. `exec_effect` then says once
what a call can do to the payment records: nothing, or write one record in one of six ways.
-/

namespace PayEra.PaymentEngine

open Soroban Soroban.Call

/-! ### Checks and reads -/

section Own

variable {env : Env} {s t : Storage} {u : Unit}

@[simp] lemma run_publish {e : Event} :
    (publish e).run env s = .ok (u, t) ↔ t = s.publish e := by
  simp [publish]

@[simp] lemma run_requireInitialized :
    requireInitialized.run env s = .ok (u, t) ↔ s.isInitialized = true ∧ t = s := by
  simp [requireInitialized, and_comm]

/-- The state in which a pausable entrypoint goes past its first check. -/
def Storage.Live (s : Storage) : Prop := s.isInitialized = true ∧ s.isPaused = false

/-- The operator signed the call, is enabled, and the engine is not paused. -/
structure Operates (env : Env) (s : Storage) (operator : Address) : Prop where
  live : s.Live
  auth : env.auth operator = true
  enabled : s.isOperator operator = true

@[simp] lemma run_requireNotPaused :
    requireNotPaused.run env s = .ok (u, t) ↔ s.Live ∧ t = s := by
  constructor
  · simp only [requireNotPaused, run_bind, run_requireInitialized, run_get, run_failIf]
    rintro ⟨_, _, ⟨hi, rfl⟩, _, _, ⟨rfl, rfl⟩, hp, rfl⟩
    exact ⟨⟨hi, by simpa using hp⟩, rfl⟩
  · rintro ⟨⟨hi, hp⟩, rfl⟩
    simp [requireNotPaused, hi, hp]

@[simp] lemma run_readAdmin {a : Address} :
    readAdmin.run env s = .ok (a, t) ↔ s.admin = some a ∧ t = s := by
  simp [readAdmin, and_comm]

@[simp] lemma run_readMerchantRegistry {a : Address} :
    readMerchantRegistry.run env s = .ok (a, t) ↔ s.merchantRegistry = some a ∧ t = s := by
  simp [readMerchantRegistry, and_comm]

@[simp] lemma run_readRewardEngine {a : Address} :
    readRewardEngine.run env s = .ok (a, t) ↔ s.rewardEngine = some a ∧ t = s := by
  simp [readRewardEngine, and_comm]

@[simp] lemma run_requireOperator {operator : Address} :
    (requireOperator operator).run env s = .ok (u, t) ↔ Operates env s operator ∧ t = s := by
  constructor
  · intro h
    simp [requireOperator] at h
    obtain ⟨hl, ha, rfl, he⟩ := h
    exact ⟨⟨hl, ha, he⟩, rfl⟩
  · rintro ⟨⟨hl, ha, he⟩, rfl⟩
    simp [requireOperator, hl, ha, he]

@[simp] lemma run_hasPayment {paymentId : Bytes32} {r : Bool} :
    (hasPayment paymentId).run env s = .ok (r, t) ↔
      r = (s.payment paymentId).isSome ∧ t = s := by
  simp [hasPayment]
  grind

@[simp] lemma run_readPayment {paymentId : Bytes32} {r : PaymentRecord} :
    (readPayment paymentId).run env s = .ok (r, t) ↔ s.payment paymentId = some r ∧ t = s := by
  simp [readPayment, and_comm]

@[simp] lemma run_writePayment {r : PaymentRecord} :
    (writePayment r).run env s = .ok (u, t) ↔ t = s.writePayment r := by
  simp [writePayment]

@[simp] lemma run_touchAndWrite {r : PaymentRecord} :
    (touchAndWrite r).run env s = .ok (u, t) ↔
      t = s.writePayment { r with updatedLedger := env.ledger } := by
  simp [touchAndWrite]

@[simp] lemma run_requireStatus {r : PaymentRecord} {status : PaymentStatus} :
    (requireStatus r status).run env s = .ok (u, t) ↔ r.status = status ∧ t = s := by
  simp [requireStatus]

/-! ### Entrypoints on the engine's own storage -/

lemma run_transitionOperator {operator : Address} {paymentId : Bytes32}
    {fromStatus toStatus : PaymentStatus} {event : Action} :
    (transitionOperator operator paymentId fromStatus toStatus event).run env s = .ok (u, t) ↔
      Operates env s operator ∧ ∃ r, s.payment paymentId = some r ∧ r.status = fromStatus ∧
        t = (s.writePayment { r with status := toStatus, updatedLedger := env.ledger }).publish
          (.payment event paymentId operator toStatus r.amountInPaise) := by
  simp [transitionOperator]

lemma run_quotePayment {operator : Address} {paymentId : Bytes32}
    {assetAmount usdcAmount networkFeePaise : I128} :
    (quotePayment operator paymentId assetAmount usdcAmount networkFeePaise).run env s =
        .ok (u, t) ↔
      Operates env s operator ∧
      (0 < assetAmount.val ∧ 0 < usdcAmount.val ∧ 0 ≤ networkFeePaise.val) ∧
      ∃ r, s.payment paymentId = some r ∧ r.status = .created ∧
        t = (s.writePayment { r with
              assetAmount, usdcAmount, networkFeePaise
              status := .quoted, updatedLedger := env.ledger }).publish
            (.payment .quoted paymentId operator .quoted usdcAmount) := by
  simp [quotePayment]

lemma run_cancelPayment {payer : Address} {paymentId : Bytes32} :
    (cancelPayment payer paymentId).run env s = .ok (u, t) ↔
      s.Live ∧ env.auth payer = true ∧ ∃ r, s.payment paymentId = some r ∧ r.payer = payer ∧
        (r.status = .created ∨ r.status = .quoted) ∧
        t = (s.writePayment { r with status := .cancelled, updatedLedger := env.ledger }).publish
          (.payment .cancel paymentId payer .cancelled r.amountInPaise) := by
  simp [cancelPayment]
  grind

lemma run_failPayment {operator : Address} {paymentId : Bytes32} :
    (failPayment operator paymentId).run env s = .ok (u, t) ↔
      Operates env s operator ∧ ∃ r, s.payment paymentId = some r ∧
        (r.status ≠ .completed ∧ r.status ≠ .cancelled) ∧
        t = (s.writePayment { r with status := .failed, updatedLedger := env.ledger }).publish
          (.payment .failed paymentId operator .failed r.amountInPaise) := by
  simp [failPayment]

lemma run_setAdmin {newAdmin : Address} :
    (setAdmin newAdmin).run env s = .ok (u, t) ↔
      s.Live ∧ ∃ adm, s.admin = some adm ∧ env.auth adm = true ∧
        t = { s with pendingAdmin := some newAdmin }.publish
          (.config .admProp adm newAdmin true) := by
  simp [setAdmin]

/-- The storage after the role went from `oldAdmin` to `pending`. -/
def Storage.handOver (s : Storage) (oldAdmin pending : Address) : Storage :=
  let revoked := if oldAdmin ≠ pending then s.setOperator oldAdmin false else s
  ({ revoked with admin := some pending, pendingAdmin := none }).setOperator pending true

lemma run_acceptAdmin :
    acceptAdmin.run env s = .ok (u, t) ↔
      s.Live ∧ ∃ pending oldAdmin, s.pendingAdmin = some pending ∧ env.auth pending = true ∧
        s.admin = some oldAdmin ∧
        t = (s.handOver oldAdmin pending).publish (.config .admin oldAdmin pending true) := by
  simp [acceptAdmin, Storage.handOver]
  grind

lemma run_pause :
    pause.run env s = .ok (u, t) ↔
      ∃ adm, s.admin = some adm ∧ env.auth adm = true ∧
        t = { s with paused := some true }.publish (.config .pause adm adm true) := by
  simp [pause]

lemma run_unpause :
    unpause.run env s = .ok (u, t) ↔
      ∃ adm, s.admin = some adm ∧ env.auth adm = true ∧
        t = { s with paused := some false }.publish (.config .unpause adm adm false) := by
  simp [unpause]

lemma run_setOperator {operator : Address} {enabled : Bool} :
    (setOperator operator enabled).run env s = .ok (u, t) ↔
      s.Live ∧ ∃ adm, s.admin = some adm ∧ env.auth adm = true ∧
        t = (s.setOperator operator enabled).publish
          (.config .operator operator operator enabled) := by
  simp [setOperator]

lemma run_setContracts {registry rewardEngine : Address} :
    (setContracts registry rewardEngine).run env s = .ok (u, t) ↔
      s.Live ∧ ∃ adm, s.admin = some adm ∧ env.auth adm = true ∧
        t = { s with merchantRegistry := some registry, rewardEngine := some rewardEngine }.publish
          (.config .config adm rewardEngine true) := by
  simp [setContracts]

lemma run_constructor {admin registry rewardEngine : Address} :
    (constructor admin registry rewardEngine).run env s = .ok (u, t) ↔
      env.auth admin = true ∧
        t = (({ s with
            initialized := some true
            admin := some admin
            paused := some false
            merchantRegistry := some registry
            rewardEngine := some rewardEngine } : Storage).setOperator admin true).publish
          (.config .init admin rewardEngine true) := by
  simp [constructor]

end Own

/-! ### Entrypoints that call another contract -/

section Peers

variable {ω : Type} {clients : Clients ω} {env : Env} {s t : WithPeers Storage ω} {u : Unit}

/-- The record that `create_payment` writes. -/
def freshPayment (ledger : Nat) (payer : Address) (paymentId merchantId : Bytes32)
    (asset : AssetCode) (amountInPaise : I128) (qrHash rewardId : Bytes32) : PaymentRecord :=
  { paymentId, payer, merchantId, asset, amountInPaise, qrHash, rewardId
    assetAmount := 0, usdcAmount := 0, networkFeePaise := 0, starReward := 0
    status := .created, createdLedger := ledger, updatedLedger := ledger }

lemma run_createPayment {operator payer : Address} {paymentId merchantId : Bytes32}
    {asset : AssetCode} {amountInPaise : I128} {qrHash rewardId : Bytes32} :
    (createPayment clients operator payer paymentId merchantId asset amountInPaise qrHash
        rewardId).run env s = .ok (u, t) ↔
      Operates env s.own operator ∧ 0 < amountInPaise.val ∧ s.own.payment paymentId = none ∧
      ∃ registry w, s.own.merchantRegistry = some registry ∧
        clients.isApproved registry merchantId (env.nested registry) s.peers = some (true, w) ∧
        t = ⟨(s.own.writePayment (freshPayment env.ledger payer paymentId merchantId asset
            amountInPaise qrHash rewardId)).publish
          (.payment .created paymentId payer .created amountInPaise), w⟩ := by
  constructor
  · intro h
    simp [createPayment] at h
    obtain ⟨hl, hop, hpos, hnone, registry, hreg, w, happ, rfl⟩ := h
    exact ⟨hop, hpos, hnone, registry, w, hreg, happ, rfl⟩
  · rintro ⟨hop, hpos, hnone, registry, w, hreg, happ, rfl⟩
    simp [createPayment]
    exact ⟨hop.live, hop, hpos, hnone, registry, hreg, happ, rfl⟩

/-- The reward engine's answer to `issue_reward` for a payment. -/
def rewardReply (clients : Clients ω) (env : Env) (w : ω) (rewardEngine : Address)
    (r : PaymentRecord) : Option (I128 × ω) :=
  clients.issueSpendReward rewardEngine
    { issuer := env.self, rewardId := r.rewardId, recipient := r.payer,
      sourceId := r.paymentId, amountInPaise := r.amountInPaise }
    (env.nested rewardEngine) w

lemma run_issueReward {operator : Address} {paymentId : Bytes32} {amount : I128} :
    (issueReward clients operator paymentId).run env s = .ok (amount, t) ↔
      Operates env s.own operator ∧ ∃ r rewardEngine, s.own.payment paymentId = some r ∧
        r.status = .settled ∧ s.own.rewardEngine = some rewardEngine ∧
        amount = ((rewardReply clients env s.peers rewardEngine r).map Prod.fst).getD 0 ∧
        t = ⟨(s.own.writePayment { r with
              starReward := amount, status := .rewarded
              updatedLedger := env.ledger }).publish
            (.payment (if amount.val > 0 then .reward else .rewarderr) paymentId operator
              .rewarded amount),
          afterTry (rewardReply clients env s.peers rewardEngine r) s.peers⟩ := by
  constructor
  · intro h
    simp [issueReward] at h
    obtain ⟨hop, r, hr, hst, eng, heng, rfl, rfl⟩ := h
    exact ⟨hop, r, eng, hr, hst, heng, rfl, rfl⟩
  · rintro ⟨hop, r, eng, hr, hst, heng, rfl, rfl⟩
    simp [issueReward]
    exact ⟨hop, r, hr, hst, eng, heng, rfl, rfl, rfl⟩

/-! ### Reads -/

/-- The entrypoints that only read, and `heartbeat`. -/
def Entry.isRead : Entry → Bool
  | .admin | .heartbeat | .paused | .getPayment _ => true
  | _ => false

lemma eq_of_isRead {e : Entry} (he : e.isRead = true)
    (h : (exec clients e).run env s = .ok (u, t)) : t = s := by
  cases e <;> simp only [Entry.isRead, Bool.false_eq_true] at he
  all_goals
    simp [exec, admin, heartbeat, paused, getPayment] at h
    cases s
    grind

/-! ### What a call does to the payments -/

/-- One write of a payment record: the call, what it checked, what was there, what is there now. -/
inductive Written (env : Env) (s : Storage) : Entry → Bytes32 → PaymentRecord → Prop where
  | created {operator payer : Address} {paymentId merchantId qrHash rewardId : Bytes32}
      {asset : AssetCode} {amountInPaise : I128} (hop : Operates env s operator)
      (hpos : 0 < amountInPaise.val) (hnone : s.payment paymentId = none) :
      Written env s
        (.createPayment operator payer paymentId merchantId asset amountInPaise qrHash rewardId)
        paymentId
        (freshPayment env.ledger payer paymentId merchantId asset amountInPaise qrHash rewardId)
  | quoted {operator : Address} {paymentId : Bytes32} {r : PaymentRecord}
      {assetAmount usdcAmount networkFeePaise : I128} (hop : Operates env s operator)
      (hpos : 0 < assetAmount.val ∧ 0 < usdcAmount.val ∧ 0 ≤ networkFeePaise.val)
      (hr : s.payment paymentId = some r) (hst : r.status = .created) :
      Written env s (.quotePayment operator paymentId assetAmount usdcAmount networkFeePaise)
        paymentId { r with
          assetAmount, usdcAmount, networkFeePaise
          status := .quoted, updatedLedger := env.ledger }
  | advanced {operator : Address} {paymentId : Bytes32} {r : PaymentRecord} {e : Entry}
      {status : PaymentStatus} (hop : Operates env s operator)
      (hr : s.payment paymentId = some r)
      (hst : (r.status = .quoted ∧ status = .converted ∧ e = .markConverted operator paymentId) ∨
        (r.status = .converted ∧ status = .settled ∧ e = .markSettled operator paymentId) ∨
        (r.status = .rewarded ∧ status = .completed ∧ e = .completePayment operator paymentId)) :
      Written env s e paymentId { r with status, updatedLedger := env.ledger }
  | rewarded {operator : Address} {paymentId : Bytes32} {r : PaymentRecord} {starReward : I128}
      (hop : Operates env s operator) (hr : s.payment paymentId = some r)
      (hst : r.status = .settled) :
      Written env s (.issueReward operator paymentId) paymentId
        { r with starReward, status := .rewarded, updatedLedger := env.ledger }
  | cancelled {paymentId : Bytes32} {r : PaymentRecord} (hlive : s.Live)
      (hr : s.payment paymentId = some r) (hauth : env.auth r.payer = true)
      (hst : r.status = .created ∨ r.status = .quoted) :
      Written env s (.cancelPayment r.payer paymentId) paymentId
        { r with status := .cancelled, updatedLedger := env.ledger }
  | failed {operator : Address} {paymentId : Bytes32} {r : PaymentRecord}
      (hop : Operates env s operator) (hr : s.payment paymentId = some r)
      (hst : r.status ≠ .completed ∧ r.status ≠ .cancelled) :
      Written env s (.failPayment operator paymentId) paymentId
        { r with status := .failed, updatedLedger := env.ledger }

/-- The payment that an event is about. -/
def Event.about : Event → Option Bytes32
  | .payment _ paymentId _ _ _ => some paymentId
  | .config .. => none

/-- The events about a payment. -/
def Storage.eventsOf (s : Storage) (paymentId : Bytes32) : List Event :=
  s.events.filter fun e => e.about = some paymentId

lemma eventsOf_publish (s : Storage) (e : Event) (paymentId : Bytes32) :
    (s.publish e).eventsOf paymentId =
      s.eventsOf paymentId ++ if e.about = some paymentId then [e] else [] := by
  rw [Storage.eventsOf, Storage.publish, List.filter_append, Storage.eventsOf]
  split_ifs with h <;> simp [h]

/-- Same payments, and nothing new about any of them. -/
structure SamePayments (s t : Storage) : Prop where
  payment : t.payment = s.payment
  events : t.eventsOf = s.eventsOf

lemma SamePayments.refl (s : Storage) : SamePayments s s := ⟨rfl, rfl⟩

/-- What is published about the configuration is not about a payment. -/
lemma SamePayments.config {s r t : Storage} {action : ConfigAction} {account counterparty : Address}
    {flag : Bool} (ht : t = r.publish (.config action account counterparty flag))
    (hpayment : r.payment = s.payment) (hevents : r.events = s.events) : SamePayments s t := by
  subst ht
  refine ⟨hpayment, ?_⟩
  funext paymentId
  rw [eventsOf_publish, if_neg (by simp [Event.about]), List.append_nil, Storage.eventsOf,
    hevents, Storage.eventsOf]

/-- One record is written, and one event about it is published. -/
structure Wrote (s t : Storage) (paymentId : Bytes32) (r : PaymentRecord) : Prop where
  payment : t.payment = Function.update s.payment r.paymentId (some r)
  events : ∃ e, e.about = some paymentId ∧
    ∀ id, t.eventsOf id = s.eventsOf id ++ if e.about = some id then [e] else []

lemma wrote_publish (s : Storage) (r : PaymentRecord) {e : Event} {paymentId : Bytes32}
    (he : e.about = some paymentId) : Wrote s ((s.writePayment r).publish e) paymentId r :=
  ⟨rfl, e, he, fun id => eventsOf_publish (s.writePayment r) e id⟩

/-- A successful call leaves the payments as they were or writes one record. -/
theorem exec_effect {e : Entry} (h : (exec clients e).run env s = .ok (u, t)) :
    SamePayments s.own t.own ∨
      ∃ paymentId r, Written env s.own e paymentId r ∧ Wrote s.own t.own paymentId r := by
  cases e with
  | admin | heartbeat | paused | getPayment =>
    rw [eq_of_isRead rfl h]
    exact .inl (.refl _)
  | setAdmin newAdmin =>
    obtain ⟨_, hrun, rfl⟩ := run_own.mp h
    obtain ⟨-, adm, -, -, ht⟩ := run_setAdmin.mp hrun
    exact .inl (.config ht rfl rfl)
  | acceptAdmin =>
    obtain ⟨_, hrun, rfl⟩ := run_own.mp h
    obtain ⟨-, pending, old, -, -, -, ht⟩ := run_acceptAdmin.mp hrun
    left
    refine .config ht ?_ ?_
    · unfold Storage.handOver
      split_ifs <;> rfl
    · unfold Storage.handOver
      split_ifs <;> rfl
  | pause =>
    obtain ⟨_, hrun, rfl⟩ := run_own.mp h
    obtain ⟨adm, -, -, ht⟩ := run_pause.mp hrun
    exact .inl (.config ht rfl rfl)
  | unpause =>
    obtain ⟨_, hrun, rfl⟩ := run_own.mp h
    obtain ⟨adm, -, -, ht⟩ := run_unpause.mp hrun
    exact .inl (.config ht rfl rfl)
  | setOperator operator enabled =>
    obtain ⟨_, hrun, rfl⟩ := run_own.mp h
    obtain ⟨-, adm, -, -, ht⟩ := run_setOperator.mp hrun
    exact .inl (.config ht rfl rfl)
  | setContracts registry rewardEngine =>
    obtain ⟨_, hrun, rfl⟩ := run_own.mp h
    obtain ⟨-, adm, -, -, ht⟩ := run_setContracts.mp hrun
    exact .inl (.config ht rfl rfl)
  | createPayment =>
    obtain ⟨hop, hpos, hnone, registry, w, -, -, rfl⟩ := run_createPayment.mp h
    exact .inr ⟨_, _, .created hop hpos hnone, wrote_publish _ _ rfl⟩
  | quotePayment =>
    obtain ⟨_, hrun, rfl⟩ := run_own.mp h
    obtain ⟨hop, hpos, r, hr, hst, rfl⟩ := run_quotePayment.mp hrun
    exact .inr ⟨_, _, .quoted hop hpos hr hst, wrote_publish _ _ rfl⟩
  | markConverted =>
    obtain ⟨_, hrun, rfl⟩ := run_own.mp h
    obtain ⟨hop, r, hr, hst, rfl⟩ := run_transitionOperator.mp hrun
    exact .inr ⟨_, _, .advanced hop hr (.inl ⟨hst, rfl, rfl⟩), wrote_publish _ _ rfl⟩
  | markSettled =>
    obtain ⟨_, hrun, rfl⟩ := run_own.mp h
    obtain ⟨hop, r, hr, hst, rfl⟩ := run_transitionOperator.mp hrun
    exact .inr ⟨_, _, .advanced hop hr (.inr (.inl ⟨hst, rfl, rfl⟩)), wrote_publish _ _ rfl⟩
  | issueReward =>
    obtain ⟨amount, h⟩ := run_void.mp h
    obtain ⟨hop, r, eng, hr, hst, -, -, rfl⟩ := run_issueReward.mp h
    exact .inr ⟨_, _, .rewarded hop hr hst, wrote_publish _ _ rfl⟩
  | completePayment =>
    obtain ⟨_, hrun, rfl⟩ := run_own.mp h
    obtain ⟨hop, r, hr, hst, rfl⟩ := run_transitionOperator.mp hrun
    exact .inr ⟨_, _, .advanced hop hr (.inr (.inr ⟨hst, rfl, rfl⟩)), wrote_publish _ _ rfl⟩
  | cancelPayment =>
    obtain ⟨_, hrun, rfl⟩ := run_own.mp h
    obtain ⟨hlive, hauth, r, hr, rfl, hst, rfl⟩ := run_cancelPayment.mp hrun
    exact .inr ⟨_, _, .cancelled hlive hr hauth hst, wrote_publish _ _ rfl⟩
  | failPayment =>
    obtain ⟨_, hrun, rfl⟩ := run_own.mp h
    obtain ⟨hop, r, hr, hst, rfl⟩ := run_failPayment.mp hrun
    exact .inr ⟨_, _, .failed hop hr hst, wrote_publish _ _ rfl⟩

/-- Where approving a merchant is a read, a call other than `issue_reward` leaves the other
contracts alone. -/
theorem exec_peers {e : Entry}
    (hread : ∀ registry merchantId env w b w',
      clients.isApproved registry merchantId env w = some (b, w') → w' = w)
    (hne : ∀ operator paymentId, e ≠ .issueReward operator paymentId)
    (h : (exec clients e).run env s = .ok (u, t)) : t.peers = s.peers := by
  cases e with
  | issueReward operator paymentId => exact absurd rfl (hne operator paymentId)
  | createPayment =>
    obtain ⟨-, -, -, registry, w, -, happ, rfl⟩ := run_createPayment.mp h
    exact hread _ _ _ _ _ _ happ
  | _ =>
    obtain ⟨_, -, rfl⟩ := run_own.mp h
    rfl

/-- A deployed engine stays initialized. -/
lemma exec_initialized {e : Entry} (h : (exec clients e).run env s = .ok (u, t)) :
    t.own.initialized = s.own.initialized := by
  cases e with
  | admin | heartbeat | paused | getPayment => rw [eq_of_isRead rfl h]
  | acceptAdmin =>
    obtain ⟨_, hrun, rfl⟩ := run_own.mp h
    obtain ⟨-, pending, old, -, -, -, rfl⟩ := run_acceptAdmin.mp hrun
    show (s.own.handOver old pending).initialized = s.own.initialized
    unfold Storage.handOver
    split_ifs <;> rfl
  | setAdmin newAdmin =>
    obtain ⟨_, hrun, rfl⟩ := run_own.mp h
    obtain ⟨-, adm, -, -, rfl⟩ := run_setAdmin.mp hrun
    rfl
  | pause =>
    obtain ⟨_, hrun, rfl⟩ := run_own.mp h
    obtain ⟨adm, -, -, rfl⟩ := run_pause.mp hrun
    rfl
  | unpause =>
    obtain ⟨_, hrun, rfl⟩ := run_own.mp h
    obtain ⟨adm, -, -, rfl⟩ := run_unpause.mp hrun
    rfl
  | setOperator operator enabled =>
    obtain ⟨_, hrun, rfl⟩ := run_own.mp h
    obtain ⟨-, adm, -, -, rfl⟩ := run_setOperator.mp hrun
    rfl
  | setContracts registry rewardEngine =>
    obtain ⟨_, hrun, rfl⟩ := run_own.mp h
    obtain ⟨-, adm, -, -, rfl⟩ := run_setContracts.mp hrun
    rfl
  | createPayment =>
    obtain ⟨-, -, -, registry, w, -, -, rfl⟩ := run_createPayment.mp h
    rfl
  | issueReward =>
    obtain ⟨amount, h⟩ := run_void.mp h
    obtain ⟨-, r, eng, -, -, -, -, rfl⟩ := run_issueReward.mp h
    rfl
  | quotePayment =>
    obtain ⟨_, hrun, rfl⟩ := run_own.mp h
    obtain ⟨-, -, r, -, -, rfl⟩ := run_quotePayment.mp hrun
    rfl
  | markConverted | markSettled | completePayment =>
    obtain ⟨_, hrun, rfl⟩ := run_own.mp h
    obtain ⟨-, r, -, -, rfl⟩ := run_transitionOperator.mp hrun
    rfl
  | cancelPayment =>
    obtain ⟨_, hrun, rfl⟩ := run_own.mp h
    obtain ⟨-, -, r, -, -, -, rfl⟩ := run_cancelPayment.mp hrun
    rfl
  | failPayment =>
    obtain ⟨_, hrun, rfl⟩ := run_own.mp h
    obtain ⟨-, r, -, -, rfl⟩ := run_failPayment.mp hrun
    rfl

end Peers

end PayEra.PaymentEngine
