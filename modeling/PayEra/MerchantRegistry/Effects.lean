import PayEra.MerchantRegistry.Basic

/-!
# What the merchant registry's entrypoints do

For each entrypoint, exactly when it returns and the storage it leaves. `exec_effect` then says once
what a call can do to the merchants: nothing, or write one record in one of four ways.
-/

namespace PayEra.MerchantRegistry

open Soroban Soroban.Call

variable {env : Env} {s t : Storage} {u : Unit}

/-! ### Checks and reads -/

@[simp] lemma run_publish {e : Event} :
    (publish e).run env s = .ok (u, t) ↔ t = s.publish e := by
  simp [publish]

@[simp] lemma run_requireInitialized :
    requireInitialized.run env s = .ok (u, t) ↔ s.isInitialized = true ∧ t = s := by
  simp [requireInitialized, and_comm]

/-- The state in which a pausable entrypoint goes past its first check. -/
def Storage.Live (s : Storage) : Prop := s.isInitialized = true ∧ s.isPaused = false

@[simp] lemma run_requireNotPaused :
    requireNotPaused.run env s = .ok (u, t) ↔ s.Live ∧ t = s := by
  constructor
  · simp only [requireNotPaused, run_bind, run_requireInitialized, run_get, run_failIf]
    rintro ⟨_, _, ⟨hi, rfl⟩, _, _, ⟨rfl, rfl⟩, hp, rfl⟩
    exact ⟨⟨hi, by simpa using hp⟩, rfl⟩
  · rintro ⟨⟨hi, hp⟩, rfl⟩
    simp [requireNotPaused, hi, hp]

@[simp] lemma run_readAdmin {a : Address} :
    readAdmin.run env s = .ok (a, t) ↔ s.admin = some a ∧ t = s := by
  simp [readAdmin, and_comm]

@[simp] lemma run_hasMerchant {id : Bytes32} {b : Bool} :
    (hasMerchant id).run env s = .ok (b, t) ↔ b = (s.merchant id).isSome ∧ t = s := by
  simp [hasMerchant]
  grind

@[simp] lemma run_readMerchant {id : Bytes32} {r : MerchantRecord} :
    (readMerchant id).run env s = .ok (r, t) ↔ s.merchant id = some r ∧ t = s := by
  simp [readMerchant, and_comm]

@[simp] lemma run_writeMerchant {r : MerchantRecord} :
    (writeMerchant r).run env s = .ok (u, t) ↔ t = s.writeMerchant r := by
  simp [writeMerchant]

/-! ### Administration -/

/-- The contract is not paused and its admin authorized the call. -/
structure Administers (env : Env) (s : Storage) (adm : Address) : Prop where
  live : s.Live
  admin : s.admin = some adm
  auth : env.auth adm = true

lemma run_constructor {admin : Address} :
    (constructor admin).run env s = .ok (u, t) ↔
      env.auth admin = true ∧
        t = ({ s with initialized := some true, admin := some admin
                      paused := some false } : Storage).publish
          (.config .init admin admin true) := by
  simp [constructor]

lemma run_setAdmin {newAdmin : Address} :
    (setAdmin newAdmin).run env s = .ok (u, t) ↔
      ∃ adm, Administers env s adm ∧
        t = { s with pendingAdmin := some newAdmin }.publish
          (.config .admProp adm newAdmin true) := by
  constructor
  · intro h
    simp [setAdmin] at h
    obtain ⟨hlive, adm, hadm, hauth, rfl⟩ := h
    exact ⟨adm, ⟨hlive, hadm, hauth⟩, rfl⟩
  · rintro ⟨adm, ⟨hlive, hadm, hauth⟩, rfl⟩
    simp [setAdmin]
    exact ⟨hlive, adm, hadm, hauth, rfl⟩

lemma run_acceptAdmin :
    acceptAdmin.run env s = .ok (u, t) ↔
      s.Live ∧ ∃ pending oldAdmin, s.pendingAdmin = some pending ∧ env.auth pending = true ∧
        s.admin = some oldAdmin ∧
        t = { s with admin := some pending, pendingAdmin := none }.publish
          (.config .admin oldAdmin pending true) := by
  simp [acceptAdmin]

lemma run_pause :
    pause.run env s = .ok (u, t) ↔
      ∃ adm, s.admin = some adm ∧ env.auth adm = true ∧
        t = { s with paused := some true }.publish (.config .pause adm adm true) := by
  simp [pause]

lemma run_unpause :
    unpause.run env s = .ok (u, t) ↔
      ∃ adm, s.admin = some adm ∧ env.auth adm = true ∧
        t = { s with paused := some false }.publish (.config .unpause adm adm false) := by
  simp [unpause]

/-! ### Merchants -/

/-- The record that `register_merchant` writes. -/
def freshMerchant (ledger : Nat) (merchantId : Bytes32) (owner : Address)
    (upiIdHash metadataHash : Bytes32) : MerchantRecord :=
  { merchantId, owner, upiIdHash, metadataHash, status := .pending, createdLedger := ledger
    updatedLedger := ledger }

lemma run_registerMerchant {id upiIdHash metadataHash : Bytes32} {owner : Address} :
    (registerMerchant id owner upiIdHash metadataHash).run env s = .ok (u, t) ↔
      ∃ adm, Administers env s adm ∧ s.merchant id = none ∧
        t = (s.writeMerchant (freshMerchant env.ledger id owner upiIdHash metadataHash)).publish
          (.merchant .regMerch id owner .pending true) := by
  constructor
  · intro h
    simp [registerMerchant] at h
    obtain ⟨hlive, adm, hadm, hauth, hnone, rfl⟩ := h
    exact ⟨adm, ⟨hlive, hadm, hauth⟩, hnone, rfl⟩
  · rintro ⟨adm, ⟨hlive, hadm, hauth⟩, hnone, rfl⟩
    simp [registerMerchant]
    exact ⟨hlive, adm, hadm, hauth, hnone, rfl⟩

lemma run_approveMerchant {id : Bytes32} :
    (approveMerchant id).run env s = .ok (u, t) ↔
      ∃ adm r, Administers env s adm ∧ s.merchant id = some r ∧ r.status ≠ .rejected ∧
        t = (s.writeMerchant { r with status := .approved, updatedLedger := env.ledger }).publish
          (.merchant .approve id r.owner .approved true) := by
  constructor
  · intro h
    simp [approveMerchant] at h
    obtain ⟨hlive, adm, hadm, hauth, r, hr, hst, rfl⟩ := h
    exact ⟨adm, r, ⟨hlive, hadm, hauth⟩, hr, hst, rfl⟩
  · rintro ⟨adm, r, ⟨hlive, hadm, hauth⟩, hr, hst, rfl⟩
    simp [approveMerchant]
    exact ⟨hlive, adm, hadm, hauth, r, hr, hst, rfl⟩

lemma run_suspendMerchant {id : Bytes32} :
    (suspendMerchant id).run env s = .ok (u, t) ↔
      ∃ adm r, Administers env s adm ∧ s.merchant id = some r ∧ r.status = .approved ∧
        t = (s.writeMerchant { r with status := .suspended, updatedLedger := env.ledger }).publish
          (.merchant .suspend id r.owner .suspended false) := by
  constructor
  · intro h
    simp [suspendMerchant] at h
    obtain ⟨hlive, adm, hadm, hauth, r, hr, hst, rfl⟩ := h
    exact ⟨adm, r, ⟨hlive, hadm, hauth⟩, hr, hst, rfl⟩
  · rintro ⟨adm, r, ⟨hlive, hadm, hauth⟩, hr, hst, rfl⟩
    simp [suspendMerchant]
    exact ⟨hlive, adm, hadm, hauth, r, hr, hst, rfl⟩

lemma run_rejectMerchant {id : Bytes32} :
    (rejectMerchant id).run env s = .ok (u, t) ↔
      ∃ adm r, Administers env s adm ∧ s.merchant id = some r ∧ r.status = .pending ∧
        t = (s.writeMerchant { r with status := .rejected, updatedLedger := env.ledger }).publish
          (.merchant .reject id r.owner .rejected false) := by
  constructor
  · intro h
    simp [rejectMerchant] at h
    obtain ⟨hlive, adm, hadm, hauth, r, hr, hst, rfl⟩ := h
    exact ⟨adm, r, ⟨hlive, hadm, hauth⟩, hr, hst, rfl⟩
  · rintro ⟨adm, r, ⟨hlive, hadm, hauth⟩, hr, hst, rfl⟩
    simp [rejectMerchant]
    exact ⟨hlive, adm, hadm, hauth, r, hr, hst, rfl⟩

lemma run_updateMetadata {id metadataHash : Bytes32} :
    (updateMetadata id metadataHash).run env s = .ok (u, t) ↔
      s.Live ∧ ∃ r, s.merchant id = some r ∧ env.auth r.owner = true ∧
        t = (s.writeMerchant { r with metadataHash, updatedLedger := env.ledger }).publish
          (.merchant .metadata id r.owner r.status true) := by
  simp [updateMetadata]

lemma run_transferOwner {id : Bytes32} {newOwner : Address} :
    (transferOwner id newOwner).run env s = .ok (u, t) ↔
      s.Live ∧ ∃ r, s.merchant id = some r ∧ env.auth r.owner = true ∧
        t = (s.writeMerchant { r with owner := newOwner, updatedLedger := env.ledger }).publish
          (.merchant .owner id newOwner r.status true) := by
  simp [transferOwner]

lemma run_isApproved {id : Bytes32} {b : Bool} :
    (isApproved id).run env s = .ok (b, t) ↔
      s.isInitialized = true ∧ ∃ r, s.merchant id = some r ∧ b = decide (r.status = .approved) ∧
        t = s := by
  simp [isApproved]
  grind

/-! ### Reads -/

/-- The entrypoints that only read, and `heartbeat`. -/
def Entry.isRead : Entry → Bool
  | .admin | .heartbeat | .paused | .getMerchant _ | .isApproved _ => true
  | _ => false

lemma eq_of_isRead {e : Entry} (he : e.isRead = true)
    (h : (exec e).run env s = .ok (u, t)) : t = s := by
  cases e <;> simp only [Entry.isRead, Bool.false_eq_true] at he
  all_goals
    simp [exec, admin, heartbeat, paused, getMerchant, isApproved] at h
    grind

/-! ### What a call does to the merchants -/

/-- The status that a call gives to a merchant, if it is a status call on it. -/
def Entry.review (id : Bytes32) : Entry → Option MerchantStatus
  | .approveMerchant merchantId => if merchantId = id then some .approved else none
  | .suspendMerchant merchantId => if merchantId = id then some .suspended else none
  | .rejectMerchant merchantId => if merchantId = id then some .rejected else none
  | _ => none

lemma review_of_isRead {e : Entry} (he : e.isRead = true) (id : Bytes32) : e.review id = none := by
  cases e <;> first | rfl | cases he

/-- One write of a merchant record: the call, what it checked, what was there, what is there now. -/
inductive Written (env : Env) (s : Storage) : Entry → Bytes32 → MerchantRecord → Prop where
  | registered {adm owner : Address} {id upiIdHash metadataHash : Bytes32}
      (hadm : Administers env s adm) (hnone : s.merchant id = none) :
      Written env s (.registerMerchant id owner upiIdHash metadataHash) id
        (freshMerchant env.ledger id owner upiIdHash metadataHash)
  | reviewed {adm : Address} {id : Bytes32} {r : MerchantRecord} {e : Entry}
      {status : MerchantStatus} (hadm : Administers env s adm) (hr : s.merchant id = some r)
      (hst : (e = .approveMerchant id ∧ status = .approved ∧ r.status ≠ .rejected) ∨
        (e = .suspendMerchant id ∧ status = .suspended ∧ r.status = .approved) ∨
        (e = .rejectMerchant id ∧ status = .rejected ∧ r.status = .pending)) :
      Written env s e id { r with status, updatedLedger := env.ledger }
  | metadata {id metadataHash : Bytes32} {r : MerchantRecord} (hr : s.merchant id = some r)
      (hauth : env.auth r.owner = true) :
      Written env s (.updateMetadata id metadataHash) id
        { r with metadataHash, updatedLedger := env.ledger }
  | owner {id : Bytes32} {newOwner : Address} {r : MerchantRecord} (hr : s.merchant id = some r)
      (hauth : env.auth r.owner = true) :
      Written env s (.transferOwner id newOwner) id
        { r with owner := newOwner, updatedLedger := env.ledger }

/-- A successful call leaves the merchants as they were or writes one record. -/
theorem exec_effect {e : Entry} (h : (exec e).run env s = .ok (u, t)) :
    (t.merchant = s.merchant ∧ ∀ id, e.review id = none) ∨
      ∃ id r, Written env s e id r ∧
        t.merchant = Function.update s.merchant r.merchantId (some r) := by
  by_cases hread : e.isRead = true
  · rw [eq_of_isRead hread h]
    exact .inl ⟨rfl, review_of_isRead hread⟩
  · cases e with
    | admin | heartbeat | paused | getMerchant | isApproved => exact absurd rfl hread
    | setAdmin newAdmin =>
      obtain ⟨adm, -, rfl⟩ := run_setAdmin.mp h
      exact .inl ⟨rfl, fun _ => rfl⟩
    | acceptAdmin =>
      obtain ⟨-, pending, old, -, -, -, rfl⟩ := run_acceptAdmin.mp h
      exact .inl ⟨rfl, fun _ => rfl⟩
    | pause =>
      obtain ⟨adm, -, -, rfl⟩ := run_pause.mp h
      exact .inl ⟨rfl, fun _ => rfl⟩
    | unpause =>
      obtain ⟨adm, -, -, rfl⟩ := run_unpause.mp h
      exact .inl ⟨rfl, fun _ => rfl⟩
    | registerMerchant id owner upiIdHash metadataHash =>
      obtain ⟨adm, hadm, hnone, rfl⟩ := run_registerMerchant.mp h
      exact .inr ⟨_, _, .registered hadm hnone, rfl⟩
    | approveMerchant id =>
      obtain ⟨adm, r, hadm, hr, hst, rfl⟩ := run_approveMerchant.mp h
      exact .inr ⟨_, _, .reviewed hadm hr (.inl ⟨rfl, rfl, hst⟩), rfl⟩
    | suspendMerchant id =>
      obtain ⟨adm, r, hadm, hr, hst, rfl⟩ := run_suspendMerchant.mp h
      exact .inr ⟨_, _, .reviewed hadm hr (.inr (.inl ⟨rfl, rfl, hst⟩)), rfl⟩
    | rejectMerchant id =>
      obtain ⟨adm, r, hadm, hr, hst, rfl⟩ := run_rejectMerchant.mp h
      exact .inr ⟨_, _, .reviewed hadm hr (.inr (.inr ⟨rfl, rfl, hst⟩)), rfl⟩
    | updateMetadata id metadataHash =>
      obtain ⟨-, r, hr, hauth, rfl⟩ := run_updateMetadata.mp h
      exact .inr ⟨_, _, .metadata hr hauth, rfl⟩
    | transferOwner id newOwner =>
      obtain ⟨-, r, hr, hauth, rfl⟩ := run_transferOwner.mp h
      exact .inr ⟨_, _, .owner hr hauth, rfl⟩

/-- A deployed registry stays initialized. -/
lemma exec_initialized {e : Entry} (h : (exec e).run env s = .ok (u, t)) :
    t.initialized = s.initialized := by
  by_cases hread : e.isRead = true
  · rw [eq_of_isRead hread h]
  · cases e with
    | admin | heartbeat | paused | getMerchant | isApproved => exact absurd rfl hread
    | setAdmin =>
      obtain ⟨adm, -, rfl⟩ := run_setAdmin.mp h
      rfl
    | acceptAdmin =>
      obtain ⟨-, pending, old, -, -, -, rfl⟩ := run_acceptAdmin.mp h
      rfl
    | pause =>
      obtain ⟨adm, -, -, rfl⟩ := run_pause.mp h
      rfl
    | unpause =>
      obtain ⟨adm, -, -, rfl⟩ := run_unpause.mp h
      rfl
    | registerMerchant =>
      obtain ⟨adm, -, -, rfl⟩ := run_registerMerchant.mp h
      rfl
    | approveMerchant =>
      obtain ⟨adm, r, -, -, -, rfl⟩ := run_approveMerchant.mp h
      rfl
    | suspendMerchant =>
      obtain ⟨adm, r, -, -, -, rfl⟩ := run_suspendMerchant.mp h
      rfl
    | rejectMerchant =>
      obtain ⟨adm, r, -, -, -, rfl⟩ := run_rejectMerchant.mp h
      rfl
    | updateMetadata =>
      obtain ⟨-, r, -, -, rfl⟩ := run_updateMetadata.mp h
      rfl
    | transferOwner =>
      obtain ⟨-, r, -, -, rfl⟩ := run_transferOwner.mp h
      rfl

end PayEra.MerchantRegistry
