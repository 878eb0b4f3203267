import PayEra.RewardEngine.Basic

/-!
# What the reward engine's entrypoints do

Exactly when each entrypoint returns and the state it leaves. The three issuing entrypoints are
one: `run_execIssue` inverts them all, and `exec_effect` says that a call either issues one reward
or touches neither the rewards nor the other contracts.
-/

namespace PayEra.RewardEngine

open Soroban Soroban.Call

/-! ### Checks and reads -/

section Own

variable {env : Env} {s t : Storage} {u : Unit}

@[simp] lemma run_publish {e : Event} :
    (publish e).run env s = .ok (u, t) ↔ t = s.publish e := by
  simp [publish]

@[simp] lemma run_requireInitialized :
    requireInitialized.run env s = .ok (u, t) ↔ s.isInitialized = true ∧ t = s := by
  simp [requireInitialized, and_comm]

/-- The state in which a pausable entrypoint goes past its first check. -/
def Storage.Live (s : Storage) : Prop := s.isInitialized = true ∧ s.isPaused = false

@[simp] lemma run_requireNotPaused :
    requireNotPaused.run env s = .ok (u, t) ↔ s.Live ∧ t = s := by
  constructor
  · simp only [requireNotPaused, run_bind, run_requireInitialized, run_get, run_failIf]
    rintro ⟨_, _, ⟨hi, rfl⟩, _, _, ⟨rfl, rfl⟩, hp, rfl⟩
    exact ⟨⟨hi, by simpa using hp⟩, rfl⟩
  · rintro ⟨⟨hi, hp⟩, rfl⟩
    simp [requireNotPaused, hi, hp]

@[simp] lemma run_readAdmin {a : Address} :
    readAdmin.run env s = .ok (a, t) ↔ s.admin = some a ∧ t = s := by
  simp [readAdmin, and_comm]

@[simp] lemma run_readStarToken {a : Address} :
    readStarToken.run env s = .ok (a, t) ↔ s.starToken = some a ∧ t = s := by
  simp [readStarToken, and_comm]

@[simp] lemma run_readReward {rewardId : Bytes32} {r : RewardRecord} :
    (readReward rewardId).run env s = .ok (r, t) ↔ s.reward rewardId = some r ∧ t = s := by
  simp [readReward, and_comm]

/-! ### Configuration -/

lemma run_constructor {admin starToken : Address} :
    (constructor admin starToken).run env s = .ok (u, t) ↔
      env.auth admin = true ∧
        t = (({ s with
            initialized := some true
            admin := some admin
            paused := some false
            starToken := some starToken } : Storage).setIssuer admin true).publish
          (.config .init admin starToken true) := by
  simp [constructor]

lemma run_setAdmin {newAdmin : Address} :
    (setAdmin newAdmin).run env s = .ok (u, t) ↔
      s.Live ∧ ∃ adm, s.admin = some adm ∧ env.auth adm = true ∧
        t = { s with pendingAdmin := some newAdmin }.publish
          (.config .admProp adm newAdmin true) := by
  simp [setAdmin]

/-- The storage after the role went from `oldAdmin` to `pending`. -/
def Storage.handOver (s : Storage) (oldAdmin pending : Address) : Storage :=
  let revoked := if oldAdmin ≠ pending then s.setIssuer oldAdmin false else s
  ({ revoked with admin := some pending, pendingAdmin := none }).setIssuer pending true

lemma run_acceptAdmin :
    acceptAdmin.run env s = .ok (u, t) ↔
      s.Live ∧ ∃ pending oldAdmin, s.pendingAdmin = some pending ∧ env.auth pending = true ∧
        s.admin = some oldAdmin ∧
        t = (s.handOver oldAdmin pending).publish (.config .admin oldAdmin pending true) := by
  simp [acceptAdmin, Storage.handOver]
  grind

lemma run_pause :
    pause.run env s = .ok (u, t) ↔
      ∃ adm, s.admin = some adm ∧ env.auth adm = true ∧
        t = { s with paused := some true }.publish (.config .pause adm adm true) := by
  simp [pause]

lemma run_unpause :
    unpause.run env s = .ok (u, t) ↔
      ∃ adm, s.admin = some adm ∧ env.auth adm = true ∧
        t = { s with paused := some false }.publish (.config .unpause adm adm false) := by
  simp [unpause]

lemma run_setStarToken {starToken : Address} :
    (setStarToken starToken).run env s = .ok (u, t) ↔
      s.Live ∧ ∃ adm, s.admin = some adm ∧ env.auth adm = true ∧
        t = { s with starToken := some starToken }.publish
          (.config .star adm starToken true) := by
  simp [setStarToken]

lemma run_setIssuer {issuer : Address} {enabled : Bool} :
    (setIssuer issuer enabled).run env s = .ok (u, t) ↔
      s.Live ∧ ∃ adm, s.admin = some adm ∧ env.auth adm = true ∧
        t = (s.setIssuer issuer enabled).publish (.config .issuer issuer issuer enabled) := by
  simp [setIssuer]

end Own

/-! ### Issuing -/

namespace Issue

def issuer : Issue → Address
  | .spend issuer .. | .referral issuer .. | .campaign issuer .. => issuer

def rewardId : Issue → Bytes32
  | .spend _ rewardId .. | .referral _ rewardId .. | .campaign _ rewardId .. => rewardId

def recipient : Issue → Address
  | .spend _ _ recipient .. | .referral _ _ recipient .. | .campaign _ _ recipient .. => recipient

def sourceId : Issue → Bytes32
  | .spend _ _ _ sourceId _ | .referral _ _ _ sourceId | .campaign _ _ _ sourceId _ => sourceId

def kind : Issue → RewardKind
  | .spend .. => .spend
  | .referral .. => .referral
  | .campaign .. => .campaign

/-- The STAR that an issuing call is worth; `none` where a spend amount has no reward. -/
def amountStar : Issue → Option I128
  | .spend _ _ _ _ amountInPaise =>
    if amountInPaise.val ≤ 0 then none else I128.ofInt? (amountInPaise.val.tdiv 10000 * 10)
  | .referral .. => some REFERRAL_REWARD_STAR
  | .campaign _ _ _ _ amountStar => some amountStar

/-- The record that an issuing call writes. -/
def record (i : Issue) (amountStar : I128) (ledger : Nat) : RewardRecord :=
  { rewardId := i.rewardId, recipient := i.recipient, sourceId := i.sourceId, issuer := i.issuer
    kind := i.kind, amountStar, createdLedger := ledger }

end Issue

section Peers

variable {ω : Type} {star : StarTokenClient ω} {env : Env} {s t : WithPeers Storage ω} {u : Unit}

/-- A reward is issued: everything that was checked, the mint, and the record. -/
structure Issued (star : StarTokenClient ω) (env : Env) (s : WithPeers Storage ω) (i : Issue)
    (amountStar : I128) (t : WithPeers Storage ω) : Prop where
  amount : i.amountStar = some amountStar
  positive : 0 < amountStar.val
  live : s.own.Live
  auth : env.auth i.issuer = true
  authorized : s.own.isAuthorizedIssuer i.issuer = true
  fresh : s.own.reward i.rewardId = none
  minted : ∃ starToken w, s.own.starToken = some starToken ∧
    star starToken env.self i.recipient amountStar (env.nested starToken) s.peers =
      some ((), w) ∧
    t = ⟨(s.own.setReward (i.record amountStar env.ledger)).publish
      (.issued i.rewardId i.recipient i.issuer i.kind amountStar), w⟩

lemma run_issueReward {issuer recipient : Address} {rewardId sourceId : Bytes32}
    {kind : RewardKind} {amountStar n : I128} :
    (issueReward star issuer rewardId recipient sourceId kind amountStar).run env s =
        .ok (n, t) ↔
      n = amountStar ∧ s.own.Live ∧ 0 < amountStar.val ∧ env.auth issuer = true ∧
      s.own.isAuthorizedIssuer issuer = true ∧ s.own.reward rewardId = none ∧
      ∃ starToken w, s.own.starToken = some starToken ∧
        star starToken env.self recipient amountStar (env.nested starToken) s.peers =
          some ((), w) ∧
        t = ⟨(s.own.setReward ⟨rewardId, recipient, sourceId, issuer, kind, amountStar,
            env.ledger⟩).publish (.issued rewardId recipient issuer kind amountStar), w⟩ := by
  constructor
  · intro h
    simp [issueReward] at h
    obtain ⟨hl, hpos, hauth, hiss, hfresh, token, htok, _, w, hmint, rfl, rfl⟩ := h
    exact ⟨rfl, hl, hpos, hauth, hiss, hfresh, token, w, htok, hmint, rfl⟩
  · rintro ⟨rfl, hl, hpos, hauth, hiss, hfresh, token, w, htok, hmint, rfl⟩
    simp [issueReward]
    exact ⟨hl, hpos, hauth, hiss, hfresh, token, htok, (), hmint⟩

lemma run_calculateSpendReward {σ : Type} {s t : σ} {amountInPaise n : I128} :
    (calculateSpendReward amountInPaise).run env s = .ok (n, t) ↔
      0 < amountInPaise.val ∧ n.val = amountInPaise.val.tdiv 10000 * 10 ∧ t = s := by
  constructor
  · intro h
    simp [calculateSpendReward, PAISE_PER_100_INR, SPEND_REWARD_STAR_PER_100_INR] at h
    obtain ⟨hpos, units, ⟨hu, hst⟩, hn⟩ := h
    exact ⟨hpos, by rw [hn, hu], hst⟩
  · rintro ⟨hpos, hn, rfl⟩
    obtain ⟨units, hu⟩ : ∃ units : I128, units.val = amountInPaise.val.tdiv 10000 := by
      have hdiv := Int.tdiv_eq_ediv_of_nonneg (b := 10000) hpos.le
      have hhi := amountInPaise.upper
      exact ⟨⟨amountInPaise.val.tdiv 10000, by omega, by omega⟩, rfl⟩
    simp [calculateSpendReward, PAISE_PER_100_INR, SPEND_REWARD_STAR_PER_100_INR]
    exact ⟨hpos, units, hu, by rw [hn, hu]⟩

/-- The three issuing entrypoints differ in the amount and the kind only. -/
theorem run_execIssue {i : Issue} {n : I128} :
    (execIssue star i).run env s = .ok (n, t) ↔ Issued star env s i n t := by
  constructor
  · intro h
    cases i with
    | spend issuer rewardId recipient sourceId amount =>
      simp only [execIssue, issueSpendReward, run_bind, run_calculateSpendReward, run_failIf,
        run_issueReward] at h
      obtain ⟨m, _, ⟨hpos, hm, rfl⟩, _, _, ⟨-, rfl⟩, rfl, hl, hn, hauth, hiss, hfresh, hmint⟩ := h
      refine ⟨?_, hn, hl, hauth, hiss, hfresh, hmint⟩
      rw [Issue.amountStar, if_neg (not_le.mpr hpos), I128.ofInt?_eq_some, hm]
    | referral =>
      obtain ⟨rfl, hl, hn, hauth, hiss, hfresh, hmint⟩ := run_issueReward.mp h
      exact ⟨rfl, hn, hl, hauth, hiss, hfresh, hmint⟩
    | campaign =>
      obtain ⟨rfl, hl, hn, hauth, hiss, hfresh, hmint⟩ := run_issueReward.mp h
      exact ⟨rfl, hn, hl, hauth, hiss, hfresh, hmint⟩
  · rintro ⟨hamount, hn, hl, hauth, hiss, hfresh, hmint⟩
    cases i with
    | spend issuer rewardId recipient sourceId amount =>
      rw [Issue.amountStar] at hamount
      split_ifs at hamount with hpos
      simp only [execIssue, issueSpendReward, run_bind, run_calculateSpendReward, run_failIf,
        run_issueReward]
      exact ⟨n, s, ⟨not_le.mp hpos, I128.ofInt?_eq_some.mp hamount, rfl⟩, (), s,
        ⟨not_le.mpr hn, rfl⟩, rfl, hl, hn, hauth, hiss, hfresh, hmint⟩
    | referral =>
      cases hamount
      exact run_issueReward.mpr ⟨rfl, hl, hn, hauth, hiss, hfresh, hmint⟩
    | campaign =>
      cases hamount
      exact run_issueReward.mpr ⟨rfl, hl, hn, hauth, hiss, hfresh, hmint⟩

/-! ### What a call does to the rewards -/

/-- Same rewards, and the other contracts as they were. -/
structure SameRewards (s t : WithPeers Storage ω) : Prop where
  reward : t.own.reward = s.own.reward
  peers : t.peers = s.peers

/-- A successful call issues one reward or leaves the rewards and the other contracts alone. -/
theorem exec_effect {e : Entry} (h : (exec star e).run env s = .ok (u, t)) :
    SameRewards s t ∨ ∃ i n, e = .issue i ∧ Issued star env s i n t := by
  cases e with
  | admin | heartbeat | paused | isIssuer | getReward =>
    simp [exec, admin, heartbeat, paused, isIssuer, getReward] at h
    left
    constructor <;> grind
  | calculateSpendReward amountInPaise =>
    obtain ⟨n, h⟩ := run_void.mp h
    obtain ⟨-, -, rfl⟩ := run_calculateSpendReward.mp h
    exact .inl ⟨rfl, rfl⟩
  | setAdmin newAdmin =>
    obtain ⟨_, hrun, rfl⟩ := run_own.mp h
    obtain ⟨-, adm, -, -, rfl⟩ := run_setAdmin.mp hrun
    exact .inl ⟨rfl, rfl⟩
  | acceptAdmin =>
    obtain ⟨_, hrun, rfl⟩ := run_own.mp h
    obtain ⟨-, pending, old, -, -, -, rfl⟩ := run_acceptAdmin.mp hrun
    refine .inl ⟨?_, rfl⟩
    show (s.own.handOver old pending).reward = s.own.reward
    unfold Storage.handOver
    split_ifs <;> rfl
  | pause =>
    obtain ⟨_, hrun, rfl⟩ := run_own.mp h
    obtain ⟨adm, -, -, rfl⟩ := run_pause.mp hrun
    exact .inl ⟨rfl, rfl⟩
  | unpause =>
    obtain ⟨_, hrun, rfl⟩ := run_own.mp h
    obtain ⟨adm, -, -, rfl⟩ := run_unpause.mp hrun
    exact .inl ⟨rfl, rfl⟩
  | setStarToken starToken =>
    obtain ⟨_, hrun, rfl⟩ := run_own.mp h
    obtain ⟨-, adm, -, -, rfl⟩ := run_setStarToken.mp hrun
    exact .inl ⟨rfl, rfl⟩
  | setIssuer issuer enabled =>
    obtain ⟨_, hrun, rfl⟩ := run_own.mp h
    obtain ⟨-, adm, -, -, rfl⟩ := run_setIssuer.mp hrun
    exact .inl ⟨rfl, rfl⟩
  | issue i =>
    obtain ⟨n, h⟩ := run_void.mp h
    exact .inr ⟨i, n, rfl, run_execIssue.mp h⟩

end Peers

end PayEra.RewardEngine
