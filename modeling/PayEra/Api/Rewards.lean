import PayEra.Api.Answers
import PayEra.Api.Sessions
import PayEra.Lib.Script

/-!
# Rewards

The services that write rewards and referrals: `create`, `mint` and `reverse` of
`apps/api/src/rewards/rewards.service.ts`, `apps/api/src/referrals/referrals.service.ts`, and the
transaction services. The unique constraints of the tables are checked where they are written; the rest
of the system writes neither table.
-/

namespace PayEra.Api.Rewards

open Async (Program Event Journal Setting)
open Async.Program

/-! ### Tables -/

inductive ReferralStatus where
  | INVITED | QUALIFIED | REWARDED | EXPIRED | CANCELLED
  deriving DecidableEq, Repr

structure Referral where
  id : String
  code : String
  inviterUserId : String
  invitedUserId : Option String := none
  status : ReferralStatus := .INVITED
  firstTransactionId : Option String := none
  rewardAmountStar : ℤ
  qualifiedAt : Option ℕ := none
  rewardedAt : Option ℕ := none
  expiresAt : Option ℕ
  deriving DecidableEq

structure ReferralData where
  status : ReferralStatus
  invitedUserId : Option String := none
  firstTransactionId : Option String := none
  qualifiedAt : Option ℕ := none
  rewardedAt : Option ℕ := none
  deriving DecidableEq

def Referral.update (r : Referral) (d : ReferralData) : Referral :=
  { r with
    status := d.status
    invitedUserId := d.invitedUserId <|> r.invitedUserId
    firstTransactionId := d.firstTransactionId <|> r.firstTransactionId
    qualifiedAt := d.qualifiedAt <|> r.qualifiedAt
    rewardedAt := d.rewardedAt <|> r.rewardedAt }

/-- The columns that a new reward is given. -/
structure NewReward where
  userId : String
  transactionId : Option String := none
  referralId : Option String := none
  reason : RewardReason
  status : RewardStatus
  starAmount : ℤ
  formulaVersion : String
  mintedAt : Option ℕ := none
  deriving DecidableEq

def NewReward.row (data : NewReward) (id : String) : Reward where
  id := id
  userId := data.userId
  transactionId := data.transactionId
  reason := data.reason
  status := data.status
  starAmount := data.starAmount
  formulaVersion := data.formulaVersion
  mintedAt := data.mintedAt

/-- The unique columns of rewards. -/
structure Unique (rewards : List Reward) : Prop where
  id : (rewards.map (·.id)).Nodup
  stellarMintHash : (rewards.filterMap (·.stellarMintHash)).Nodup
  transactionReason : (rewards.filterMap fun r => r.transactionId.map fun id => (id, r.reason)).Nodup

instance (rewards : List Reward) : Decidable (Unique rewards) :=
  decidable_of_iff (_ ∧ _ ∧ _) ⟨fun h => ⟨h.1, h.2.1, h.2.2⟩, fun h => ⟨h.1, h.2, h.3⟩⟩

/-- The unique columns of referrals. -/
structure UniqueReferrals (referrals : List Referral) : Prop where
  id : (referrals.map (·.id)).Nodup
  code : (referrals.map (·.code)).Nodup
  invitedUserId : (referrals.filterMap (·.invitedUserId)).Nodup
  firstTransactionId : (referrals.filterMap (·.firstTransactionId)).Nodup

instance (referrals : List Referral) : Decidable (UniqueReferrals referrals) :=
  decidable_of_iff (_ ∧ _ ∧ _ ∧ _)
    ⟨fun h => ⟨h.1, h.2.1, h.2.2.1, h.2.2.2⟩, fun h => ⟨h.1, h.2, h.3, h.4⟩⟩

/-- The backend, the columns of rewards that the transaction services do not use, the referrals, and
the mints on chain with their hashes. -/
structure Treasury where
  backend : Backend := {}
  referralId : String → Option String := fun _ => none
  reversedAt : String → Option ℕ := fun _ => none
  referrals : List Referral := []
  mints : List (String × String) := []

/-! ### Calls -/

inductive RewardOp where
  | service (c : Request)
  | create (data : NewReward)
  | mint (id : String) (mintedAt : ℕ)
  | reverse (id : String) (reversedAt : ℕ)
  | findReferral (id : String)
  | findReferralByCode (code : String)
  | createReferral (code inviterUserId : String) (rewardAmountStar : ℤ) (expiresAt : Option ℕ)
  | updateReferral (id : String) (data : ReferralData)
  | findTransaction (id : String)
  /-- The `$transaction` of `reward`. -/
  | rewardReferral (referral : Referral) (mintedAt rewardedAt : ℕ)
  deriving DecidableEq

abbrev RewardOp.Res : RewardOp → Type
  | .service c => c.Res
  | .create _ | .mint _ _ | .reverse _ _ => Reward
  | .findReferral _ | .findReferralByCode _ => Option Referral
  | .createReferral _ _ _ _ | .updateReferral _ _ => Referral
  | .findTransaction _ => Option Transaction
  | .rewardReferral _ _ _ => Referral × Reward

namespace Treasury

variable (d : Treasury)

def reward (id : String) : Option Reward := d.backend.rewards.find? (·.id = id)

/-- The reward of a referral. -/
def rewardOf (referralId : String) : Option Reward :=
  d.backend.rewards.find? fun r => d.referralId r.id = some referralId

/-- `reward.update`, by the id. -/
def update (id : String) (data : RewardData) : Option (Reward × Treasury) :=
  (d.reward id).bind fun r =>
    let rewards := updateWhere (·.id = id) (·.update data) d.backend.rewards
    if Unique rewards then
      some (r.update data, { d with backend := { d.backend with rewards } })
    else none

/-- `reward.create`. The database checks that the amount is positive. -/
def insert (o : Oracle) (data : NewReward) : Option (Reward × Treasury) :=
  let rewards := d.backend.rewards ++ [data.row o.uuid]
  if Unique rewards ∧ data.referralId.all (fun id => (d.rewardOf id).isNone) ∧ 0 < data.starAmount then
    some (data.row o.uuid, { d with
      backend := { d.backend with rewards }
      referralId := Function.update d.referralId o.uuid data.referralId })
  else none

/-- `reward.upsert`, by the referral. -/
def upsert (o : Oracle) (referral : Referral) (mintedAt : ℕ) : Option (Reward × Treasury) :=
  match d.rewardOf referral.id with
  | some r => d.update r.id { status := some .MINTED }
  | none => d.insert o
    { userId := referral.inviterUserId, referralId := some referral.id, reason := .REFERRAL
      status := .MINTED, starAmount := referral.rewardAmountStar, formulaVersion := "REFERRAL_V1"
      mintedAt := some mintedAt }

def referral (id : String) : Option Referral := d.referrals.find? (·.id = id)

/-- `referral.update`, by the id. -/
def updateReferral (id : String) (data : ReferralData) : Option (Referral × Treasury) :=
  (d.referral id).bind fun r =>
    let referrals := updateWhere (·.id = id) (·.update data) d.referrals
    if UniqueReferrals referrals then some (r.update data, { d with referrals }) else none

/-- `referral.create`. -/
def insertReferral (r : Referral) : Option (Referral × Treasury) :=
  if UniqueReferrals (d.referrals ++ [r]) then
    some (r, { d with referrals := d.referrals ++ [r] })
  else none

end Treasury

/-- A mint on chain with its hash. -/
def minted : (op : Op) → op.Res → List (String × String)
  | .issueStarReward p, hash => [(p.rewardId, hash)]
  | _, _ => []

/-- What a call does when it returns. -/
def Treasury.answer (o : Oracle) : (op : RewardOp) → Treasury → Option (op.Res × Treasury)
  | .service c, d =>
    (Backend.answer o c.op d.backend).bind fun (v, b) =>
      if b.rewards = d.backend.rewards ∨ Unique b.rewards then
        some (v, { d with backend := b, mints := d.mints ++ minted c.op v })
      else none
  | .create data, d => d.insert o data
  | .mint id mintedAt, d =>
    d.update id { status := some .MINTED, mintedAt := some mintedAt, stellarMintHash := some none }
  | .reverse id reversedAt, d =>
    (d.update id { status := some .REVERSED }).map fun (r, d) =>
      (r, { d with reversedAt := Function.update d.reversedAt id (some reversedAt) })
  | .findReferral id, d => some (d.referral id, d)
  | .findReferralByCode code, d => some (d.referrals.find? (·.code = code), d)
  | .createReferral code inviterUserId rewardAmountStar expiresAt, d =>
    d.insertReferral { id := o.uuid, code, inviterUserId, rewardAmountStar, expiresAt }
  | .updateReferral id data, d => d.updateReferral id data
  | .findTransaction id, d => some (d.backend.transaction id, d)
  | .rewardReferral referral mintedAt rewardedAt, d =>
    (d.upsert o referral mintedAt).bind fun (r, d) =>
      (d.updateReferral referral.id { status := .REWARDED, rewardedAt := some rewardedAt }).map
        fun (referral, d) => ((referral, r), d)

/-! ### The services -/

abbrev RewardProgram (α : Type) := Program RewardOp RewardOp.Res String α

def ask (op : RewardOp) : RewardProgram op.Res := Program.perform op

/-- The code of the transaction services. -/
def onTreasury {α : Type} : Service α → RewardProgram α
  | .done r => .done r
  | .await c k => .await (.service c) fun r => onTreasury (k r)

/-- `new Date()`. -/
def date : RewardProgram ℕ := ask (.service ⟨.request, .now⟩)

structure CreateRewardDto where
  userId : String
  transactionId : Option String
  referralId : Option String
  reason : RewardReason
  starAmount : ℤ
  status : Option RewardStatus
  formulaVersion : Option String

namespace RewardsService

def create (dto : CreateRewardDto) : RewardProgram Reward :=
  ask (.create
    { formulaVersion := dto.formulaVersion.getD "MANUAL_V1", reason := dto.reason
      referralId := dto.referralId, starAmount := dto.starAmount
      status := dto.status.getD .PENDING, transactionId := dto.transactionId
      userId := dto.userId })

def mint (id : String) : RewardProgram Reward := do
  let mintedAt : ℕ ← date
  ask (.mint id mintedAt)

def reverse (id : String) : RewardProgram Reward := do
  let reversedAt : ℕ ← date
  ask (.reverse id reversedAt)

end RewardsService

def REFERRAL_REWARD_STAR : ℤ := 100

namespace ReferralsService

def createInvite (owner : Principal) (code : String) (expiresAt : Option ℕ) :
    RewardProgram Referral :=
  ask (.createReferral code owner.id REFERRAL_REWARD_STAR expiresAt)

/-- The invited user may accept again. -/
def accept (owner : Principal) (code : String) : RewardProgram Referral := do
  let referral : Option Referral ← ask (.findReferralByCode code)
  match referral with
  | none => throw "Referral code not found"
  | some referral =>
    if referral.inviterUserId = owner.id then throw "Cannot accept your own referral" else
    if referral.invitedUserId ≠ none ∧ referral.invitedUserId ≠ some owner.id then
      throw "Referral code has already been accepted" else
    let now : ℕ ← date
    if referral.expiresAt.any (· < now) then throw "Referral code has expired" else
    ask (.updateReferral referral.id { invitedUserId := some owner.id, status := .INVITED })

def findVisible (owner : Principal) (id : String) : RewardProgram Referral := do
  let referral : Option Referral ← ask (.findReferral id)
  match referral with
  | none => throw "Referral not found"
  | some referral =>
    if owner.role = .ADMIN ∨ referral.inviterUserId = owner.id ∨
        referral.invitedUserId = some owner.id then
      pure referral
    else throw "Referral is not visible to this user"

def qualify (owner : Principal) (id firstTransactionId : String) : RewardProgram Referral := do
  let referral : Referral ← findVisible owner id
  match referral.invitedUserId with
  | none => throw "Referral has not been accepted"
  | some invitedUserId =>
    let transaction : Option Transaction ← ask (.findTransaction firstTransactionId)
    if transaction.any fun t => t.userId = invitedUserId ∧ t.status = .COMPLETED then
      let qualifiedAt : ℕ ← date
      ask (.updateReferral id
        { firstTransactionId := some firstTransactionId, qualifiedAt := some qualifiedAt
          status := .QUALIFIED })
    else throw "First transaction must be completed by the invited user"

def reward (owner : Principal) (id : String) : RewardProgram (Referral × Reward) := do
  let referral : Referral ← findVisible owner id
  if referral.status ≠ .QUALIFIED then throw "Referral must be qualified before reward" else
    let mintedAt : ℕ ← date
    let rewardedAt : ℕ ← date
    ask (.rewardReferral referral mintedAt rewardedAt)

end ReferralsService

/-! ### Sessions -/

/-- What is asked of the services of rewards and referrals. -/
inductive RewardRequest where
  | create (dto : CreateRewardDto)
  | mint (id : String)
  | reverse (id : String)
  | invite (owner : Principal) (code : String) (expiresAt : Option ℕ)
  | accept (owner : Principal) (code : String)
  | qualify (owner : Principal) (id firstTransactionId : String)
  | reward (owner : Principal) (id : String)

def RewardRequest.program : RewardRequest → RewardProgram Unit
  | .create dto => do
    let _ ← RewardsService.create dto
  | .mint id => do
    let _ ← RewardsService.mint id
  | .reverse id => do
    let _ ← RewardsService.reverse id
  | .invite owner code expiresAt => do
    let _ ← ReferralsService.createInvite owner code expiresAt
  | .accept owner code => do
    let _ ← ReferralsService.accept owner code
  | .qualify owner id firstTransactionId => do
    let _ ← ReferralsService.qualify owner id firstTransactionId
  | .reward owner id => do
    let _ ← ReferralsService.reward owner id

/-- What touches the rewards: the transaction services, and requests. -/
inductive Task where
  | api (q : Asked)
  | request (q : RewardRequest)

def Task.program (js : Js) : Task → RewardProgram Unit
  | .api q => onTreasury (q.program js)
  | .request q => q.program

def TreasuryReturns (op : RewardOp) (d : Treasury) (v : op.Res) (d' : Treasury) : Prop :=
  ∃ o, Treasury.answer o op d = some (v, d')

def TreasuryTotal : RewardOp → Prop
  | .service c => Total c
  | _ => False

/-- Nothing has been done on the transactions yet; there may be rewards and referrals. -/
structure Treasury.Opened (d : Treasury) : Prop where
  backend : d.backend.Empty
  rewards : Unique d.backend.rewards
  referrals : UniqueReferrals d.referrals

/-- The rest of the system leaves rewards, referrals and mints alone. -/
structure Treasury.Other (d d' : Treasury) : Prop where
  backend : Backend.Other d.backend d'.backend
  referrals : d'.referrals.Perm d.referrals
  rewards : d'.backend.rewards.Perm d.backend.rewards
  referralId : d'.referralId = d.referralId
  reversedAt : d'.reversedAt = d.reversedAt
  mints : d'.mints = d.mints

abbrev Working := Event Task RewardOp (Except String Unit)

abbrev Working.Res (e : Working) : Type := Async.Event.Res RewardOp.Res e

abbrev Books := Journal Treasury Task RewardOp RewardOp.Res String Unit

/-- A call that took effect. -/
abbrev Done := Async.Effect Treasury RewardOp

abbrev TaskInProgress := Program Working (Event.Res RewardOp.Res) String Unit

abbrev BooksCondition :=
  Multiset TaskInProgress → (e : Working) → Books → Except String (Working.Res e) → Prop

/-- Any interleaving of tasks, with any failures. -/
abbrev treasuryStaffing (js : Js) (cond : BooksCondition) :
    Setting Books Working (Event.Res RewardOp.Res) String :=
  Async.sessions TreasuryReturns TreasuryTotal (fun _ => False) (Task.program js) Treasury.Opened
    Treasury.Other cond

abbrev treasury (js : Js) (cond : BooksCondition) := Async.system (treasuryStaffing js cond)

abbrev TreasuryState := Async.Pool Books Working (Event.Res RewardOp.Res) String

abbrev TreasuryMove := Transition.Move TreasuryState (Async.Label Working (Event.Res RewardOp.Res) String)

abbrev Works (e : Working) (w : Books) (r : Except String (Working.Res e)) (w' : Books) : Prop :=
  Async.happens TreasuryReturns TreasuryTotal (fun _ => False) e w r w'

def anyWork : BooksCondition := fun _ _ _ _ => True

/-! ### What calls do to a row -/

/-- The row that a call updates, and with what. -/
def RewardOp.target (d : Treasury) : RewardOp → Option (String × RewardData)
  | .service ⟨_, .updateReward id data⟩ => some (id, data)
  | .mint id mintedAt =>
    some (id, { status := some .MINTED, mintedAt := some mintedAt, stellarMintHash := some none })
  | .reverse id _ => some (id, { status := some .REVERSED })
  | .rewardReferral referral _ _ =>
    (d.rewardOf referral.id).map fun r => (r.id, { status := some .MINTED })
  | _ => none

/-- What becomes of a row. -/
def RewardOp.written (op : RewardOp) (d : Treasury) (r : Reward) : Reward :=
  match op.target d with
  | some (id, data) => if r.id = id then r.update data else r
  | none => r

section Rows

variable {d d' : Treasury} {o : Oracle} {op : RewardOp} {id : String} {r : Reward}

@[simp] lemma update_id (r : Reward) (data : RewardData) : (r.update data).id = r.id := rfl

lemma id_of_reward (h : d.reward id = some r) : r.id = id := by simpa using List.find?_some h

lemma mem_of_reward (h : d.reward id = some r) : r ∈ d.backend.rewards := List.mem_of_find?_eq_some h

lemma reward_of_mem (hd : Unique d.backend.rewards) (hr : r ∈ d.backend.rewards) :
    d.reward r.id = some r := by
  obtain ⟨r', hr'⟩ : ∃ r', d.reward r.id = some r' :=
    Option.isSome_iff_exists.mp (List.find?_isSome.mpr ⟨r, hr, decide_eq_true rfl⟩)
  rw [hr', List.inj_on_of_nodup_map hd.id (mem_of_reward hr') hr (id_of_reward hr')]

lemma reward_updateWhere {data : RewardData} {i : String}
    (h : d'.backend.rewards = updateWhere (·.id = i) (·.update data) d.backend.rewards)
    (hr : d.reward id = some r) : d'.reward id = some (if r.id = i then r.update data else r) := by
  have hkey (r : Reward) : (r.update data).id = r.id := rfl
  have hfind : d'.reward id = (d.reward id).map fun r => if i = id then r.update data else r := by
    rw [Treasury.reward, h]
    exact find?_updateWhere_key hkey id i
  rw [hfind, hr, Option.map_some, id_of_reward hr]
  by_cases heq : i = id
  · rw [if_pos heq, if_pos heq.symm]
  · rw [if_neg heq, if_neg (Ne.symm heq)]

lemma reward_append {rows : List Reward} (h : d'.backend.rewards = d.backend.rewards ++ rows)
    (hr : d.reward id = some r) : d'.reward id = some r := by
  rw [Treasury.reward] at hr
  rw [Treasury.reward, h, List.find?_append, hr]
  rfl

/-- What a call that returns does to the table of rewards. -/
structure Rewrites (op : RewardOp) (d d' : Treasury) : Prop where
  rows : ∀ id r, d.reward id = some r → d'.reward id = some (op.written d r)
  target : ∀ id data, op.target d = some (id, data) → (d.reward id).isSome
  unique : Unique d.backend.rewards → Unique d'.backend.rewards

/-- Rows are only added. -/
lemma rewrites_of_append {rows : List Reward} (htarget : op.target d = none)
    (h : d'.backend.rewards = d.backend.rewards ++ rows)
    (hunique : Unique d.backend.rewards → Unique d'.backend.rewards) : Rewrites op d d' where
  rows id r hr := by
    rw [RewardOp.written, htarget]
    exact reward_append h hr
  target id data h := by
    rw [htarget] at h
    cases h
  unique := hunique

lemma rewrites_of_eq (htarget : op.target d = none) (h : d'.backend.rewards = d.backend.rewards) :
    Rewrites op d d' :=
  rewrites_of_append htarget (h.trans (List.append_nil _).symm) fun hd => by rwa [h]

/-- One row is updated. -/
lemma rewrites_of_update {i : String} {data : RewardData} (htarget : op.target d = some (i, data))
    (hsome : (d.reward i).isSome)
    (hunique : Unique d.backend.rewards → Unique d'.backend.rewards)
    (h : d'.backend.rewards = updateWhere (·.id = i) (·.update data) d.backend.rewards) :
    Rewrites op d d' where
  rows id r hr := by
    rw [RewardOp.written, htarget]
    exact reward_updateWhere h hr
  target id data h := by
    rw [htarget] at h
    cases h
    exact hsome
  unique := hunique

/-- A row that was updated. -/
lemma update_spec {data : RewardData} {i : String} {v : Reward} (h : d.update i data = some (v, d')) :
    (d.reward i).isSome ∧ Unique d'.backend.rewards ∧
      d'.backend.rewards = updateWhere (·.id = i) (·.update data) d.backend.rewards := by
  obtain ⟨r, hr, h⟩ := Option.bind_eq_some_iff.mp h
  dsimp only at h
  split_ifs at h with hunique
  cases h
  exact ⟨by rw [hr]; rfl, hunique, rfl⟩

lemma insert_spec {data : NewReward} {v : Reward} (h : d.insert o data = some (v, d')) :
    Unique d'.backend.rewards ∧ d'.backend.rewards = d.backend.rewards ++ [data.row o.uuid] := by
  rw [Treasury.insert] at h
  dsimp only at h
  split_ifs at h with hallowed
  cases h
  exact ⟨hallowed.1, rfl⟩

lemma updateReferral_spec {data : ReferralData} {v : Referral}
    (h : d.updateReferral id data = some (v, d')) : d'.backend = d.backend := by
  obtain ⟨r, -, h⟩ := Option.bind_eq_some_iff.mp h
  dsimp only at h
  split_ifs at h
  cases h
  rfl

/-- The calls of the transaction services. -/
lemma service_rewrites {c : Request} {v : c.Res} {b : Backend}
    (hanswer : Backend.answer o c.op d.backend = some (v, b))
    (hallowed : b.rewards = d.backend.rewards ∨ Unique b.rewards)
    (h : d'.backend.rewards = b.rewards) : Rewrites (.service c) d d' := by
  obtain ⟨source, op⟩ := c
  have hunique : Unique d.backend.rewards → Unique d'.backend.rewards := by
    intro hd
    rw [h]
    rcases hallowed with heq | hunique
    · rwa [heq]
    · exact hunique
  cases op with
  | updateReward i data =>
    rw [Backend.answer] at hanswer
    split_ifs at hanswer with hany
    cases hanswer
    refine rewrites_of_update rfl ?_ hunique h
    rw [Treasury.reward, List.find?_isSome]
    exact List.any_eq_true.mp hany
  | createReward r =>
    rw [Backend.answer] at hanswer
    split_ifs at hanswer
    cases hanswer
    exact rewrites_of_append rfl h hunique
  | _ => exact rewrites_of_eq rfl (h.trans ((answer_frame hanswer).rewards rfl))

theorem rewrites_of_returns {v : op.Res} (h : TreasuryReturns op d v d') : Rewrites op d d' := by
  obtain ⟨o, h⟩ := h
  cases op with
  | service c =>
    obtain ⟨⟨v, b⟩, hanswer, h⟩ := Option.bind_eq_some_iff.mp h
    dsimp only at h
    split_ifs at h with hallowed
    cases h
    exact service_rewrites hanswer hallowed rfl
  | create data =>
    obtain ⟨hunique, hrows⟩ := insert_spec h
    exact rewrites_of_append rfl hrows fun _ => hunique
  | mint id mintedAt =>
    obtain ⟨hsome, hunique, hrows⟩ := update_spec h
    exact rewrites_of_update rfl hsome (fun _ => hunique) hrows
  | reverse id reversedAt =>
    obtain ⟨⟨r, d₁⟩, hupdate, heq⟩ := Option.map_eq_some_iff.mp h
    cases heq
    obtain ⟨hsome, hunique, hrows⟩ := update_spec hupdate
    exact rewrites_of_update rfl hsome (fun _ => hunique) hrows
  | rewardReferral referral mintedAt rewardedAt =>
    obtain ⟨⟨r, d₁⟩, hupsert, hrest⟩ := Option.bind_eq_some_iff.mp h
    obtain ⟨⟨referral', d₂⟩, hreferral, heq⟩ := Option.map_eq_some_iff.mp hrest
    cases heq
    have hbackend : d'.backend = d₁.backend := updateReferral_spec hreferral
    rw [Treasury.upsert] at hupsert
    cases hfound : d.rewardOf referral.id with
    | some r₀ =>
      rw [hfound] at hupsert
      obtain ⟨hsome, hunique, hrows⟩ := update_spec hupsert
      rw [← hbackend] at hunique hrows
      exact rewrites_of_update (by rw [RewardOp.target, hfound]; rfl) hsome (fun _ => hunique) hrows
    | none =>
      rw [hfound] at hupsert
      obtain ⟨hunique, hrows⟩ := insert_spec hupsert
      rw [← hbackend] at hunique hrows
      exact rewrites_of_append (by rw [RewardOp.target, hfound]; rfl) hrows fun _ => hunique
  | updateReferral id data => exact rewrites_of_eq rfl (by rw [updateReferral_spec h])
  | createReferral code inviterUserId rewardAmountStar expiresAt =>
    rw [Treasury.answer, Treasury.insertReferral] at h
    split_ifs at h
    cases h
    exact rewrites_of_eq rfl rfl
  | findReferral | findReferralByCode | findTransaction =>
    cases h
    exact rewrites_of_eq rfl rfl

/-- Pending rewards are listed as they are. -/
lemma pending_of_returns {source : Source} {transactionId : String} {rows : List PendingReward}
    (hd : Unique d.backend.rewards)
    (h : TreasuryReturns (.service ⟨source, .findPendingRewards transactionId⟩) d rows d')
    {p : PendingReward} (hp : p ∈ rows) :
    d.reward p.reward.id = some p.reward ∧ p.reward.status = .PENDING := by
  obtain ⟨o, h⟩ := h
  rw [Treasury.answer] at h
  obtain ⟨⟨v, b⟩, hanswer, h⟩ := Option.bind_eq_some_iff.mp h
  dsimp only at h
  split_ifs at h
  cases h
  cases hanswer
  obtain ⟨r, hr, rfl⟩ := List.mem_map.mp hp
  obtain ⟨hmem, hpending⟩ := List.mem_filter.mp hr
  simp only [decide_eq_true_eq] at hpending
  exact ⟨reward_of_mem hd hmem, hpending.2⟩

/-- The rest of the system changes the order of the rows at most. -/
lemma reward_other (h : Treasury.Other d d') (hd : Unique d.backend.rewards) :
    d'.reward id = d.reward id :=
  find?_key_perm h.rewards hd.id id

end Rows

/-! ### Playing calls -/

/-- The answer to a call, and the tables after it. -/
def reply (op : RewardOp) (d : Treasury) : Except String op.Res × Treasury :=
  match Treasury.answer { OneOrder.oracle with uuid := fresh d.backend.uuids } op d with
  | some (v, d') => (.ok v, d')
  | none => (.error "refused", d)

lemma played_reply (op : RewardOp) (d : Treasury) :
    Async.Played TreasuryReturns TreasuryTotal op d (reply op d) := by
  rw [reply]
  cases hanswer : Treasury.answer { OneOrder.oracle with uuid := fresh d.backend.uuids } op d with
  | some vd => exact ⟨_, hanswer⟩
  | none =>
    cases op with
    | service c =>
      intro htotal
      have hc : Total c := htotal
      have hwrites : c.op.writesRewards = false := by
        rcases htotal with h | h | ⟨ms, h⟩
        · rw [h]
          rfl
        · rw [h]
          rfl
        · rw [h]
          rfl
      obtain ⟨v, b, hv⟩ := hc.answered OneOrder.oracle d.backend
      have hrewards : b.rewards = d.backend.rewards := (answer_frame hv).rewards hwrites
      rw [Treasury.answer, hv, Option.bind_some] at hanswer
      dsimp only at hanswer
      rw [if_pos (.inl hrewards)] at hanswer
      cases hanswer
    | _ => exact id

end PayEra.Api.Rewards
