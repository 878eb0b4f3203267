import PayEra.Api.Accounts
import PayEra.Api.Merchants
import PayEra.Api.Pagination
import PayEra.Api.Rewards

/-!
# Lists

The endpoints of `apps/api/src` whose services return `{ items, total }`, with the conditions of their
queries. All but one take the number of a page; the audit log of a user takes `skip` and `take`, and the
interceptor describes its pages all the same.
-/

namespace PayEra.Api.Listings

open Accounts (UserStatus WalletProvider WalletNetwork WalletStatus)
open Merchants (RiskLevel)
open Rewards (ReferralStatus)
open Pagination
open Decimal (Number)

/-! ### Tables -/

inductive CampaignStatus where
  | DRAFT | ACTIVE | PAUSED | COMPLETED | CANCELLED
  deriving DecidableEq, Repr

inductive CampaignRewardType where
  | WELCOME_BONUS | DOUBLE_REWARDS | SPEND_AND_EARN | REFERRAL_CAMPAIGN | CUSTOM
  deriving DecidableEq, Repr

structure User where
  id : String
  displayName : Option String
  emailNormalized : Option String
  phoneE164 : Option String
  role : UserRole
  status : UserStatus
  deletedAt : Option ℕ
  createdAt : ℕ
  deriving DecidableEq

structure Wallet where
  id : String
  userId : String
  provider : WalletProvider
  network : WalletNetwork
  status : WalletStatus
  createdAt : ℕ
  deriving DecidableEq

structure Merchant where
  id : String
  ownerUserId : Option String
  merchantCode : String
  legalName : String
  displayName : String
  status : MerchantStatus
  riskLevel : RiskLevel
  city : Option String
  createdAt : ℕ
  deriving DecidableEq

/-- A transaction with the owner of its merchant. -/
structure Transaction where
  id : String
  userId : String
  merchantId : String
  merchantOwnerUserId : Option String
  campaignId : Option String
  assetIn : AssetCode
  status : TransactionStatus
  createdAt : ℕ
  deriving DecidableEq

/-- A reward with the owner of the merchant of its transaction. -/
structure Reward where
  id : String
  userId : String
  merchantOwnerUserId : Option String
  reason : RewardReason
  status : RewardStatus
  createdAt : ℕ
  deriving DecidableEq

structure Referral where
  id : String
  inviterUserId : String
  invitedUserId : Option String
  status : ReferralStatus
  createdAt : ℕ
  deriving DecidableEq

/-- A campaign with the owner of its brand. -/
structure Campaign where
  id : String
  brandId : String
  brandOwnerUserId : Option String
  name : String
  status : CampaignStatus
  rewardType : CampaignRewardType
  createdAt : ℕ
  deriving DecidableEq

structure AdminLog where
  id : String
  actorUserId : Option String
  action : String
  targetType : String
  createdAt : ℕ
  deriving DecidableEq

structure Db where
  users : Table User
  wallets : Table Wallet
  merchants : Table Merchant
  transactions : Table Transaction
  rewards : Table Reward
  referrals : Table Referral
  campaigns : Table Campaign
  adminLogs : Table AdminLog

/-! ### Conditions -/

/-- `contains` of the database, with and without regard to case. -/
structure Matching where
  contains : String → String → Bool
  insensitive : String → String → Bool

/-- `...(value === undefined ? {} : { column: value })`. -/
def equals {α : Type} [DecidableEq α] (value : Option α) (column : α) : Bool :=
  value.all fun value => value = column

/-- The same for a column that may be `null`, which equals nothing. -/
def equalsNullable {α : Type} [DecidableEq α] (value : Option α) (column : Option α) : Bool :=
  value.all fun value => column = some value

/-- The properties of `ListUsersDto` besides the page. -/
structure ListUsers where
  role : Option UserRole
  status : Option UserStatus
  search : Option String

structure ListWallets where
  provider : Option WalletProvider
  network : Option WalletNetwork
  status : Option WalletStatus

structure ListMerchants where
  status : Option MerchantStatus
  riskLevel : Option RiskLevel
  city : Option String
  search : Option String

structure ListTransactions where
  status : Option TransactionStatus
  assetIn : Option AssetCode
  merchantId : Option String
  campaignId : Option String

structure ListRewards where
  userId : Option String
  reason : Option RewardReason
  status : Option RewardStatus

structure ListReferrals where
  status : Option ReferralStatus

structure ListCampaigns where
  brandId : Option String
  status : Option CampaignStatus
  rewardType : Option CampaignRewardType
  search : Option String

structure ListAdminLogs where
  actorUserId : Option String
  action : Option String
  targetType : Option String

/-! ### Services -/

section

variable (matching : Matching) (db : Db)

def UsersService.list (query : ListUsers) : PaginationDto → FindMany User :=
  findPage db.users User.createdAt fun user =>
    equals query.role user.role && equals query.status user.status &&
      query.search.all (fun search =>
        user.displayName.any (matching.insensitive · search) ||
          user.emailNormalized.any (matching.insensitive · search.toLower) ||
          user.phoneE164.any (matching.contains · search)) &&
      user.deletedAt.isNone

/-- `skip = 0` or `take = 50`, and `Number(value) || n`. -/
def numberOr (value : Option QueryValue) (n : ℕ) : Number :=
  match value.bind QueryValue.number with
  | none => .finite n
  | some x => if x = .finite 0 then .finite n else x

/-- The database takes no `skip` below zero, and integers only. -/
def UsersService.getAuditLog (userId : String) (skip take : Option QueryValue) :
    Option (FindMany AdminLog) :=
  match numberOr skip 0, numberOr take 50 with
  | .finite skip, .finite take =>
    if skip.isInt ∧ 0 ≤ skip ∧ take.isInt then
      some
        { table := db.adminLogs
          createdAt := AdminLog.createdAt
          visible := fun log => log.actorUserId = some userId
          skip := skip.num.toNat
          take := take.num }
    else none
  | _, _ => none

def WalletsService.list (owner : Principal) (query : ListWallets) : PaginationDto → FindMany Wallet :=
  findPage db.wallets Wallet.createdAt fun wallet =>
    (owner.role = .ADMIN || wallet.userId = owner.id) && equals query.network wallet.network &&
      equals query.provider wallet.provider && equals query.status wallet.status

def MerchantsService.list (owner : Principal) (query : ListMerchants) :
    PaginationDto → FindMany Merchant :=
  findPage db.merchants Merchant.createdAt fun merchant =>
    (owner.role = .ADMIN || merchant.ownerUserId = some owner.id) &&
      equalsNullable query.city merchant.city && equals query.riskLevel merchant.riskLevel &&
      equals query.status merchant.status &&
      query.search.all fun search =>
        matching.insensitive merchant.displayName search ||
          matching.insensitive merchant.legalName search ||
          matching.insensitive merchant.merchantCode search

def TransactionsService.accessWhere (owner : Principal) (transaction : Transaction) : Bool :=
  owner.role = .ADMIN || (transaction.userId = owner.id || transaction.merchantOwnerUserId = some owner.id)

def TransactionsService.list (owner : Principal) (query : ListTransactions) :
    PaginationDto → FindMany Transaction :=
  findPage db.transactions Transaction.createdAt fun transaction =>
    accessWhere owner transaction && equals query.assetIn transaction.assetIn &&
      equalsNullable query.campaignId transaction.campaignId &&
      equals query.merchantId transaction.merchantId && equals query.status transaction.status

def RewardsService.list (owner : Principal) (query : ListRewards) : PaginationDto → FindMany Reward :=
  findPage db.rewards Reward.createdAt fun reward =>
    (owner.role = .ADMIN || (reward.userId = owner.id || reward.merchantOwnerUserId = some owner.id)) &&
      equals query.reason reward.reason && equals query.status reward.status &&
      equals query.userId reward.userId

def ReferralsService.list (owner : Principal) (query : ListReferrals) : PaginationDto → FindMany Referral :=
  findPage db.referrals Referral.createdAt fun referral =>
    (owner.role = .ADMIN ||
        (referral.inviterUserId = owner.id || referral.invitedUserId = some owner.id)) &&
      equals query.status referral.status

def CampaignsService.listCampaigns (owner : Principal) (query : ListCampaigns) :
    PaginationDto → FindMany Campaign :=
  findPage db.campaigns Campaign.createdAt fun campaign =>
    (owner.role = .ADMIN || campaign.brandOwnerUserId = some owner.id) &&
      equals query.brandId campaign.brandId && equals query.rewardType campaign.rewardType &&
      equals query.status campaign.status &&
      query.search.all fun search => matching.insensitive campaign.name search

namespace AdminService

/-- Unlike `UsersService.list`, it searches the addresses for the text as it is. -/
def listUsers (query : ListUsers) : PaginationDto → FindMany User :=
  findPage db.users User.createdAt fun user =>
    equals query.role user.role && equals query.status user.status && user.deletedAt.isNone &&
      query.search.all fun search =>
        user.displayName.any (matching.insensitive · search) ||
          user.emailNormalized.any (matching.insensitive · search) ||
          user.phoneE164.any (matching.contains · search)

def listTransactions (query : ListTransactions) : PaginationDto → FindMany Transaction :=
  findPage db.transactions Transaction.createdAt fun transaction =>
    equals query.assetIn transaction.assetIn && equalsNullable query.campaignId transaction.campaignId &&
      equals query.merchantId transaction.merchantId && equals query.status transaction.status

def listRewards (query : ListRewards) : PaginationDto → FindMany Reward :=
  findPage db.rewards Reward.createdAt fun reward =>
    equals query.reason reward.reason && equals query.status reward.status &&
      equals query.userId reward.userId

def listLogs (query : ListAdminLogs) : PaginationDto → FindMany AdminLog :=
  findPage db.adminLogs AdminLog.createdAt fun log =>
    equals query.action log.action && equalsNullable query.actorUserId log.actorUserId &&
      equals query.targetType log.targetType

end AdminService

end

/-! ### Endpoints -/

/-- An endpoint with who asks it and what the query has besides the page. -/
inductive Endpoint where
  | adminUsers (query : ListUsers)
  | adminTransactions (query : ListTransactions)
  | adminRewards (query : ListRewards)
  | adminLogs (query : ListAdminLogs)
  | users (query : ListUsers)
  | wallets (owner : Principal) (query : ListWallets)
  | merchants (owner : Principal) (query : ListMerchants)
  | transactions (owner : Principal) (query : ListTransactions)
  | rewards (owner : Principal) (query : ListRewards)
  | referrals (owner : Principal) (query : ListReferrals)
  | campaigns (owner : Principal) (query : ListCampaigns)
  | auditLog (userId : String)

def Endpoint.Row : Endpoint → Type
  | .adminUsers _ => User
  | .adminTransactions _ => Transaction
  | .adminRewards _ => Reward
  | .adminLogs _ => AdminLog
  | .users _ => User
  | .wallets _ _ => Wallet
  | .merchants _ _ => Merchant
  | .transactions _ _ => Transaction
  | .rewards _ _ => Reward
  | .referrals _ _ => Referral
  | .campaigns _ _ => Campaign
  | .auditLog _ => AdminLog

/-- What the endpoint asks the database for, if the query is accepted. -/
def Endpoint.find (matching : Matching) (db : Db) :
    (e : Endpoint) → Query → Option (FindMany e.Row)
  | .adminUsers query => paged (AdminService.listUsers matching db query)
  | .adminTransactions query => paged (AdminService.listTransactions db query)
  | .adminRewards query => paged (AdminService.listRewards db query)
  | .adminLogs query => paged (AdminService.listLogs db query)
  | .users query => paged (UsersService.list matching db query)
  | .wallets owner query => paged (WalletsService.list db owner query)
  | .merchants owner query => paged (MerchantsService.list matching db owner query)
  | .transactions owner query => paged (TransactionsService.list db owner query)
  | .rewards owner query => paged (RewardsService.list db owner query)
  | .referrals owner query => paged (ReferralsService.list db owner query)
  | .campaigns owner query => paged (CampaignsService.listCampaigns matching db owner query)
  | .auditLog userId => fun query => UsersService.getAuditLog db userId query.skip query.take

/-! ### The exact condition -/

/-- A page after the first one is not asked of an empty list, and rows of one moment are on one page. -/
def PagesApart {Row : Type} (query : Query) (f : FindMany Row) : Prop :=
  ∀ dto, PaginationDto.validate query = some dto →
    ¬(1 < dto.page ∧ f.count = 0) ∧ Paging.Together f.createdAt f.matching dto.limit

/-- The whole list is returned, the query names no page after the first one, and there is no row beyond
that page, nor beyond the one that the query names. -/
def OnePage {Row : Type} (query : Query) (f : FindMany Row) : Prop :=
  Whole f ∧ less (some (.finite 1)) (given query.page 1).number = false ∧
    ¬Beyond f.count (.fallback 1) (given query.limit 25) ∧
    ¬Beyond f.count (given query.page 1) (given query.limit 25)

def Endpoint.Sound : (e : Endpoint) → Query → FindMany e.Row → Prop
  | .auditLog _ => OnePage
  | _ => PagesApart

lemma truthful_of_findPage {Row : Type} {table : Table Row} {createdAt : Row → ℕ} {visible : Row → Bool}
    {query : Query} {f : FindMany Row} (h : paged (findPage table createdAt visible) query = some f) :
    TruthfulMeta (paged (findPage table createdAt visible)) query f ↔ PagesApart query f := by
  obtain ⟨dto, hvalid, rfl⟩ := Option.map_eq_some_iff.mp h
  rw [truthful_paged hvalid, PagesApart]
  constructor
  · rintro hsound dto' hvalid'
    obtain rfl := Option.some.inj (hvalid.symm.trans hvalid')
    exact hsound
  · intro hsound
    exact hsound dto hvalid

/-- **The exact condition.** -/
theorem pagination_truthful_iff (matching : Matching) (db : Db) (e : Endpoint) (query : Query)
    (f : FindMany e.Row) (h : e.find matching db query = some f) :
    TruthfulMeta (e.find matching db) query f ↔ e.Sound query f := by
  cases e with
  | auditLog userId => exact truthful_fixed fun _ => h
  | adminUsers _ | adminTransactions _ | adminRewards _ | adminLogs _ | users _ | wallets _ _
  | merchants _ _ | transactions _ _ | rewards _ _ | referrals _ _ | campaigns _ _ =>
    exact truthful_of_findPage h

namespace WalletsAndLogs

def matching : Matching := ⟨fun text search => text = search, fun text search => text = search⟩

/-- No page, no limit, and neither `skip` nor `take`. -/
def query : Query := ⟨none, none, none, none⟩

/-- Two rows on a page. -/
def pairs : Query := ⟨none, some (.text "2"), none, none⟩

def owner : Principal := ⟨"user", .CONSUMER⟩

def wallet (createdAt : ℕ) : Wallet :=
  ⟨toString createdAt, "user", .FREIGHTER, .STELLAR, .ACTIVE, createdAt⟩

/-- The user has done a thing once more than there are logs on a page. -/
def log (createdAt : ℕ) : AdminLog := ⟨toString createdAt, some "user", "USER_UPDATED", "USER", createdAt⟩

lemma length_lt {Row : Type} (row : ℕ → Row) (n : Fin 27) : ((List.range n).map row).length < 2 ^ 53 := by
  rw [List.length_map, List.length_range]
  exact n.isLt.trans (by decide)

def table {Row : Type} (row : ℕ → Row) (createdAt : Row → ℕ) (h : ∀ n, createdAt (row n) = n)
    (n : Fin 27) : Table Row where
  rows := (List.range n).map row
  nodup := List.nodup_range.map (Function.LeftInverse.injective h)
  length_lt := length_lt row n

def noRows {Row : Type} : Table Row where
  rows := []
  nodup := List.nodup_nil
  length_lt := Nat.two_pow_pos 53

def db : Db where
  users := noRows
  wallets := table wallet Wallet.createdAt (fun _ => rfl) 3
  merchants := noRows
  transactions := noRows
  rewards := noRows
  referrals := noRows
  campaigns := noRows
  adminLogs := table log AdminLog.createdAt (fun _ => rfl) 26

lemma validate_pairs : PaginationDto.validate pairs = some ⟨1, 2, le_rfl, one_le_two, by decide⟩ := by
  have hwritten : toString 2 = "2" := by decide
  have htwo := positiveInt_toString one_le_two (by decide)
  rw [hwritten] at htwo
  rw [PaginationDto.validate, pairs]
  simp [optionalInt, htwo]

/-- The three wallets of the user are on two pages, the latest first. -/
theorem wallets_truthful :
    ∃ f, (Endpoint.wallets owner ⟨none, none, none⟩).find matching db pairs = some f ∧
      TruthfulMeta ((Endpoint.wallets owner ⟨none, none, none⟩).find matching db) pairs f := by
  have hfind : (Endpoint.wallets owner ⟨none, none, none⟩).find matching db pairs = some
      (WalletsService.list db owner ⟨none, none, none⟩ ⟨1, 2, le_rfl, one_le_two, by decide⟩) :=
    congrArg (Option.map _) validate_pairs
  refine ⟨_, hfind, (pagination_truthful_iff matching db (.wallets owner ⟨none, none, none⟩) pairs _
    hfind).mpr ?_⟩
  intro dto hvalid
  obtain rfl := Option.some.inj (validate_pairs.symm.trans hvalid)
  refine ⟨fun h => absurd h.1 (lt_irrefl 1), ?_⟩
  unfold Paging.Together
  decide

/-- All of the logs are returned, and another page is announced. -/
theorem auditLog_not_truthful :
    ∃ f, (Endpoint.auditLog "user").find matching db query = some f ∧
      ¬TruthfulMeta ((Endpoint.auditLog "user").find matching db) query f := by
  refine ⟨_, rfl, fun h => ?_⟩
  obtain ⟨-, -, hbeyond, -⟩ := (truthful_fixed fun _ => rfl).mp h
  exact hbeyond ((beyond_fallback (by decide) (by decide) (FindMany.count_lt _)).mpr (by decide))

end WalletsAndLogs

end PayEra.Api.Listings
