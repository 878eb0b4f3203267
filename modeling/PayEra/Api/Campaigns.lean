import PayEra.Api.Listings
import PayEra.Lib.Transcript

/-!
# Campaigns

`apps/api/src/campaigns/campaigns.service.ts` behind its controller. A request looks the brand or the
campaign up, checks who owns the brand, and writes in a statement of its own. Nothing in between can
make the check wrong, since no statement of the service changes the owner of a brand or the brand of a
campaign. So whoever writes to a campaign owns its brand, or is an admin, when the write is made.

The merchants in the answer of `findCampaign` are left out; lists are in `PayEra.Api.Listings`.
-/

namespace PayEra.Api.Campaigns

open Listings (CampaignStatus CampaignRewardType)
open Async (Program Event Journal Setting Exchange told told_of_reachable invariant_of_told upon)
open Async.Program Async.Script
open Transition (Move)

/-! ### Data -/

inductive BrandStatus where
  | ACTIVE | SUSPENDED | ARCHIVED
  deriving DecidableEq, Repr

structure Brand where
  id : String
  ownerUserId : Option String
  name : String
  slug : String
  status : BrandStatus := .ACTIVE
  metadata : Metadata
  deriving DecidableEq

structure Campaign where
  id : String
  brandId : String
  name : String
  description : Option String
  status : CampaignStatus := .DRAFT
  rewardType : CampaignRewardType := .SPEND_AND_EARN
  thresholdAmountPaise : ℤ
  rewardAmountStar : ℤ
  budgetStar : ℤ
  spentStar : ℤ := 0
  startsAt : Option ℕ
  endsAt : Option ℕ
  metadata : Metadata
  deriving DecidableEq

structure CampaignMerchant where
  campaignId : String
  merchantId : String
  isActive : Bool := true
  deriving DecidableEq

/-- The tables, and the identifiers that foreign keys look for. -/
structure Catalogue where
  users : List String := []
  merchants : List String := []
  brands : List Brand := []
  campaigns : List Campaign := []
  campaignMerchants : List CampaignMerchant := []

def Catalogue.brand (d : Catalogue) (id : String) : Option Brand := d.brands.find? (·.id = id)

def Catalogue.campaign (d : Catalogue) (id : String) : Option Campaign :=
  d.campaigns.find? (·.id = id)

/-! ### Requests -/

/-- `undefined`, `null` or a value. -/
abbrev Field (α : Type) : Type := Option (Option α)

/-- A positive integer encoded as a string. -/
abbrev BigIntString : Type := { n : ℤ // 0 < n }

structure CreateBrandDto where
  ownerUserId : Field String := none
  name : String
  slug : String
  metadata : Field Metadata := none

structure CreateCampaignDto where
  brandId : String
  name : String
  description : Field String := none
  rewardType : Field CampaignRewardType := none
  thresholdAmountPaise : BigIntString
  rewardAmountStar : BigIntString
  budgetStar : BigIntString
  startsAt : Field ℕ := none
  endsAt : Field ℕ := none
  metadata : Field Metadata := none

structure UpdateCampaignDto where
  name : Field String := none
  description : Field String := none
  status : Field CampaignStatus := none
  thresholdAmountPaise : Field BigIntString := none
  rewardAmountStar : Field BigIntString := none
  budgetStar : Field BigIntString := none
  startsAt : Field ℕ := none
  endsAt : Field ℕ := none
  metadata : Field Metadata := none

/-- `dto.field === undefined ? {} : { field: BigInt(dto.field) }` -/
def bigInt : Field BigIntString → Except String (Option ℤ)
  | none => .ok none
  | some none => .error "Cannot convert null to a BigInt"
  | some (some n) => .ok (some n)

def jsonObject (value : Option Metadata) : Metadata := value.getD []

/-! ### Calls -/

/-- What `createBrand` writes. -/
structure NewBrand where
  ownerUserId : String
  name : String
  slug : String
  metadata : Metadata

/-- What `createCampaign` writes. -/
structure NewCampaign where
  brandId : String
  name : String
  description : Option String
  rewardType : Field CampaignRewardType
  thresholdAmountPaise : ℤ
  rewardAmountStar : ℤ
  budgetStar : ℤ
  startsAt : Option ℕ
  endsAt : Option ℕ
  metadata : Metadata

/-- What `updateCampaign` writes. -/
structure CampaignData where
  name : Field String
  description : Field String
  status : Field CampaignStatus
  thresholdAmountPaise : Option ℤ
  rewardAmountStar : Option ℤ
  budgetStar : Option ℤ
  startsAt : Field ℕ
  endsAt : Field ℕ
  metadata : Option Metadata

inductive Op where
  | findBrand (id : String)
  | createBrand (data : NewBrand)
  | createCampaign (data : NewCampaign)
  /-- With its brand. -/
  | findCampaign (id : String)
  | updateCampaign (id : String) (data : CampaignData)
  | upsertCampaignMerchant (campaignId merchantId : String)

abbrev Op.Res : Op → Type
  | .findBrand _ => Option Brand
  | .createBrand _ => Brand
  | .createCampaign _ | .updateCampaign _ _ => Campaign
  | .findCampaign _ => Option (Campaign × Brand)
  | .upsertCampaignMerchant _ _ => CampaignMerchant

def NewBrand.brand (data : NewBrand) (id : String) : Brand where
  id := id
  ownerUserId := some data.ownerUserId
  name := data.name
  slug := data.slug
  metadata := data.metadata

def NewCampaign.campaign (data : NewCampaign) (id : String) : Campaign where
  id := id
  brandId := data.brandId
  name := data.name
  description := data.description
  rewardType := data.rewardType.join.getD .SPEND_AND_EARN
  thresholdAmountPaise := data.thresholdAmountPaise
  rewardAmountStar := data.rewardAmountStar
  budgetStar := data.budgetStar
  startsAt := data.startsAt
  endsAt := data.endsAt
  metadata := data.metadata

def Campaign.update (c : Campaign) (data : CampaignData) : Campaign :=
  { c with
    name := data.name.join.getD c.name
    description := data.description.getD c.description
    status := data.status.join.getD c.status
    thresholdAmountPaise := data.thresholdAmountPaise.getD c.thresholdAmountPaise
    rewardAmountStar := data.rewardAmountStar.getD c.rewardAmountStar
    budgetStar := data.budgetStar.getD c.budgetStar
    startsAt := data.startsAt.getD c.startsAt
    endsAt := data.endsAt.getD c.endsAt
    metadata := data.metadata.getD c.metadata }

/-- The row of the link between a campaign and a merchant. -/
def CampaignMerchant.links (campaignId merchantId : String) (l : CampaignMerchant) : Bool :=
  decide (l.campaignId = campaignId ∧ l.merchantId = merchantId)

/-- What a call does when it returns; the database gives new rows the identifier `uuid`, and refuses
`null` in a column that is not nullable, a slug that is taken and keys without a row. -/
def Catalogue.answer (uuid : String) : (op : Op) → Catalogue → Option (op.Res × Catalogue)
  | .findBrand id, d => some (d.brand id, d)
  | .createBrand data, d =>
    if data.ownerUserId ∉ d.users ∨ d.brands.any (fun b => b.id = uuid ∨ b.slug = data.slug) then none
    else some (data.brand uuid, { d with brands := d.brands ++ [data.brand uuid] })
  | .createCampaign data, d =>
    if data.rewardType = some none ∨ d.brand data.brandId = none ∨ d.campaigns.any (·.id = uuid) then
      none
    else some (data.campaign uuid, { d with campaigns := d.campaigns ++ [data.campaign uuid] })
  | .findCampaign id, d =>
    some ((d.campaign id).bind fun c => (d.brand c.brandId).map fun b => (c, b), d)
  | .updateCampaign id data, d =>
    if data.name = some none ∨ data.status = some none then none
    else (d.campaign id).map fun c => (c.update data, { d with
      campaigns := updateWhere (·.id = id) (·.update data) d.campaigns })
  | .upsertCampaignMerchant campaignId merchantId, d =>
    if d.campaignMerchants.any (·.links campaignId merchantId) then
      some ({ campaignId, merchantId }, { d with
        campaignMerchants := updateWhere (·.links campaignId merchantId)
          (fun l => { l with isActive := true }) d.campaignMerchants })
    else if d.campaign campaignId = none ∨ merchantId ∉ d.merchants then none
    else some ({ campaignId, merchantId }, { d with
      campaignMerchants := d.campaignMerchants ++ [{ campaignId, merchantId }] })

/-! ### The service -/

abbrev Service (α : Type) := Program Op Op.Res String α

def call (op : Op) : Service op.Res := Program.perform op

namespace CampaignsService

/-- The brand belongs to the principal, or the principal is an admin. -/
def Allows (owner : Principal) (brand : Brand) : Prop :=
  owner.role = .ADMIN ∨ brand.ownerUserId = some owner.id

instance (owner : Principal) (brand : Brand) : Decidable (Allows owner brand) :=
  inferInstanceAs (Decidable (_ ∨ _))

def assertBrandAccess (owner : Principal) (brandId : String) : Service Brand := do
  let brand : Option Brand ← call (.findBrand brandId)
  match brand with
  | none => throw "Brand not found"
  | some brand =>
    if Allows owner brand then pure brand else throw "Brand belongs to another user"

def createBrand (owner : Principal) (dto : CreateBrandDto) : Service Brand :=
  call (.createBrand
    { ownerUserId := if owner.role = .ADMIN then dto.ownerUserId.join.getD owner.id else owner.id
      name := dto.name, slug := dto.slug, metadata := jsonObject dto.metadata.join })

def createCampaign (owner : Principal) (dto : CreateCampaignDto) : Service Campaign := do
  let _ ← assertBrandAccess owner dto.brandId
  call (.createCampaign
    { brandId := dto.brandId, budgetStar := dto.budgetStar, description := dto.description.join
      endsAt := dto.endsAt.join, metadata := jsonObject dto.metadata.join, name := dto.name
      rewardAmountStar := dto.rewardAmountStar, rewardType := dto.rewardType
      startsAt := dto.startsAt.join, thresholdAmountPaise := dto.thresholdAmountPaise })

def findCampaign (owner : Principal) (id : String) : Service (Campaign × Brand) := do
  let campaign : Option (Campaign × Brand) ← call (.findCampaign id)
  match campaign with
  | none => throw "Campaign not found"
  | some campaign =>
    if Allows owner campaign.2 then pure campaign else throw "Campaign belongs to another user"

def updateCampaign (owner : Principal) (id : String) (dto : UpdateCampaignDto) :
    Service Campaign := do
  let _ ← findCampaign owner id
  let budgetStar ← Program.done (bigInt dto.budgetStar)
  let rewardAmountStar ← Program.done (bigInt dto.rewardAmountStar)
  let thresholdAmountPaise ← Program.done (bigInt dto.thresholdAmountPaise)
  call (.updateCampaign id
    { budgetStar, description := dto.description, endsAt := dto.endsAt
      metadata := dto.metadata.map jsonObject, name := dto.name, rewardAmountStar
      startsAt := dto.startsAt, status := dto.status, thresholdAmountPaise })

def setStatus (owner : Principal) (id : String) (status : CampaignStatus) : Service Campaign :=
  updateCampaign owner id { status := some (some status) }

def addMerchant (owner : Principal) (campaignId merchantId : String) :
    Service CampaignMerchant := do
  let _ ← findCampaign owner campaignId
  call (.upsertCampaignMerchant campaignId merchantId)

end CampaignsService

open CampaignsService (Allows)

/-! ### Sessions -/

inductive Asked where
  | createBrand (dto : CreateBrandDto)
  | createCampaign (dto : CreateCampaignDto)
  | findCampaign (id : String)
  | updateCampaign (id : String) (dto : UpdateCampaignDto)
  /-- `activate`, `pause` and `complete`. -/
  | setStatus (id : String) (status : CampaignStatus)
  | addMerchant (campaignId merchantId : String)

/-- What is answered. -/
inductive Reply where
  | brand (b : Brand)
  | campaign (c : Campaign)
  /-- A campaign with its brand. -/
  | details (c : Campaign) (b : Brand)
  | link (l : CampaignMerchant)

/-- The controller's `@Roles`. -/
def ROLES : List UserRole := [.MERCHANT_OPERATOR, .ADMIN]

def guarded {α : Type} (owner : Principal) (p : Service α) : Service α :=
  if owner.role ∈ ROLES then p else throw "Insufficient role for this operation"

def Asked.handle (owner : Principal) : Asked → Service Reply
  | .createBrand dto => do
    let b ← CampaignsService.createBrand owner dto
    pure (.brand b)
  | .createCampaign dto => do
    let c ← CampaignsService.createCampaign owner dto
    pure (.campaign c)
  | .findCampaign id => do
    let found ← CampaignsService.findCampaign owner id
    pure (.details found.1 found.2)
  | .updateCampaign id dto => do
    let c ← CampaignsService.updateCampaign owner id dto
    pure (.campaign c)
  | .setStatus id status => do
    let c ← CampaignsService.setStatus owner id status
    pure (.campaign c)
  | .addMerchant campaignId merchantId => do
    let l ← CampaignsService.addMerchant owner campaignId merchantId
    pure (.link l)

/-- Somebody's request. -/
abbrev Request := Principal × Asked

def Request.program (q : Request) : Service Reply := guarded q.1 (q.2.handle q.1)

def Returns (op : Op) (d : Catalogue) (v : op.Res) (d' : Catalogue) : Prop :=
  ∃ uuid, Catalogue.answer uuid op d = some (v, d')

/-- No brands yet. -/
structure Catalogue.Opened (d : Catalogue) : Prop where
  brands : d.brands = []
  campaigns : d.campaigns = []
  campaignMerchants : d.campaignMerchants = []

/-- The rest of the system has users and merchants. -/
structure Catalogue.Other (d d' : Catalogue) : Prop where
  brands : d'.brands = d.brands
  campaigns : d'.campaigns = d.campaigns
  campaignMerchants : d'.campaignMerchants = d.campaignMerchants

/-- What happens in a session. -/
abbrev Happening := Event Request Op (Except String Reply)

abbrev Agency := Journal Catalogue Request Op Op.Res String Reply

/-- Any interleaving of requests, with any failures and lost answers. -/
abbrev agencyStaffing : Setting Agency Happening (Event.Res Op.Res) String :=
  Async.sessions Returns (fun _ => False) (fun _ => False) Request.program Catalogue.Opened
    Catalogue.Other fun _ _ _ _ => True

abbrev agency := Async.system agencyStaffing

abbrev AgencyState := Async.Pool Agency Happening (Event.Res Op.Res) String

/-! ### What calls do to the tables -/

/-- The owner of a brand. -/
def Catalogue.ownerOf (d : Catalogue) (brandId : String) : Option (Option String) :=
  (d.brand brandId).map (·.ownerUserId)

/-- The brand of a campaign. -/
def Catalogue.home (d : Catalogue) (campaignId : String) : Option String :=
  (d.campaign campaignId).map (·.brandId)

/-- The owner of a campaign's brand. -/
def Catalogue.campaignOwner (d : Catalogue) (id : String) : Option (Option String) :=
  (d.home id).bind d.ownerOf

def Op.reads : Op → Prop
  | .findBrand _ | .findCampaign _ => True
  | _ => False

/-- What a call that returns has made of the tables. -/
inductive Changed (d : Catalogue) : Op → Catalogue → Prop where
  | read {op : Op} (h : op.reads) : Changed d op d
  | createBrand {data : NewBrand} {uuid : String}
      (hfresh : ∀ b ∈ d.brands, b.id ≠ uuid ∧ b.slug ≠ data.slug) :
      Changed d (.createBrand data) { d with brands := d.brands ++ [data.brand uuid] }
  | createCampaign {data : NewCampaign} {uuid : String} (hbrand : (d.brand data.brandId).isSome)
      (hfresh : ∀ c ∈ d.campaigns, c.id ≠ uuid) :
      Changed d (.createCampaign data) { d with campaigns := d.campaigns ++ [data.campaign uuid] }
  | updateCampaign {id : String} {data : CampaignData} :
      Changed d (.updateCampaign id data)
        { d with campaigns := updateWhere (·.id = id) (·.update data) d.campaigns }
  | relink {campaignId merchantId : String} :
      Changed d (.upsertCampaignMerchant campaignId merchantId)
        { d with
          campaignMerchants := updateWhere (·.links campaignId merchantId)
            (fun l => { l with isActive := true }) d.campaignMerchants }
  | link {campaignId merchantId : String} (hcampaign : (d.campaign campaignId).isSome)
      (hfresh : ∀ l ∈ d.campaignMerchants, ¬l.links campaignId merchantId) :
      Changed d (.upsertCampaignMerchant campaignId merchantId)
        { d with campaignMerchants := d.campaignMerchants ++ [{ campaignId, merchantId }] }

lemma changed_of_answer {op : Op} {d d' : Catalogue} {v : op.Res} {uuid : String}
    (h : Catalogue.answer uuid op d = some (v, d')) : Changed d op d' := by
  cases op with
  | findBrand | findCampaign =>
    cases h
    exact .read trivial
  | createBrand data =>
    simp only [Catalogue.answer] at h
    split_ifs at h with hrefused
    cases h
    rw [not_or] at hrefused
    refine .createBrand fun b hb => ⟨fun hid => hrefused.2 ?_, fun hslug => hrefused.2 ?_⟩
    · exact List.any_eq_true.mpr ⟨b, hb, decide_eq_true (.inl hid)⟩
    · exact List.any_eq_true.mpr ⟨b, hb, decide_eq_true (.inr hslug)⟩
  | createCampaign data =>
    simp only [Catalogue.answer] at h
    split_ifs at h with hrefused
    cases h
    rw [not_or, not_or] at hrefused
    refine .createCampaign (Option.isSome_iff_ne_none.mpr hrefused.2.1) fun c hc hid => ?_
    exact hrefused.2.2 (List.any_eq_true.mpr ⟨c, hc, decide_eq_true hid⟩)
  | updateCampaign id data =>
    simp only [Catalogue.answer] at h
    split_ifs at h
    obtain ⟨c, -, heq⟩ := Option.map_eq_some_iff.mp h
    cases heq
    exact .updateCampaign
  | upsertCampaignMerchant campaignId merchantId =>
    simp only [Catalogue.answer] at h
    split_ifs at h with hany hrefused
    · cases h
      exact .relink
    · cases h
      rw [not_or] at hrefused
      refine .link (Option.isSome_iff_ne_none.mpr hrefused.1) fun l hl hlinks => hany ?_
      exact List.any_eq_true.mpr ⟨l, hl, hlinks⟩

/-- Keys are unique, campaigns have brands, and links are active and have campaigns. -/
structure Catalogue.Sound (d : Catalogue) : Prop where
  brands : (d.brands.map (·.id)).Nodup
  slugs : (d.brands.map (·.slug)).Nodup
  campaigns : (d.campaigns.map (·.id)).Nodup
  links : (d.campaignMerchants.map fun l => (l.campaignId, l.merchantId)).Nodup
  homed : ∀ c ∈ d.campaigns, (d.brand c.brandId).isSome
  linked : ∀ l ∈ d.campaignMerchants, l.isActive ∧ (d.campaign l.campaignId).isSome

section Changes

variable {op : Op} {d d' : Catalogue} {brandId campaignId : String} {owner : Option String}

lemma find?_snoc {α : Type} {p : α → Bool} {rows : List α} {a x : α} (h : rows.find? p = some a) :
    (rows ++ [x]).find? p = some a := by
  rw [List.find?_append, h, Option.some_or]

/-- **Brands stay what they are.** -/
lemma Changed.brand (h : Changed d op d') {b : Brand} (hb : d.brand brandId = some b) :
    d'.brand brandId = some b := by
  cases h with
  | createBrand => exact find?_snoc hb
  | _ => exact hb

/-- **Brands keep their owners.** -/
lemma Changed.ownerOf (h : Changed d op d') (hd : d.ownerOf brandId = some owner) :
    d'.ownerOf brandId = some owner := by
  obtain ⟨b, hb, rfl⟩ := Option.map_eq_some_iff.mp hd
  exact Option.map_eq_some_iff.mpr ⟨b, h.brand hb, rfl⟩

/-- A campaign that is found is found afterwards, in its brand. -/
lemma Changed.campaign (h : Changed d op d') {c : Campaign} (hc : d.campaign campaignId = some c) :
    ∃ c', d'.campaign campaignId = some c' ∧ c'.brandId = c.brandId := by
  cases h with
  | createCampaign => exact ⟨c, find?_snoc hc, rfl⟩
  | @updateCampaign id data =>
    have hupdated : (updateWhere (fun c => c.id = id) (·.update data) d.campaigns).find?
        (fun c => c.id = campaignId) =
          (d.campaign campaignId).map fun c => if id = campaignId then c.update data else c := by
      apply find?_updateWhere_key
      exact fun _ => rfl
    rw [hc, Option.map_some] at hupdated
    refine ⟨_, hupdated, ?_⟩
    split_ifs
    · rfl
    · rfl
  | _ => exact ⟨c, hc, rfl⟩

/-- **Campaigns keep their brands.** -/
lemma Changed.home (h : Changed d op d') (hd : d.home campaignId = some brandId) :
    d'.home campaignId = some brandId := by
  obtain ⟨c, hc, rfl⟩ := Option.map_eq_some_iff.mp hd
  obtain ⟨c', hc', hbrand⟩ := h.campaign hc
  exact Option.map_eq_some_iff.mpr ⟨c', hc', hbrand⟩

lemma Changed.isSome_brand (h : Changed d op d') (hd : (d.brand brandId).isSome) :
    (d'.brand brandId).isSome := by
  obtain ⟨b, hb⟩ := Option.isSome_iff_exists.mp hd
  exact Option.isSome_iff_exists.mpr ⟨b, h.brand hb⟩

lemma Changed.isSome_campaign (h : Changed d op d') (hd : (d.campaign campaignId).isSome) :
    (d'.campaign campaignId).isSome := by
  obtain ⟨c, hc⟩ := Option.isSome_iff_exists.mp hd
  obtain ⟨c', hc', -⟩ := h.campaign hc
  exact Option.isSome_iff_exists.mpr ⟨c', hc'⟩

lemma nodup_updateWhere {α κ : Type} {p : α → Bool} {f : α → α} {key : α → κ} {rows : List α}
    (hrows : (rows.map key).Nodup) (h : ∀ a, key (f a) = key a) :
    ((updateWhere p f rows).map key).Nodup := by
  suffices hmap : (updateWhere p f rows).map key = rows.map key by rwa [hmap]
  rw [updateWhere, List.map_map]
  refine List.map_congr_left fun a _ => ?_
  rw [Function.comp_apply]
  split_ifs
  · exact h a
  · rfl

lemma nodup_snoc {κ : Type} {keys : List κ} {k : κ} (h : keys.Nodup) (hk : k ∉ keys) :
    (keys ++ [k]).Nodup := by
  rw [← List.concat_eq_append]
  exact List.Nodup.concat hk h

/-- **The tables stay sound.** -/
theorem Changed.sound (h : Changed d op d') (hd : d.Sound) : d'.Sound := by
  have hbrand : ∀ {c : Campaign}, (d.brand c.brandId).isSome → (d'.brand c.brandId).isSome :=
    h.isSome_brand
  have hcampaign : ∀ {l : CampaignMerchant}, (d.campaign l.campaignId).isSome →
      (d'.campaign l.campaignId).isSome := h.isSome_campaign
  obtain ⟨hbrands, hslugs, hcampaigns, hlinks, hhomed, hlinked⟩ := hd
  cases h with
  | read => exact ⟨hbrands, hslugs, hcampaigns, hlinks, hhomed, hlinked⟩
  | @createBrand data uuid hfresh =>
    refine ⟨?_, ?_, hcampaigns, hlinks, fun c hc => hbrand (hhomed c hc), hlinked⟩
    · rw [List.map_append]
      refine nodup_snoc hbrands fun hmem => ?_
      obtain ⟨b, hb, hid⟩ := List.mem_map.mp hmem
      exact (hfresh b hb).1 hid
    · rw [List.map_append]
      refine nodup_snoc hslugs fun hmem => ?_
      obtain ⟨b, hb, hslug⟩ := List.mem_map.mp hmem
      exact (hfresh b hb).2 hslug
  | @createCampaign data uuid hdata hfresh =>
    refine ⟨hbrands, hslugs, ?_, hlinks, fun c hc => ?_,
      fun l hl => ⟨(hlinked l hl).1, hcampaign (hlinked l hl).2⟩⟩
    · rw [List.map_append]
      refine nodup_snoc hcampaigns fun hmem => ?_
      obtain ⟨c, hc, hid⟩ := List.mem_map.mp hmem
      exact hfresh c hc hid
    · rcases List.mem_append.mp hc with hc | hc
      · exact hhomed c hc
      · rw [List.mem_singleton.mp hc]
        exact hdata
  | @updateCampaign id data =>
    refine ⟨hbrands, hslugs, ?_, hlinks, fun c hc => ?_,
      fun l hl => ⟨(hlinked l hl).1, hcampaign (hlinked l hl).2⟩⟩
    · exact nodup_updateWhere hcampaigns fun _ => rfl
    · obtain ⟨c', hc', rfl⟩ := List.mem_map.mp hc
      split_ifs
      · exact hhomed c' hc'
      · exact hhomed c' hc'
  | @relink campaignId merchantId =>
    refine ⟨hbrands, hslugs, hcampaigns, ?_, hhomed, fun l hl => ?_⟩
    · exact nodup_updateWhere hlinks fun _ => rfl
    · obtain ⟨l', hl', rfl⟩ := List.mem_map.mp hl
      split_ifs
      · exact ⟨rfl, (hlinked l' hl').2⟩
      · exact hlinked l' hl'
  | @link campaignId merchantId hdata hfresh =>
    refine ⟨hbrands, hslugs, hcampaigns, ?_, hhomed, fun l hl => ?_⟩
    · rw [List.map_append]
      refine nodup_snoc hlinks fun hmem => ?_
      obtain ⟨l, hl, hkey⟩ := List.mem_map.mp hmem
      exact hfresh l hl (decide_eq_true (Prod.mk.inj hkey))
    · rcases List.mem_append.mp hl with hl | hl
      · exact hlinked l hl
      · rw [List.mem_singleton.mp hl]
        exact ⟨rfl, hdata⟩

/-- What the tables may become: brands stay what they are, and campaigns keep their brands. -/
structure Catalogue.Later (d d' : Catalogue) : Prop where
  sound : d.Sound → d'.Sound
  brand : ∀ id b, d.brand id = some b → d'.brand id = some b
  home : ∀ id brandId, d.home id = some brandId → d'.home id = some brandId

lemma Catalogue.Opened.sound (h : d.Opened) : d.Sound := by
  obtain ⟨hbrands, hcampaigns, hlinks⟩ := h
  refine ⟨?_, ?_, ?_, ?_, fun c hc => ?_, fun l hl => ?_⟩
  · rw [hbrands]
    exact List.nodup_nil
  · rw [hbrands]
    exact List.nodup_nil
  · rw [hcampaigns]
    exact List.nodup_nil
  · rw [hlinks]
    exact List.nodup_nil
  · rw [hcampaigns] at hc
    cases hc
  · rw [hlinks] at hl
    cases hl

lemma Catalogue.Later.rfl : d.Later d := ⟨id, fun _ _ h => h, fun _ _ h => h⟩

lemma Changed.later (h : Changed d op d') : d.Later d' :=
  ⟨h.sound, fun _ _ => h.brand, fun _ _ => h.home⟩

/-- Lookups look at the rows only. -/
lemma Catalogue.Other.lookups (h : d.Other d') : d'.brand = d.brand ∧ d'.campaign = d.campaign := by
  refine ⟨funext fun id => ?_, funext fun id => ?_⟩
  · rw [Catalogue.brand, h.brands, Catalogue.brand]
  · rw [Catalogue.campaign, h.campaigns, Catalogue.campaign]

lemma Catalogue.Other.later (h : d.Other d') : d.Later d' := by
  obtain ⟨hbrand, hcampaign⟩ := h.lookups
  refine ⟨fun hd => ?_, fun id b hd => by rw [hbrand, hd], fun id brandId hd => ?_⟩
  · refine ⟨?_, ?_, ?_, ?_, ?_, ?_⟩
    · rw [h.brands]
      exact hd.brands
    · rw [h.brands]
      exact hd.slugs
    · rw [h.campaigns]
      exact hd.campaigns
    · rw [h.campaignMerchants]
      exact hd.links
    · rw [h.campaigns, hbrand]
      exact hd.homed
    · rw [h.campaignMerchants, hcampaign]
      exact hd.linked
  · rw [Catalogue.home, hcampaign]
    exact hd

lemma Catalogue.ownerOf_of_brand {b : Brand} (h : d.brand brandId = some b) :
    d.ownerOf brandId = some b.ownerUserId :=
  Option.map_eq_some_iff.mpr ⟨b, h, rfl⟩

lemma Catalogue.campaignOwner_of_home {b : Brand} (hhome : d.home campaignId = some b.id)
    (hb : d.brand b.id = some b) : d.campaignOwner campaignId = some b.ownerUserId :=
  Option.bind_eq_some_iff.mpr ⟨b.id, hhome, ownerOf_of_brand hb⟩

end Changes

/-! ### Programs -/

/-- What a call of the principal takes: a brand of one's own, unless one is an admin. -/
def Op.AllowedTo (owner : Principal) (d : Catalogue) : Op → Prop
  | .createBrand data => owner.role = .ADMIN ∨ data.ownerUserId = owner.id
  | .createCampaign data => owner.role = .ADMIN ∨ d.ownerOf data.brandId = some (some owner.id)
  | .updateCampaign id _ | .upsertCampaignMerchant id _ =>
    owner.role = .ADMIN ∨ d.campaignOwner id = some (some owner.id)
  | .findBrand _ | .findCampaign _ => True

/-- The brand was found by the session. -/
def FoundBrand (owner : Principal) (l : List (Exchange Op Op.Res String)) (id : String) : Prop :=
  ∃ b, ⟨.findBrand id, .ok (some b)⟩ ∈ l ∧ Allows owner b

/-- The campaign was found by the session, with its brand. -/
def FoundCampaign (owner : Principal) (l : List (Exchange Op Op.Res String)) (id : String) : Prop :=
  ∃ c b, ⟨.findCampaign id, .ok (some (c, b))⟩ ∈ l ∧ Allows owner b

/-- The checks that a session has made before a call. -/
def Checked (q : Request) (l : List (Exchange Op Op.Res String)) : Op → Prop
  | .createBrand data => q.1.role = .ADMIN ∨ data.ownerUserId = q.1.id
  | .createCampaign data => FoundBrand q.1 l data.brandId
  | .updateCampaign id _ | .upsertCampaignMerchant id _ => FoundCampaign q.1 l id
  | .findBrand _ | .findCampaign _ => True

/-- What a session shows, it was allowed to see. -/
def Shown (a : Except String Reply) (κ : Request × List (Exchange Op Op.Res String)) : Prop :=
  ∀ c b, a = .ok (.details c b) →
    Allows κ.1.1 b ∧ ∃ id, ⟨.findCampaign id, .ok (some (c, b))⟩ ∈ κ.2

section Programs

variable {q : Request} {l : List (Exchange Op Op.Res String)} {owner : Principal} {id : String}

abbrev Place : Type := Request × List (Exchange Op Op.Res String)

lemma admits_assertBrandAccess {l} : (told Checked).Admits
    (CampaignsService.assertBrandAccess q.1 id) (q, l)
    (upon (fun _ κ => κ.1 = q ∧ FoundBrand q.1 κ.2 id) fun _ => True) := by
  refine admits_call trivial (fun _ _ _ => trivial) ?_
  rintro found κ rfl
  cases found with
  | none => trivial
  | some b =>
    dsimp only
    split_ifs with hallows
    · exact ⟨rfl, b, List.mem_append_right _ (List.mem_singleton_self _), hallows⟩
    · trivial

lemma admits_findCampaign : (told Checked).Admits (CampaignsService.findCampaign q.1 id) (q, l)
    (upon (fun found κ => κ.1 = q ∧ Allows q.1 found.2 ∧
      ⟨.findCampaign id, .ok (some (found.1, found.2))⟩ ∈ κ.2) fun _ => True) := by
  refine admits_call trivial (fun _ _ _ => trivial) ?_
  rintro found κ rfl
  cases found with
  | none => trivial
  | some found =>
    dsimp only
    split_ifs with hallows
    · exact ⟨rfl, hallows, List.mem_append_right _ (List.mem_singleton_self _)⟩
    · trivial

/-- Whatever a request answers. -/
abbrev anywhere {α : Type} : Except String α → Place → Prop := upon (fun _ _ => True) fun _ => True

lemma admits_last {op : Op} {κ : Place} (hmay : Checked κ.1 κ.2 op) :
    (told Checked).Admits (call op) κ anywhere :=
  admits_perform hmay fun r _ _ => upon_true r _

lemma admits_createCampaign {dto : CreateCampaignDto} :
    (told Checked).Admits (CampaignsService.createCampaign q.1 dto) (q, l) anywhere := by
  refine admits_bind admits_assertBrandAccess fun _ κ hκ => ?_
  obtain ⟨rfl, hfound⟩ := hκ
  exact admits_last hfound

lemma admits_updateCampaign {dto : UpdateCampaignDto} :
    (told Checked).Admits (CampaignsService.updateCampaign q.1 id dto) (q, l) anywhere := by
  have hbig : ∀ (field : Field BigIntString) (κ : Place), κ.1 = q ∧ FoundCampaign q.1 κ.2 id →
      (told Checked).Admits (Program.done (bigInt field)) κ
        (upon (fun _ κ => κ.1 = q ∧ FoundCampaign q.1 κ.2 id) fun _ => True) :=
    fun _ _ h => admits_done (fun _ _ => h) fun _ _ => trivial
  refine admits_bind admits_findCampaign fun found κ hκ => ?_
  obtain ⟨hq, hallows, hfound⟩ := hκ
  refine admits_bind (hbig dto.budgetStar κ ⟨hq, _, _, hfound, hallows⟩) fun _ κ hκ => ?_
  refine admits_bind (hbig dto.rewardAmountStar κ hκ) fun _ κ hκ => ?_
  refine admits_bind (hbig dto.thresholdAmountPaise κ hκ) fun _ κ hκ => ?_
  obtain ⟨rfl, hfound⟩ := hκ
  exact admits_last hfound

lemma admits_addMerchant {merchantId : String} :
    (told Checked).Admits (CampaignsService.addMerchant q.1 id merchantId) (q, l) anywhere := by
  refine admits_bind admits_findCampaign fun found κ hκ => ?_
  obtain ⟨rfl, hallows, hfound⟩ := hκ
  exact admits_last ⟨_, _, hfound, hallows⟩

/-- An answer that is not a campaign with its brand shows nothing. -/
lemma admits_reply {α : Type} {p : Service α} {f : α → Reply}
    (hp : (told Checked).Admits p (q, l) anywhere) (hf : ∀ v c b, f v ≠ .details c b) :
    (told Checked).Admits (do
      let v ← p
      pure (f v)) (q, l) Shown := by
  have hreply : (told Checked).Admits (p >>= fun v => pure (f v)) (q, l)
      (upon (fun reply _ => ∀ c b, reply ≠ .details c b) fun _ => True) :=
    admits_bind hp fun v _ _ => hf v
  refine hreply.mono fun r κ h c b heq => ?_
  subst heq
  exact absurd rfl (h c b)

lemma shown_error {e : String} {κ : Place} : Shown (.error e) κ := fun _ _ heq => by cases heq

lemma admits_handle {owner : Principal} (q : Asked) :
    (told Checked).Admits (q.handle owner) ((owner, q), []) Shown := by
  cases q with
  | createBrand dto =>
    refine admits_reply (admits_last ?_) fun _ _ _ heq => by cases heq
    by_cases hadmin : owner.role = .ADMIN
    · exact .inl hadmin
    · exact .inr (if_neg hadmin)
  | createCampaign dto => exact admits_reply admits_createCampaign fun _ _ _ heq => by cases heq
  | findCampaign id =>
    have hreply : (told Checked).Admits (Asked.handle owner (.findCampaign id))
        ((owner, .findCampaign id), []) (upon (fun reply κ => Shown (.ok reply) κ)
          fun _ => True) := by
      refine admits_bind admits_findCampaign fun found κ hκ => ?_
      intro c b heq
      cases heq
      exact ⟨hκ.1 ▸ hκ.2.1, id, hκ.2.2⟩
    refine hreply.mono fun r κ h => ?_
    cases r with
    | ok reply => exact h
    | error e => exact shown_error
  | updateCampaign id dto => exact admits_reply admits_updateCampaign fun _ _ _ heq => by cases heq
  | setStatus id status => exact admits_reply admits_updateCampaign fun _ _ _ heq => by cases heq
  | addMerchant campaignId merchantId =>
    exact admits_reply admits_addMerchant fun _ _ _ heq => by cases heq

/-- **Every request checks before it writes**, and shows what it was allowed to see. -/
theorem admits_program (q : Request) :
    (told fun q l op => q.1.role ∈ ROLES ∧ Checked q l op).Admits q.program (q, []) Shown := by
  rw [Request.program, guarded]
  split_ifs with hrole
  · exact Async.admits_told_mono (fun l op h => ⟨hrole, h⟩) (admits_handle q.2)
  · exact shown_error

end Programs

/-! ### The agency -/

/-- What the sessions were told stays true, and what they have done was allowed when they did it. -/
structure Faithful (w : Agency) : Prop where
  sound : w.state.Sound
  brands : ∀ n id b, w.Answered n (.findBrand id) (.ok (some b)) → w.state.brand id = some b
  campaigns : ∀ n id c b, w.Answered n (.findCampaign id) (.ok (some (c, b))) →
    c.id = id ∧ w.state.home id = some b.id ∧ w.state.brand b.id = some b
  authorised : ∀ e ∈ w.effects, ∃ q, w.Begun e.session q ∧ q.1.role ∈ ROLES ∧
    e.op.AllowedTo q.1 e.found

section Agency

variable {w w' : Agency} {n : ℕ} {op : Op} {q : Request}

/-- What was checked still holds. -/
lemma Faithful.allowed (h : Faithful w) (hc : Checked q (w.own n) op) :
    op.AllowedTo q.1 w.state := by
  cases op with
  | findBrand | findCampaign => trivial
  | createBrand data => exact hc
  | createCampaign data =>
    obtain ⟨b, hfound, hallows⟩ := hc
    refine hallows.imp_right fun howner => ?_
    rw [Catalogue.ownerOf_of_brand (h.brands n _ b (Async.mem_own.mp hfound)), howner]
  | updateCampaign id _ | upsertCampaignMerchant id _ =>
    obtain ⟨c, b, hfound, hallows⟩ := hc
    refine hallows.imp_right fun howner => ?_
    obtain ⟨-, hhome, hb⟩ := h.campaigns n id c b (Async.mem_own.mp hfound)
    rw [Catalogue.campaignOwner_of_home hhome hb, howner]

/-- What a lookup is answered is so. -/
lemma Faithful.told_brand {id : String} {b : Brand} {d d' : Catalogue}
    (h : Returns (.findBrand id) d (some b) d') : d.brand id = some b := by
  obtain ⟨uuid, h⟩ := h
  exact (Prod.mk.inj (Option.some.inj h)).1

lemma Faithful.told_campaign {id : String} {c : Campaign} {b : Brand} {d d' : Catalogue}
    (h : Returns (.findCampaign id) d (some (c, b)) d') :
    c.id = id ∧ d.home id = some b.id ∧ d.brand b.id = some b := by
  obtain ⟨uuid, h⟩ := h
  obtain ⟨c', hc, hbrand⟩ := Option.bind_eq_some_iff.mp (Prod.mk.inj (Option.some.inj h)).1
  obtain ⟨b', hb, heq⟩ := Option.map_eq_some_iff.mp hbrand
  obtain ⟨rfl, rfl⟩ := Prod.mk.inj heq
  have hid : b'.id = c'.brandId := by simpa using List.find?_some hb
  refine ⟨by simpa using List.find?_some hc, ?_, by rw [hid, hb]⟩
  rw [Catalogue.home, hc, hid]
  rfl

/-- What the sessions were told stays true while the tables change, if what is new is as it should
be. -/
lemma Faithful.step (h : Faithful w) (hlater : w.state.Later w'.state)
    (hentries : w.entries ⊆ w'.entries)
    (hbrand : ∀ n id b, w'.Answered n (.findBrand id) (.ok (some b)) →
      w.Answered n (.findBrand id) (.ok (some b)) ∨ w.state.brand id = some b)
    (hcampaign : ∀ n id c b, w'.Answered n (.findCampaign id) (.ok (some (c, b))) →
      w.Answered n (.findCampaign id) (.ok (some (c, b))) ∨
        c.id = id ∧ w.state.home id = some b.id ∧ w.state.brand b.id = some b)
    (heffects : ∀ x ∈ w'.effects, x ∈ w.effects ∨ ∃ q, w.Begun x.session q ∧ q.1.role ∈ ROLES ∧
      x.op.AllowedTo q.1 x.found) : Faithful w' := by
  refine ⟨hlater.sound h.sound, fun n id b hb => ?_, fun n id c b hc => ?_, fun x hx => ?_⟩
  · apply hlater.brand
    exact (hbrand n id b hb).elim (h.brands n id b) fun h => h
  · have htold : c.id = id ∧ w.state.home id = some b.id ∧ w.state.brand b.id = some b :=
      (hcampaign n id c b hc).elim (h.campaigns n id c b) fun h => h
    exact ⟨htold.1, hlater.home _ _ htold.2.1, hlater.brand _ _ htold.2.2⟩
  · obtain ⟨q, hq, hallowed⟩ := (heffects x hx).elim (h.authorised x) fun h => h
    exact ⟨q, hentries hq, hallowed⟩

/-- A call that is checked is allowed. -/
lemma Faithful.call {r : Except String op.Res} (h : Faithful w)
    (hhappens : Async.happens Returns (fun _ => False) (fun _ => False) (.call n op) w r w')
    (hbegun : w.Begun n q) (hchecked : q.1.role ∈ ROLES ∧ Checked q (w.own n) op) : Faithful w' := by
  have hlater : w.state.Later w'.state := by
    rcases Async.happens_call hhappens with ⟨hstate, -⟩ | ⟨⟨v, uuid, hanswer⟩, -⟩
    · rw [hstate]
      exact .rfl
    · exact (changed_of_answer hanswer).later
  refine h.step hlater ?_ (fun m id b hb => ?_) (fun m id c b hc => ?_) fun x hx => ?_
  · rw [hhappens.1]
    exact List.subset_append_left ..
  · refine (Async.answered_happens hhappens hb).imp_right fun heq => ?_
    cases heq
    exact told_brand hhappens.2.1
  · refine (Async.answered_happens hhappens hc).imp_right fun heq => ?_
    cases heq
    exact told_campaign hhappens.2.1
  · rcases Async.happens_call hhappens with ⟨-, heffects⟩ | ⟨-, heffects⟩
    · exact .inl (heffects ▸ hx)
    · rw [heffects] at hx
      refine (List.mem_append.mp hx).imp_right fun hx => ?_
      rw [List.mem_singleton.mp hx]
      exact ⟨q, hbegun, hchecked.1, h.allowed hchecked.2⟩

/-- What is neither a call nor somebody else's row changes nothing here. -/
lemma Faithful.other (h : Faithful w) (hlater : w.state.Later w'.state)
    (hentries : w.entries ⊆ w'.entries) (hanswered : ∀ n op r, w'.Answered n op r → w.Answered n op r)
    (heffects : w'.effects = w.effects) : Faithful w' :=
  h.step hlater hentries (fun n _ _ hb => .inl (hanswered n _ _ hb))
    (fun n _ _ _ hc => .inl (hanswered n _ _ hc)) fun _ hx => .inl (heffects ▸ hx)

end Agency

/-- **Nothing a session was told goes stale**, and every write was allowed when it was made. -/
theorem faithful_of_reachable {s : AgencyState} (h : agency.Reachable s) : Faithful s.world := by
  refine invariant_of_told admits_program ?_ ?_ ?_ h
  · intro w hopened hentries heffects
    refine ⟨hopened.sound, fun n id b hb => ?_, fun n id c b hc => ?_, fun e he => ?_⟩
    · rw [Journal.Answered, hentries] at hb
      cases hb
    · rw [Journal.Answered, hentries] at hc
      cases hc
    · rw [heffects] at he
      cases he
  · exact fun n q op w r w' h => h.call
  · intro w w' h hentries hanswered heffects hstate
    refine h.other ?_ hentries hanswered heffects
    rcases hstate with hstate | hother
    · rw [hstate]
      exact .rfl
    · exact hother.later

/-- **Tenancy.** However requests interleave, whatever fails and whichever answers are lost: the tables
are sound, every call that took effect was one that its principal may make on what it found, and whoever
was shown a campaign owns the brand shown with it, or is an admin; and that brand, as it was shown, has
been the brand of the campaign ever since. -/
theorem tenancy {s : AgencyState} (hs : agency.Reachable s) :
    s.world.state.Sound ∧
    (∀ e ∈ s.world.effects, ∃ q, s.world.Begun e.session q ∧ q.1.role ∈ ROLES ∧
      e.op.AllowedTo q.1 e.found) ∧
    ∀ n q c b, s.world.Begun n q → s.world.Finished n (.ok (.details c b)) →
      Allows q.1 b ∧ s.world.state.home c.id = some b.id ∧ s.world.state.brand b.id = some b := by
  have h := faithful_of_reachable hs
  refine ⟨h.sound, h.authorised, fun n q c b hq hfinished => ?_⟩
  have hshown := (told_of_reachable admits_program hs hq).2 _ hfinished
  obtain ⟨hallows, id, hfound⟩ := hshown c b rfl
  obtain ⟨rfl, hhome, hb⟩ := h.campaigns n id c b (Async.mem_own.mp hfound)
  exact ⟨hallows, hhome, hb⟩

/-! ### The rows of a brand -/

/-- A brand, its campaigns and their merchants. -/
def Catalogue.of (d : Catalogue) (brandId : String) :
    Option Brand × List Campaign × List CampaignMerchant :=
  (d.brand brandId, d.campaigns.filter (·.brandId = brandId),
    d.campaignMerchants.filter fun l => d.home l.campaignId = some brandId)

/-- The call writes to the rows of the brand. -/
def Op.On (brandId : String) (d : Catalogue) : Op → Prop
  | .createCampaign data => data.brandId = brandId
  | .updateCampaign id _ | .upsertCampaignMerchant id _ => d.home id = some brandId
  | .findBrand _ | .findCampaign _ | .createBrand _ => False

section Rows

variable {op : Op} {d d' : Catalogue} {brandId : String} {owner : Option String}

/-- Rows that are updated elsewhere. -/
lemma filter_updateWhere {α : Type} {p on : α → Bool} {f : α → α} {rows : List α}
    (hf : ∀ a ∈ rows, p a → on a = false ∧ on (f a) = false) :
    (updateWhere p f rows).filter on = rows.filter on := by
  induction rows with
  | nil => rfl
  | cons a rows ih =>
    have hrest := ih fun b hb => hf b (List.mem_cons_of_mem a hb)
    rw [updateWhere, List.map_cons, ← updateWhere]
    by_cases hp : p a
    · obtain ⟨hbefore, hafter⟩ := hf a (List.mem_cons_self ..) hp
      rw [if_pos hp, List.filter_cons_of_neg (by simp [hafter]), hrest,
        List.filter_cons_of_neg (by simp [hbefore])]
    · rw [if_neg hp, List.filter_cons, List.filter_cons, hrest]

lemma filter_snoc {α : Type} {on : α → Bool} {rows : List α} {a : α} (h : on a = false) :
    (rows ++ [a]).filter on = rows.filter on := by
  rw [List.filter_append, List.filter_cons_of_neg (by simp [h]), List.filter_nil, List.append_nil]

/-- With unique identifiers every campaign is found. -/
lemma Catalogue.Sound.home (hd : d.Sound) {c : Campaign} (hc : c ∈ d.campaigns) :
    d.home c.id = some c.brandId := by
  have hsome : (d.campaign c.id).isSome := List.find?_isSome.mpr ⟨c, hc, decide_eq_true rfl⟩
  obtain ⟨c', hc'⟩ := Option.isSome_iff_exists.mp hsome
  have hid : c'.id = c.id := by simpa using List.find?_some hc'
  have heq : c' = c :=
    List.inj_on_of_nodup_map hd.campaigns (List.mem_of_find?_eq_some hc') hc hid
  rw [Catalogue.home, hc', heq]
  rfl

/-- What is written elsewhere leaves a brand alone. -/
lemma Changed.of_eq (h : Changed d op d') (hd : d.Sound) (hbrand : (d.brand brandId).isSome)
    (hnot : ¬op.On brandId d) : d'.of brandId = d.of brandId := by
  have hlinks : (d.campaignMerchants.filter fun l => d'.home l.campaignId = some brandId) =
      d.campaignMerchants.filter fun l => d.home l.campaignId = some brandId := by
    refine List.filter_congr fun l hl => ?_
    obtain ⟨c, hc⟩ := Option.isSome_iff_exists.mp (hd.linked l hl).2
    have hhome : d.home l.campaignId = some c.brandId := by
      rw [Catalogue.home, hc]
      rfl
    rw [hhome, h.home hhome]
  cases h with
  | read => rfl
  | createBrand =>
    obtain ⟨b, hb⟩ := Option.isSome_iff_exists.mp hbrand
    refine Prod.ext ?_ rfl
    exact (find?_snoc hb).trans hb.symm
  | createCampaign =>
    refine Prod.ext rfl (Prod.ext ?_ hlinks)
    exact filter_snoc (decide_eq_false hnot)
  | @updateCampaign id data =>
    refine Prod.ext rfl (Prod.ext ?_ hlinks)
    refine filter_updateWhere fun c hc hid => ?_
    have helse : c.brandId ≠ brandId := by
      rintro rfl
      refine hnot ?_
      rw [← of_decide_eq_true hid]
      exact hd.home hc
    exact ⟨decide_eq_false helse, decide_eq_false helse⟩
  | @relink campaignId merchantId =>
    refine Prod.ext rfl (Prod.ext rfl ?_)
    refine filter_updateWhere fun l hl hl' => ?_
    have helse : ¬d.home l.campaignId = some brandId := by
      rw [(of_decide_eq_true hl').1]
      exact hnot
    exact ⟨decide_eq_false helse, decide_eq_false helse⟩
  | link =>
    refine Prod.ext rfl (Prod.ext rfl ?_)
    exact filter_snoc (decide_eq_false hnot)

lemma Catalogue.Other.of_eq (h : d.Other d') : d'.of brandId = d.of brandId := by
  obtain ⟨hbrand, hcampaign⟩ := h.lookups
  have hhome : d'.home = d.home := by
    funext id
    rw [Catalogue.home, hcampaign, Catalogue.home]
  rw [Catalogue.of, Catalogue.of, hbrand, hhome, h.campaigns, h.campaignMerchants]

/-- Whoever may write to a brand owns it. -/
lemma Op.On.by_owner {principal : Principal} (h : op.On brandId d) (hallowed : op.AllowedTo principal d)
    (howner : d.ownerOf brandId = some owner) :
    principal.role = .ADMIN ∨ owner = some principal.id := by
  have hcampaign : ∀ {id}, d.home id = some brandId → d.campaignOwner id = some owner := by
    intro id hhome
    rw [Catalogue.campaignOwner, hhome, Option.bind_some, howner]
  cases op with
  | createCampaign data =>
    rw [← h] at howner
    exact hallowed.imp_right fun hown => Option.some.inj (howner.symm.trans hown)
  | updateCampaign id | upsertCampaignMerchant id =>
    exact hallowed.imp_right fun hown => Option.some.inj ((hcampaign h).symm.trans hown)
  | findBrand | findCampaign | createBrand => cases h

end Rows

/-- Somebody who may has written to the brand. -/
def Wrote (brandId : String) (owner : Option String) (w : Agency) (e : Async.Effect Catalogue Op) :
    Prop :=
  e.op.On brandId e.found ∧ ∃ q, w.Begun e.session q ∧ q.1.role ∈ ROLES ∧
    (q.1.role = .ADMIN ∨ owner = some q.1.id)

lemma Wrote.mono {w w' : Agency} {brandId : String} {owner : Option String}
    {e : Async.Effect Catalogue Op} (h : Wrote brandId owner w e) (hentries : w.entries ⊆ w'.entries) :
    Wrote brandId owner w' e := by
  obtain ⟨hon, q, hq, hallowed⟩ := h
  exact ⟨hon, q, hentries hq, hallowed⟩

/-- What has become of a brand. -/
structure Kept (brandId : String) (owner : Option String) (s t : AgencyState) : Prop where
  effects : s.world.effects <+: t.world.effects
  ownerOf : t.world.state.ownerOf brandId = some owner
  rows : t.world.state.of brandId = s.world.state.of brandId ∨
    ∃ e ∈ t.world.effects.drop s.world.effects.length, Wrote brandId owner t.world e

lemma Kept.step {s t u : AgencyState} {l : Async.Label Happening (Event.Res Op.Res) String}
    {brandId : String} {owner : Option String} (h : Kept brandId owner s t)
    (ht : agency.Reachable t) (hstep : agency.Step t l u) : Kept brandId owner s u := by
  have hu : Faithful u.world := faithful_of_reachable (ht.step hstep)
  have hbrand : (t.world.state.brand brandId).isSome := by
    obtain ⟨b, hb, -⟩ := Option.map_eq_some_iff.mp h.ownerOf
    exact Option.isSome_iff_exists.mpr ⟨b, hb⟩
  have hentries : t.world.entries ⊆ u.world.entries := Async.entries_step hstep
  rcases Async.effect_step hstep with
    ⟨heffects, hstate⟩ | ⟨n, op, k, rest, -, ⟨v, uuid, hanswer⟩, heffects⟩
  · have hof : u.world.state.of brandId = t.world.state.of brandId ∧
        t.world.state.Later u.world.state := by
      rcases hstate with hstate | hother
      · rw [hstate]
        exact ⟨rfl, .rfl⟩
      · exact ⟨hother.of_eq, hother.later⟩
    obtain ⟨b, hb, howner⟩ := Option.map_eq_some_iff.mp h.ownerOf
    refine ⟨heffects ▸ h.effects, Option.map_eq_some_iff.mpr ⟨b, hof.2.brand _ b hb, howner⟩, ?_⟩
    refine h.rows.imp hof.1.trans ?_
    rintro ⟨e, he, hwrote⟩
    exact ⟨e, heffects ▸ he, hwrote.mono hentries⟩
  · have hchanged := changed_of_answer hanswer
    have hdrop : u.world.effects.drop s.world.effects.length =
        t.world.effects.drop s.world.effects.length ++ [⟨n, op, t.world.state⟩] := by
      rw [heffects, List.drop_append_of_le_length h.effects.length_le]
    refine ⟨h.effects.trans (heffects ▸ List.prefix_append ..), hchanged.ownerOf h.ownerOf, ?_⟩
    rw [hdrop]
    by_cases hon : op.On brandId t.world.state
    · refine .inr ⟨_, List.mem_append_right _ (List.mem_singleton_self _), hon, ?_⟩
      obtain ⟨q, hq, hrole, hallowed⟩ := hu.authorised ⟨n, op, t.world.state⟩ (by simp [heffects])
      exact ⟨q, hq, hrole, hon.by_owner hallowed h.ownerOf⟩
    · refine h.rows.imp (hchanged.of_eq (faithful_of_reachable ht).sound hbrand hon).trans ?_
      rintro ⟨e, he, hwrote⟩
      exact ⟨e, List.mem_append_left _ he, hwrote.mono hentries⟩

/-- **Nobody else changes a brand.** It keeps its owner; and if the brand, its campaigns or their merchants
are not what they were, then in the meantime the owner or an admin has written to them. -/
theorem brand_kept {s t : AgencyState}
    {tr : List (Move AgencyState (Async.Label Happening (Event.Res Op.Res) String))}
    {brandId : String} {owner : Option String} (hs : agency.Reachable s) (hrun : agency.Run s tr t)
    (howner : s.world.state.ownerOf brandId = some owner) :
    t.world.state.ownerOf brandId = some owner ∧
      (t.world.state.of brandId ≠ s.world.state.of brandId →
        ∃ e ∈ t.world.effects.drop s.world.effects.length, Wrote brandId owner t.world e) := by
  have hkept : Kept brandId owner s t := by
    induction hrun with
    | nil => exact ⟨List.prefix_rfl, howner, .inl rfl⟩
    | snoc hrun hstep ih => exact ih.step (hs.run hrun) hstep
  exact ⟨hkept.ownerOf, hkept.rows.resolve_left⟩

/-! ### Two of Ann's campaigns -/

namespace TwoOwners

/-- New rows are called by their names. -/
def uuid : Op → String
  | .createBrand data => data.slug
  | .createCampaign data => data.name
  | _ => ""

def reply (op : Op) (d : Catalogue) : Except String op.Res × Catalogue :=
  match Catalogue.answer (uuid op) op d with
  | some (v, d') => (.ok v, d')
  | none => (.error "refused", d)

lemma played_reply (op : Op) (d : Catalogue) :
    Async.Played Returns (fun _ => False) op d (reply op d) := by
  rw [reply]
  cases hanswer : Catalogue.answer (uuid op) op d with
  | none => exact id
  | some vd => exact ⟨_, hanswer⟩

abbrev InProgress := Async.Program Happening (Event.Res Op.Res) String Unit

/-- One more session, from its beginning to its end. -/
def after (n : ℕ) (q : Request) (w : Agency) : InProgress × Agency :=
  (Async.session n q q.program).runFor (Async.journalled reply) 5 w

lemma run_after {n : ℕ} {q : Request} {w : Agency} {threads : Multiset InProgress}
    (h : (Async.session n q q.program).checkFor (Async.journalled reply)
      (fun e w _ => Async.unused e w) 5 w) :
    ∃ tr, agency.Run ⟨w, threads⟩ tr ⟨(after n q w).2, (after n q w).1 ::ₘ threads⟩ :=
  Async.run_session played_reply (fun _ _ _ => trivial) h

def ann : Principal := { id := "ann", role := .MERCHANT_OPERATOR }

def bob : Principal := { id := "bob", role := .MERCHANT_OPERATOR }

def opening : Agency where
  state := { users := ["ann", "bob"] }

lemma opening_init : agency.Init ⟨opening, 0⟩ := ⟨⟨⟨rfl, rfl, rfl⟩, rfl, rfl⟩, rfl⟩

def founded : InProgress × Agency :=
  after 0 (ann, .createBrand { name := "Acme", slug := "acme" }) opening

def amount (n : ℕ) : BigIntString := ⟨n.succ, Int.natCast_succ_pos n⟩

def plan : CreateCampaignDto where
  brandId := "acme"
  name := "spring"
  thresholdAmountPaise := amount 99
  rewardAmountStar := amount 0
  budgetStar := amount 9

def planned : InProgress × Agency := after 1 (ann, .createCampaign plan) founded.2

lemma planned_reachable : ∃ threads, agency.Reachable ⟨planned.2, threads⟩ := by
  have hfounded : ∃ tr, agency.Run ⟨opening, 0⟩ tr ⟨founded.2, founded.1 ::ₘ 0⟩ :=
    run_after (by decide +kernel)
  obtain ⟨tr₁, hrun₁⟩ := hfounded
  have hplanned : ∃ tr, agency.Run ⟨founded.2, founded.1 ::ₘ 0⟩ tr
      ⟨planned.2, planned.1 ::ₘ founded.1 ::ₘ 0⟩ := run_after (by decide +kernel)
  obtain ⟨tr₂, hrun₂⟩ := hplanned
  exact ⟨_, (Transition.System.Reachable.init opening_init).run (hrun₁.append hrun₂)⟩

def shown : InProgress × Agency := after 2 (ann, .findCampaign "spring") planned.2

/-- Bob may not start Ann's campaign. -/
def refused : InProgress × Agency := after 2 (bob, .setStatus "spring" .ACTIVE) planned.2

def started : InProgress × Agency := after 3 (ann, .setStatus "spring" .ACTIVE) refused.2

end TwoOwners

/-- Ann is shown her campaign. -/
theorem tenancy_of_shown : ∃ (s : AgencyState) (n : ℕ) (q : Request) (c : Campaign) (b : Brand),
    agency.Reachable s ∧ s.world.Begun n q ∧ s.world.Finished n (.ok (.details c b)) ∧ Allows q.1 b ∧
      s.world.state.home c.id = some b.id ∧ s.world.state.brand b.id = some b := by
  obtain ⟨threads, hplanned⟩ := TwoOwners.planned_reachable
  have hshown : ∃ tr, agency.Run ⟨TwoOwners.planned.2, threads⟩ tr
      ⟨TwoOwners.shown.2, TwoOwners.shown.1 ::ₘ threads⟩ := TwoOwners.run_after (by decide +kernel)
  obtain ⟨tr, hrun⟩ := hshown
  have hreach := hplanned.run hrun
  have hbegun : TwoOwners.shown.2.entries[7]? =
      some ⟨.begin 2 (TwoOwners.ann, .findCampaign "spring"), .ok ()⟩ := rfl
  have hfinished : ∃ c b, TwoOwners.shown.2.entries[9]? =
      some ⟨.finish 2 (.ok (.details c b)), .ok ()⟩ := ⟨_, _, rfl⟩
  obtain ⟨c, b, hfinished⟩ := hfinished
  have hq : TwoOwners.shown.2.Begun 2 (TwoOwners.ann, .findCampaign "spring") :=
    List.mem_of_getElem? hbegun
  have hdetails : TwoOwners.shown.2.Finished 2 (.ok (.details c b)) := List.mem_of_getElem? hfinished
  exact ⟨_, 2, _, c, b, hreach, hq, hdetails, (tenancy hreach).2.2 2 _ c b hq hdetails⟩

/-- Bob is refused, and then Ann starts her campaign. -/
theorem brand_kept_of_started : ∃ (s t : AgencyState)
    (tr : List (Move AgencyState (Async.Label Happening (Event.Res Op.Res) String))),
    agency.Reachable s ∧ agency.Run s tr t ∧
      s.world.state.ownerOf "acme" = some (some "ann") ∧
      t.world.state.of "acme" ≠ s.world.state.of "acme" ∧
      ∃ e ∈ t.world.effects.drop s.world.effects.length, Wrote "acme" (some "ann") t.world e := by
  obtain ⟨threads, hplanned⟩ := TwoOwners.planned_reachable
  have hrefused : ∃ tr, agency.Run ⟨TwoOwners.planned.2, threads⟩ tr
      ⟨TwoOwners.refused.2, TwoOwners.refused.1 ::ₘ threads⟩ := TwoOwners.run_after (by decide +kernel)
  obtain ⟨tr₁, hrun₁⟩ := hrefused
  have hstarted : ∃ tr, agency.Run ⟨TwoOwners.refused.2, TwoOwners.refused.1 ::ₘ threads⟩ tr
      ⟨TwoOwners.started.2, TwoOwners.started.1 ::ₘ TwoOwners.refused.1 ::ₘ threads⟩ :=
    TwoOwners.run_after (by decide +kernel)
  obtain ⟨tr₂, hrun₂⟩ := hstarted
  have hrows : TwoOwners.planned.2.state.ownerOf "acme" = some (some "ann") ∧
      TwoOwners.started.2.state.of "acme" ≠ TwoOwners.planned.2.state.of "acme" := by decide +kernel
  have hrun := hrun₁.append hrun₂
  exact ⟨_, _, _, hplanned, hrun, hrows.1, hrows.2, (brand_kept hplanned hrun hrows.1).2 hrows.2⟩

end PayEra.Api.Campaigns
