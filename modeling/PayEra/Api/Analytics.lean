import Mathlib.Tactic.Ring
import PayEra.Api.Rewards
import PayEra.Lib.Double
import PayEra.Lib.Grouping

/-!
# The metrics of rewards

`getRewardMetrics` of `apps/api/src/analytics/analytics.service.ts`: the minted rewards by reason, and
their distribution among the campaigns and the direct bonus.
-/

namespace PayEra.Api.Analytics

open Rewards (CreateRewardDto)

/-! ### Rewards with their campaigns -/

/-- A request for a reward, with the campaign that it is of. The validator takes positive amounts. -/
structure CampaignRewardDto extends CreateRewardDto where
  campaignId : Option String
  positive : 0 < starAmount

/-- A row of rewards. Amounts are positive by the constraint of the table. -/
structure RewardRow extends Reward where
  campaignId : Option String
  positive : 0 < starAmount

/-- The row that `create` writes. -/
def create (dto : CampaignRewardDto) (id : String) : RewardRow where
  id := id
  userId := dto.userId
  transactionId := dto.transactionId
  reason := dto.reason
  status := dto.status.getD .PENDING
  starAmount := dto.starAmount
  formulaVersion := dto.formulaVersion.getD "MANUAL_V1"
  campaignId := dto.campaignId
  positive := dto.positive

/-- The reason and the campaign of rewards, and the sum of their amounts. -/
abbrev RewardGroup := (RewardReason × Option String) × ℤ

/-- The `where` of the query. -/
def counts (transactions : List Transaction) (merchantId : Option String) (r : RewardRow) : Bool :=
  (match truthy merchantId with
    | none => true
    | some merchantId =>
      transactions.any fun t => some t.id = r.transactionId && t.merchantId = merchantId) &&
  r.status = .MINTED

def grouped (rows : List RewardRow) : List RewardGroup :=
  Grouping.group (fun r => (r.reason, r.campaignId)) 0 (fun sum r => sum + r.starAmount) rows

/-- `groupBy`, with some order of the groups. -/
def Groups (rows : List RewardRow) (groups : List RewardGroup) : Prop := groups.Perm (grouped rows)

/-! ### The metrics -/

/-- Numbers are doubles. Those that are added up here are far below the largest one. -/
structure ByReason where
  SPEND : ℚ := 0
  REFERRAL : ℚ := 0
  CAMPAIGN : ℚ := 0
  MERCHANT : ℚ := 0
  deriving DecidableEq

/-- `byReason[reason] += amount`. -/
def ByReason.add (byReason : ByReason) (reason : RewardReason) (amount : ℚ) : ByReason :=
  match reason with
  | .SPEND => { byReason with SPEND := Double.add byReason.SPEND amount }
  | .REFERRAL => { byReason with REFERRAL := Double.add byReason.REFERRAL amount }
  | .CAMPAIGN => { byReason with CAMPAIGN := Double.add byReason.CAMPAIGN amount }
  | .MERCHANT => { byReason with MERCHANT := Double.add byReason.MERCHANT amount }

/-- What the loop over the groups adds up. -/
structure Tally where
  byReason : ByReason := {}
  totalMinted : ℚ := 0
  campaignMap : List (String × ℚ) := []

def Tally.add (tally : Tally) (group : RewardGroup) : Tally :=
  let amount := Double.round group.2
  { byReason := tally.byReason.add group.1.1 amount
    totalMinted := Double.add tally.totalMinted amount
    campaignMap :=
      match truthy group.1.2 with
      | some campaignId =>
        Grouping.upsert 0 (fun sum => Double.add sum amount) campaignId tally.campaignMap
      | none => tally.campaignMap }

def tally (groups : List RewardGroup) : Tally := groups.foldl Tally.add {}

/-- The parts of the distribution: the campaigns, and the direct bonus without a campaign. -/
def Tally.entries (tally : Tally) : List (Option String × ℚ) :=
  tally.campaignMap.map (fun p => (some p.1, p.2)) ++
    if 0 < tally.byReason.SPEND then [(none, tally.byReason.SPEND)] else []

structure Slice where
  name : String
  value : ℚ
  deriving DecidableEq

/-- The name of a part, by the names of the campaigns. -/
def sliceName (campaigns : List (String × String)) : Option String → String
  | some id => (truthy (Grouping.get campaigns id)).getD "Unknown Campaign"
  | none => "Direct Spend Bonus"

structure RewardMetrics where
  totalMinted : ℚ
  campaignDistribution : List Slice
  byReason : ByReason

/-- `getRewardMetrics`, on what the database has answered. -/
def getRewardMetrics (campaigns : List (String × String)) (groups : List RewardGroup) : RewardMetrics where
  totalMinted := (tally groups).totalMinted
  campaignDistribution :=
    (tally groups).entries.map fun e => { name := sliceName campaigns e.1, value := e.2 }
  byReason := (tally groups).byReason

/-! ### What the metrics are for -/

def ByReason.get (byReason : ByReason) : RewardReason → ℚ
  | .SPEND => byReason.SPEND
  | .REFERRAL => byReason.REFERRAL
  | .CAMPAIGN => byReason.CAMPAIGN
  | .MERCHANT => byReason.MERCHANT

def ByReason.total (byReason : ByReason) : ℚ :=
  byReason.SPEND + byReason.REFERRAL + byReason.CAMPAIGN + byReason.MERCHANT

/-- The value of a part of the distribution. -/
def Tally.value (tally : Tally) (part : Option String) : ℚ := (Grouping.get tally.entries part).getD 0

/-- Among some of the rewards, the part has another value with this one than without it, in whatever
order the groups come. -/
def Contributes (transactions : List Transaction) (merchantId : Option String) (rows : List RewardRow)
    (r : RewardRow) (part : Option String) : Prop :=
  ∃ rest, (r :: rest).Subperm rows ∧ ∀ groups groups',
    Groups ((r :: rest).filter (counts transactions merchantId)) groups →
    Groups (rest.filter (counts transactions merchantId)) groups' →
    (tally groups).value part ≠ (tally groups').value part

/-- No reward is in two parts of the distribution, the parts are no more than was minted, and the
reasons are exactly that. -/
structure CountsOnce (transactions : List Transaction) (merchantId : Option String)
    (campaigns : List (String × String)) (rows : List RewardRow) : Prop where
  once : ∀ r ∈ rows, ∀ part part', Contributes transactions merchantId rows r part →
    Contributes transactions merchantId rows r part' → part = part'
  bounded : ∀ groups, Groups (rows.filter (counts transactions merchantId)) groups →
    ((getRewardMetrics campaigns groups).campaignDistribution.map (·.value)).sum ≤
      (getRewardMetrics campaigns groups).totalMinted
  byReason : ∀ groups, Groups (rows.filter (counts transactions merchantId)) groups →
    (getRewardMetrics campaigns groups).byReason.total = (getRewardMetrics campaigns groups).totalMinted

/-- The amount that is minted, without rounding. -/
def minted (transactions : List Transaction) (merchantId : Option String) (rows : List RewardRow) : ℤ :=
  ((rows.filter (counts transactions merchantId)).map fun r => r.starAmount).sum

/-- None of the minted rewards for spending is tied to a campaign. -/
def Untied (transactions : List Transaction) (merchantId : Option String) (rows : List RewardRow) :
    Prop :=
  ∀ r ∈ rows, counts transactions merchantId r = true → r.reason = .SPEND → truthy r.campaignId = none

section

variable {transactions : List Transaction} {merchantId : Option String} {rows rest : List RewardRow}
  {groups groups' : List RewardGroup} {campaigns : List (String × String)} {r : RewardRow}
  {g : RewardGroup} {t : Tally} {part : Option String}

/-! ### Groups and rows -/

/-- The sum over groups, by the weight of their reason and campaign. -/
def weighed (weight : RewardReason → Option String → ℤ) (groups : List RewardGroup) : ℤ :=
  (groups.map fun g => weight g.1.1 g.1.2 * g.2).sum

/-- The amounts of rows, by the weight of their reason and campaign. -/
def amount (weight : RewardReason → Option String → ℤ) (rows : List RewardRow) : ℤ :=
  (rows.map fun r => weight r.reason r.campaignId * r.starAmount).sum

/-- The weight of everything. -/
def all (_ : RewardReason) (_ : Option String) : ℤ := 1

/-- The weight of a reason. -/
def ofReason (reason reason' : RewardReason) (_ : Option String) : ℤ := if reason' = reason then 1 else 0

/-- The weight of all the campaigns. -/
def tied (_ : RewardReason) (campaignId : Option String) : ℤ := if (truthy campaignId).isSome then 1 else 0

/-- The groups carry what the rows do. -/
lemma weighed_eq (weight : RewardReason → Option String → ℤ) (h : Groups rows groups) :
    weighed weight groups = amount weight rows := by
  have hperm := (List.Perm.map (fun g : RewardGroup => weight g.1.1 g.1.2 * g.2) h).sum_eq
  rw [weighed, hperm]
  exact Grouping.sum_group (μ := fun (k : RewardReason × Option String) b => weight k.1 k.2 * b)
    (w := fun r : RewardRow => weight r.reason r.campaignId * r.starAmount)
    (fun _ => mul_zero _) (fun _ _ => mul_add _ _ _) rows

lemma amount_all (transactions : List Transaction) (merchantId : Option String)
    (rows : List RewardRow) :
    amount all (rows.filter (counts transactions merchantId)) = minted transactions merchantId rows := by
  simp [amount, all, minted]

/-- A larger weight on the rows makes a larger amount. -/
lemma amount_le {weight weight' : RewardReason → Option String → ℤ}
    (h : ∀ r ∈ rows, weight r.reason r.campaignId ≤ weight' r.reason r.campaignId) :
    amount weight rows ≤ amount weight' rows :=
  List.sum_le_sum fun r hr => Int.mul_le_mul_of_nonneg_right (h r hr) r.positive.le

lemma amount_add (weight weight' : RewardReason → Option String → ℤ) (rows : List RewardRow) :
    amount weight rows + amount weight' rows =
      amount (fun reason campaignId => weight reason campaignId + weight' reason campaignId) rows := by
  simp only [amount, add_mul, List.sum_map_add]

/-- The rows of a group are positive. -/
lemma nonneg_of_groups (h : Groups rows groups) : ∀ g ∈ groups, 0 ≤ g.2 := by
  intro g hg
  have hmem := h.subset hg
  clear hg h
  induction rows using List.reverseRecOn generalizing g with
  | nil => cases hmem
  | append_singleton rows r ih =>
    rw [grouped, Grouping.group_concat] at hmem
    have hpos := r.positive
    rcases Grouping.mem_upsert hmem with hg | rfl | ⟨b, hb, rfl⟩
    · exact ih g hg
    · simp only
      omega
    · have hb' : (0 : ℤ) ≤ b := ih _ hb
      simp only
      omega

@[simp] lemma weighed_nil (weight : RewardReason → Option String → ℤ) : weighed weight [] = 0 := rfl

lemma weighed_concat (weight : RewardReason → Option String → ℤ) (groups : List RewardGroup)
    (g : RewardGroup) :
    weighed weight (groups ++ [g]) = weighed weight groups + weight g.1.1 g.1.2 * g.2 := by
  simp [weighed]

/-- Weights that are zero or one. -/
lemma weighed_nonneg {weight : RewardReason → Option String → ℤ} (h : ∀ g ∈ groups, 0 ≤ g.2)
    (hweight : ∀ reason campaignId, 0 ≤ weight reason campaignId) : 0 ≤ weighed weight groups := by
  apply List.sum_nonneg
  intro x hx
  obtain ⟨g, hg, rfl⟩ := List.mem_map.mp hx
  exact mul_nonneg (hweight _ _) (h g hg)

lemma weighed_le {weight : RewardReason → Option String → ℤ} (h : ∀ g ∈ groups, 0 ≤ g.2)
    (hweight : ∀ reason campaignId, weight reason campaignId ≤ 1) :
    weighed weight groups ≤ weighed all groups :=
  List.sum_le_sum fun g hg => Int.mul_le_mul_of_nonneg_right (hweight _ _) (h g hg)

/-! ### The loop, of sums that are exact -/

@[simp] lemma tally_nil : tally [] = {} := rfl

lemma tally_concat (groups : List RewardGroup) (g : RewardGroup) :
    tally (groups ++ [g]) = (tally groups).add g := by
  simp [tally]

@[simp] lemma get_add (byReason : ByReason) (reason reason' : RewardReason) (amount : ℚ) :
    (byReason.add reason amount).get reason' =
      if reason = reason' then Double.add (byReason.get reason') amount else byReason.get reason' := by
  cases reason <;> cases reason' <;> rfl

/-- The loop has added up without rounding. -/
structure Exact (groups : List RewardGroup) (t : Tally) : Prop where
  total : t.totalMinted = weighed all groups
  reasons : ∀ reason, t.byReason.get reason = weighed (ofReason reason) groups
  values : ∀ p ∈ t.campaignMap, ∃ n : ℤ, 0 ≤ n ∧ n ≤ weighed all groups ∧ p.2 = n
  campaigns : (t.campaignMap.map fun p => p.2).sum = weighed tied groups

/-- A sum stays exact up to 2⁵³. -/
lemma add_exact {m n : ℤ} (hm : 0 ≤ m) (hn : 0 ≤ n) (h : m + n ≤ 2 ^ 53) :
    Double.add m (Double.round n) = m + n := by
  rw [Double.round_intCast (abs_le.mpr ⟨by omega, by omega⟩)]
  exact Double.add_intCast (abs_le.mpr ⟨by omega, by omega⟩)

lemma weighed_all_concat (groups : List RewardGroup) (g : RewardGroup) :
    weighed all (groups ++ [g]) = weighed all groups + g.2 := by
  rw [weighed_concat, all, one_mul]

lemma Exact.campaignMap_add (h : Exact groups t) (hgroups : ∀ g ∈ groups, 0 ≤ g.2) (hg : 0 ≤ g.2)
    (hbound : weighed all groups + g.2 ≤ 2 ^ 53) :
    (∀ p ∈ (t.add g).campaignMap, ∃ n : ℤ, 0 ≤ n ∧ n ≤ weighed all groups + g.2 ∧ p.2 = n) ∧
      ((t.add g).campaignMap.map fun p => p.2).sum =
        (weighed tied groups + tied g.1.1 g.1.2 * g.2 : ℤ) := by
  have hnonneg : 0 ≤ weighed all groups := weighed_nonneg hgroups fun _ _ => Int.one_nonneg
  cases hid : truthy g.1.2 with
  | none =>
    have hmap : (t.add g).campaignMap = t.campaignMap := by simp only [Tally.add, hid]
    have htied : tied g.1.1 g.1.2 = 0 := by simp [tied, hid]
    rw [hmap, h.campaigns, htied, zero_mul, add_zero]
    refine ⟨fun p hp => ?_, rfl⟩
    obtain ⟨n, hn, hle, heq⟩ := h.values p hp
    exact ⟨n, hn, by omega, heq⟩
  | some id =>
    have hmap : (t.add g).campaignMap = Grouping.upsert 0
        (fun sum => Double.add sum (Double.round g.2)) id t.campaignMap := by
      simp only [Tally.add, hid]
    have htied : tied g.1.1 g.1.2 = 1 := by simp [tied, hid]
    have hfirst : Double.add 0 (Double.round g.2) = g.2 := by
      have hadd := add_exact le_rfl hg (by omega)
      rwa [Int.cast_zero, zero_add] at hadd
    have hvalue (b : ℚ) (hb : (id, b) ∈ t.campaignMap) : ∃ n : ℤ, 0 ≤ n ∧ n ≤ weighed all groups ∧
        b = n ∧ Double.add b (Double.round g.2) = n + g.2 := by
      obtain ⟨n, hn, hle, rfl⟩ := h.values _ hb
      exact ⟨n, hn, hle, rfl, add_exact hn hg (by omega)⟩
    rw [hmap]
    constructor
    · intro p hp
      rcases Grouping.mem_upsert hp with hp | rfl | ⟨b, hb, rfl⟩
      · obtain ⟨n, hn, hle, heq⟩ := h.values p hp
        exact ⟨n, hn, by omega, heq⟩
      · exact ⟨g.2, hg, by omega, hfirst⟩
      · obtain ⟨n, hn, hle, -, heq⟩ := hvalue b hb
        exact ⟨n + g.2, by omega, by omega, by rw [heq, Int.cast_add]⟩
    · have hadd (b : ℚ) (hb : (id, b) ∈ t.campaignMap) :
          Double.add b (Double.round g.2) = b + g.2 := by
        obtain ⟨n, -, -, rfl, heq⟩ := hvalue b hb
        exact heq
      have hsum := Grouping.sum_upsert (μ := fun (_ : String) (b : ℚ) => b)
        (f := fun sum => Double.add sum (Double.round g.2)) hfirst hadd
      rw [hsum, h.campaigns, htied, one_mul, Int.cast_add]

/-- One more group. -/
lemma Exact.add (h : Exact groups t) (hgroups : ∀ g ∈ groups, 0 ≤ g.2) (hg : 0 ≤ g.2)
    (hbound : weighed all groups + g.2 ≤ 2 ^ 53) : Exact (groups ++ [g]) (t.add g) := by
  have hnonneg : 0 ≤ weighed all groups := weighed_nonneg hgroups fun _ _ => Int.one_nonneg
  obtain ⟨hvalues, hcampaigns⟩ := h.campaignMap_add hgroups hg hbound
  rw [← weighed_all_concat] at hvalues
  refine ⟨?_, fun reason => ?_, hvalues, by rw [hcampaigns, weighed_concat]⟩
  · rw [Tally.add, h.total, weighed_all_concat, add_exact hnonneg hg hbound, Int.cast_add]
  · have hreason : 0 ≤ weighed (ofReason reason) groups := by
      apply weighed_nonneg hgroups
      intro reason' _
      rw [ofReason]
      split_ifs <;> decide
    have hle : weighed (ofReason reason) groups ≤ weighed all groups := by
      apply weighed_le hgroups
      intro reason' _
      rw [ofReason]
      split_ifs <;> decide
    rw [Tally.add, get_add, h.reasons, weighed_concat, ofReason]
    split_ifs
    · rw [add_exact hreason hg (by omega), one_mul, Int.cast_add]
    · rw [zero_mul, add_zero]

/-- Up to 2⁵³ nothing is rounded. -/
lemma exact_tally (hgroups : ∀ g ∈ groups, 0 ≤ g.2) (hbound : weighed all groups ≤ 2 ^ 53) :
    Exact groups (tally groups) := by
  induction groups using List.reverseRecOn with
  | nil => exact ⟨rfl, fun reason => by cases reason <;> rfl, by simp, rfl⟩
  | append_singleton groups g ih =>
    have hfront : ∀ g ∈ groups, 0 ≤ g.2 := fun g' hg' => hgroups g' (List.mem_append_left _ hg')
    have hg : 0 ≤ g.2 := hgroups g (by simp)
    rw [weighed_all_concat] at hbound
    rw [tally_concat]
    exact (ih hfront (by omega)).add hfront hg hbound

lemma exact_of_groups (h : Groups (rows.filter (counts transactions merchantId)) groups)
    (hbound : minted transactions merchantId rows ≤ 2 ^ 53) : Exact groups (tally groups) := by
  apply exact_tally (nonneg_of_groups h)
  rwa [weighed_eq all h, amount_all]

/-- The parts are the rows that are tied to a campaign, and once more the rows for spending. -/
lemma sum_distribution (h : Exact groups (tally groups)) (hgroups : ∀ g ∈ groups, 0 ≤ g.2) :
    ((getRewardMetrics campaigns groups).campaignDistribution.map (·.value)).sum =
      weighed tied groups + weighed (ofReason .SPEND) groups := by
  have hspend : (tally groups).byReason.SPEND = weighed (ofReason .SPEND) groups := h.reasons .SPEND
  have hdirect : ((if 0 < (tally groups).byReason.SPEND then
      [((none : Option String), (tally groups).byReason.SPEND)] else []).map fun e => e.2).sum =
        (tally groups).byReason.SPEND := by
    have hnonneg : 0 ≤ weighed (ofReason .SPEND) groups := by
      apply weighed_nonneg hgroups
      intro reason' _
      rw [ofReason]
      split_ifs <;> decide
    split_ifs with hpos
    · simp
    · have hzero : weighed (ofReason .SPEND) groups ≤ 0 := by
        rw [hspend] at hpos
        exact_mod_cast not_lt.mp hpos
      have : weighed (ofReason .SPEND) groups = 0 := by omega
      simp [hspend, this]
  rw [← hspend, ← h.campaigns, ← hdirect, getRewardMetrics, Tally.entries]
  simp only [List.map_map, List.map_append, List.sum_append, Function.comp_def]

/-- Every reason has its field. -/
lemma total_byReason (h : Exact groups (tally groups)) :
    (tally groups).byReason.total = (tally groups).totalMinted := by
  have hone (g : RewardGroup) : (ofReason .SPEND g.1.1 g.1.2 + ofReason .REFERRAL g.1.1 g.1.2 +
      ofReason .CAMPAIGN g.1.1 g.1.2 + ofReason .MERCHANT g.1.1 g.1.2) = all g.1.1 g.1.2 := by
    cases g.1.1 <;> rfl
  have hsum : weighed (ofReason .SPEND) groups + weighed (ofReason .REFERRAL) groups +
      weighed (ofReason .CAMPAIGN) groups + weighed (ofReason .MERCHANT) groups =
        weighed all groups := by
    simp only [weighed, ← List.sum_map_add, ← add_mul, hone]
  rw [h.total, ← hsum]
  push_cast
  rw [← h.reasons, ← h.reasons, ← h.reasons, ← h.reasons]
  rfl

/-! ### The parts that a reward is in -/

/-- What the groups with the key go to. -/
def Shares (part : Option String) (reason : RewardReason) (campaignId : Option String) : Prop :=
  match part with
  | some id => truthy campaignId = some id
  | none => reason = .SPEND

instance (part : Option String) (reason : RewardReason) (campaignId : Option String) :
    Decidable (Shares part reason campaignId) := by
  cases part <;> unfold Shares <;> infer_instance

/-- A part is the sum of its groups, in their order, and rounded. -/
def gathered (part : Option String) (groups : List RewardGroup) : ℚ :=
  (groups.filter fun g => Shares part g.1.1 g.1.2).foldl
    (fun sum g => Double.add sum (Double.round g.2)) 0

lemma gathered_concat (part : Option String) (groups : List RewardGroup) (g : RewardGroup) :
    gathered part (groups ++ [g]) =
      if Shares part g.1.1 g.1.2 then Double.add (gathered part groups) (Double.round g.2)
      else gathered part groups := by
  rw [gathered, List.filter_append, List.foldl_append]
  split_ifs with h <;> simp [h, gathered]

lemma gathered_nonneg (hgroups : ∀ g ∈ groups, 0 ≤ g.2) : 0 ≤ gathered part groups := by
  induction groups using List.reverseRecOn with
  | nil => exact le_rfl
  | append_singleton groups g ih =>
    have hfront : 0 ≤ gathered part groups :=
      ih fun g' hg' => hgroups g' (List.mem_append_left _ hg')
    have hg : (0 : ℚ) ≤ g.2 := by exact_mod_cast hgroups g (by simp)
    rw [gathered_concat]
    split_ifs
    · exact Double.round_nonneg (add_nonneg hfront (Double.round_nonneg hg))
    · exact hfront

lemma spend_tally (groups : List RewardGroup) :
    (tally groups).byReason.get .SPEND = gathered none groups := by
  induction groups using List.reverseRecOn with
  | nil => rfl
  | append_singleton groups g ih =>
    rw [tally_concat, Tally.add, get_add, gathered_concat, ih]
    rfl

lemma campaign_tally (id : String) (groups : List RewardGroup) :
    (Grouping.get (tally groups).campaignMap id).getD 0 = gathered (some id) groups := by
  induction groups using List.reverseRecOn with
  | nil => rfl
  | append_singleton groups g ih =>
    rw [tally_concat, gathered_concat, ← ih]
    cases hid : truthy g.1.2 with
    | none => simp [Tally.add, hid, Shares]
    | some id' =>
      simp only [Tally.add, hid, Grouping.get_upsert, Shares, Option.some.injEq]
      split_ifs with heq
      · rw [heq, Option.getD_some]
      · rfl

lemma get_campaigns (campaignMap : List (String × ℚ)) (part : Option String) :
    Grouping.get (campaignMap.map fun p => (some p.1, p.2)) part =
      part.bind fun id => Grouping.get campaignMap id := by
  induction campaignMap with
  | nil => cases part <;> rfl
  | cons p campaignMap ih =>
    rw [List.map_cons, Grouping.get_cons, ih]
    cases part with
    | none => simp
    | some id => simp [Grouping.get_cons]

/-- The distribution has the sum of the groups of a part under it. -/
lemma value_tally (hgroups : ∀ g ∈ groups, 0 ≤ g.2) (part : Option String) :
    (tally groups).value part = gathered part groups := by
  rw [Tally.value, Tally.entries, Grouping.get_append, get_campaigns]
  cases part with
  | some id =>
    have hdirect : Grouping.get (if 0 < (tally groups).byReason.SPEND then
        [((none : Option String), (tally groups).byReason.SPEND)] else []) (some id) = none := by
      split_ifs <;> simp [Grouping.get_cons]
    rw [hdirect, Option.or_none, ← campaign_tally]
    rfl
  | none =>
    have hnonneg : 0 ≤ gathered none groups := gathered_nonneg hgroups
    have hspend : (tally groups).byReason.SPEND = gathered none groups := spend_tally groups
    rw [hspend]
    split_ifs with hpos
    · simp [Grouping.get_cons]
    · rw [le_antisymm (not_lt.mp hpos) hnonneg]
      rfl

/-- The groups of other parts do not matter. -/
lemma gathered_congr (h : groups.filter (fun g => Shares part g.1.1 g.1.2) =
    groups'.filter fun g => Shares part g.1.1 g.1.2) : gathered part groups = gathered part groups' := by
  rw [gathered, gathered, h]

lemma groups_grouped (rows : List RewardRow) : Groups rows (grouped rows) := List.Perm.refl _

/-- The groups of a part are those of its rows. -/
lemma filter_grouped (part : Option String) (rows : List RewardRow) :
    (grouped rows).filter (fun g => Shares part g.1.1 g.1.2) =
      grouped (rows.filter fun r => Shares part r.reason r.campaignId) :=
  Grouping.filter_group (fun k : RewardReason × Option String => decide (Shares part k.1 k.2)) rows

/-- A row alone is all of its part. -/
lemma value_singleton (h : Shares part r.reason r.campaignId) (hgroups : Groups [r] groups) :
    0 < (tally groups).value part := by
  have hstar : (1 : ℚ) ≤ r.starAmount := by exact_mod_cast r.positive
  have hone : Double.IsDouble 1 := by
    have := Double.isDouble_intCast (n := 1) (by decide)
    rwa [Int.cast_one] at this
  have hround : 1 ≤ Double.round r.starAmount := Double.le_round zero_le_one hstar hone
  have hsingle : groups = [] ++ [((r.reason, r.campaignId), 0 + r.starAmount)] :=
    List.perm_singleton.mp hgroups
  rw [value_tally (nonneg_of_groups hgroups), hsingle, gathered_concat, if_pos h, zero_add]
  exact zero_lt_one.trans_le (Double.le_round zero_le_one (hround.trans (by simp [gathered])) hone)

/-- A row is in the parts that its group goes to, if it counts at all. -/
lemma contributes_iff (hr : r ∈ rows) : Contributes transactions merchantId rows r part ↔
    counts transactions merchantId r = true ∧ Shares part r.reason r.campaignId := by
  constructor
  · rintro ⟨rest, -, hdiffer⟩
    by_contra hnot
    apply hdiffer _ _ (groups_grouped _) (groups_grouped _)
    rw [value_tally (nonneg_of_groups (groups_grouped _)),
      value_tally (nonneg_of_groups (groups_grouped _))]
    apply gathered_congr
    rw [filter_grouped, filter_grouped]
    by_cases hcounts : counts transactions merchantId r = true
    · have hshares : ¬Shares part r.reason r.campaignId := fun h => hnot ⟨hcounts, h⟩
      rw [List.filter_cons_of_pos hcounts, List.filter_cons_of_neg (by simpa using hshares)]
    · rw [List.filter_cons_of_neg hcounts]
  · rintro ⟨hcounts, hshares⟩
    refine ⟨[], List.singleton_subperm_iff.mpr hr, fun groups groups' hgroups hgroups' => ?_⟩
    rw [List.filter_cons_of_pos hcounts] at hgroups
    obtain rfl : groups' = [] := List.perm_nil.mp hgroups'
    exact (value_singleton hshares hgroups).ne'

/-! ### Counting once -/

/-- Without rounding or with it, a reward is in two parts if it is for spending and of a campaign. -/
lemma once_iff : (∀ r ∈ rows, ∀ part part', Contributes transactions merchantId rows r part →
    Contributes transactions merchantId rows r part' → part = part') ↔
      Untied transactions merchantId rows := by
  constructor
  · intro h r hr hcounts hreason
    cases hid : truthy r.campaignId with
    | none => rfl
    | some id =>
      have hcampaign : Contributes transactions merchantId rows r (some id) :=
        (contributes_iff hr).mpr ⟨hcounts, hid⟩
      have hdirect : Contributes transactions merchantId rows r none :=
        (contributes_iff hr).mpr ⟨hcounts, hreason⟩
      cases h r hr _ _ hcampaign hdirect
  · intro h r hr part part' hpart hpart'
    obtain ⟨hcounts, hshares⟩ := (contributes_iff hr).mp hpart
    obtain ⟨-, hshares'⟩ := (contributes_iff hr).mp hpart'
    have huntied := h r hr hcounts
    cases part <;> cases part' <;> simp_all [Shares]

/-- The two weights of a row make one at most. -/
lemma distribution_le (h : Untied transactions merchantId rows)
    (hgroups : Groups (rows.filter (counts transactions merchantId)) groups)
    (hexact : Exact groups (tally groups)) :
    ((getRewardMetrics campaigns groups).campaignDistribution.map (·.value)).sum ≤
      (getRewardMetrics campaigns groups).totalMinted := by
  have hle : weighed tied groups + weighed (ofReason .SPEND) groups ≤ weighed all groups := by
    rw [weighed_eq tied hgroups, weighed_eq (ofReason .SPEND) hgroups, weighed_eq all hgroups, amount_add]
    apply amount_le
    intro r hr
    obtain ⟨hmem, hcounts⟩ := List.mem_filter.mp hr
    have huntied := h r hmem hcounts
    simp only [tied, ofReason, all]
    split_ifs <;> simp_all
  have htotal : (getRewardMetrics campaigns groups).totalMinted = weighed all groups := hexact.total
  rw [sum_distribution hexact (nonneg_of_groups hgroups), htotal]
  exact_mod_cast hle

/-- **The exact condition.** Metrics that count every reward once have none for spending that is tied to
a campaign. Up to 2⁵³, which doubles count exactly, nothing else is needed. -/
theorem counts_once_iff (transactions : List Transaction) (merchantId : Option String)
    (campaigns : List (String × String)) (rows : List RewardRow) :
    (CountsOnce transactions merchantId campaigns rows → Untied transactions merchantId rows) ∧
    (minted transactions merchantId rows ≤ 2 ^ 53 →
      (CountsOnce transactions merchantId campaigns rows ↔ Untied transactions merchantId rows)) := by
  have hforward (h : CountsOnce transactions merchantId campaigns rows) :
      Untied transactions merchantId rows := once_iff.mp h.once
  refine ⟨hforward, fun hbound => ⟨hforward, fun h => ⟨once_iff.mpr h, ?_, ?_⟩⟩⟩
  · exact fun groups hgroups => distribution_le h hgroups (exact_of_groups hgroups hbound)
  · exact fun groups hgroups => total_byReason (exact_of_groups hgroups hbound)

end

/-! ### A campaign's reward for spending -/

namespace SpendInCampaign

def dto : CampaignRewardDto where
  userId := "user"
  transactionId := none
  referralId := none
  reason := .SPEND
  starAmount := 10
  status := some .MINTED
  formulaVersion := none
  campaignId := some "campaign"
  positive := by decide

def rows : List RewardRow := [create dto "reward"]

def ofCampaign (campaignId : String) (starAmount : ℤ) (positive : 0 < starAmount) : CampaignRewardDto :=
  { dto with reason := .CAMPAIGN, starAmount, campaignId := some campaignId, positive }

/-- Rewards of three campaigns, the sum of which is no double. -/
def large : List RewardRow :=
  [create (ofCampaign "first" (2 ^ 53) (by decide)) "1",
    create (ofCampaign "second" 1 one_pos) "2",
    create (ofCampaign "third" 1 one_pos) "3"]

end SpendInCampaign

open SpendInCampaign

/-- Ten STAR are minted, and twenty are distributed. Beyond 2⁵³ the parts can be more than the total with
no reward for spending at all. -/
theorem campaign_spend_counts_twice :
    (¬CountsOnce [] none [("campaign", "Diwali")] rows ∧
      ∃ groups, Groups (rows.filter (counts [] none)) groups ∧
        (getRewardMetrics [("campaign", "Diwali")] groups).totalMinted = 10 ∧
        (getRewardMetrics [("campaign", "Diwali")] groups).campaignDistribution =
          [⟨"Diwali", 10⟩, ⟨"Direct Spend Bonus", 10⟩]) ∧
    Untied [] none large ∧ ¬CountsOnce [] none [] large := by
  refine ⟨⟨fun h => ?_, _, groups_grouped _, by decide +kernel, by decide +kernel⟩, ?_, fun h => ?_⟩
  · have hbounded := h.bounded _ (groups_grouped _)
    revert hbounded
    decide +kernel
  · intro r hr _ hreason
    have hcampaign : ∀ r ∈ large, r.reason ≠ .SPEND := by decide
    exact absurd hreason (hcampaign r hr)
  · have hbounded := h.bounded _ (groups_grouped _)
    revert hbounded
    decide +kernel

end PayEra.Api.Analytics
