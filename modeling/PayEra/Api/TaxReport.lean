import PayEra.Api.Playback
import PayEra.Lib.Calendar
import PayEra.Lib.Decimal
import PayEra.Lib.Grouping

/-!
# The tax report

`getTaxReport` of `apps/api/src/transactions/transactions.service.ts`: a year of a user's completed
transactions, summed up, by asset and by month. The sums agree with each other, and the years of the
server's clock share the transactions out.
-/

namespace PayEra.Api.TaxReports

open Calendar (Zone)

/-! ### The rows -/

/-- A transaction with what the query includes; it has been completed. -/
structure Included where
  tx : Transaction
  merchant : Merchant
  rewards : List Reward
  settlementInstruction : Option SettlementInstruction
  completedAt : ℕ
  completed : tx.completedAt = some completedAt

/-- The `where` of the query. -/
def inWindow (userId : String) (gte lt : ℤ) (t : Transaction) : Bool :=
  t.userId = userId && t.status = .COMPLETED &&
    t.completedAt.any fun c : ℕ => decide (gte ≤ c) && decide (c < lt)

/-- What the database may answer: the order of rows that were completed at one time is open. -/
structure Fetches (b : Backend) (userId : String) (gte lt : ℤ) (rows : List Included) : Prop where
  found : (rows.map (·.tx)).Perm (b.transactions.filter (inWindow userId gte lt))
  sorted : rows.Pairwise fun r r' => r.completedAt ≤ r'.completedAt
  merchant : ∀ r ∈ rows, r.merchant ∈ b.merchants ∧ r.merchant.id = r.tx.merchantId
  rewards : ∀ r ∈ rows, r.rewards.Perm (b.rewards.filter fun w => w.transactionId = some r.tx.id)
  settlement : ∀ r ∈ rows,
    r.settlementInstruction = b.settlementInstructions.find? fun s => s.transactionId = r.tx.id

/-! ### The report -/

structure AssetTotals where
  count : ℕ := 0
  totalPaise : ℤ := 0
  totalCrypto : ℚ := 0

structure MonthTotals where
  count : ℕ := 0
  totalPaise : ℤ := 0
  starRewards : ℤ := 0

structure TaxSummary where
  totalTransactions : ℕ
  totalSpentInr : List Char
  totalStarRewards : ℤ

structure TaxTransaction where
  id : String
  publicId : String
  date : String
  merchantName : String
  merchantUpiVpa : String
  assetIn : AssetCode
  amountInCrypto : Option ℚ
  amountInPaise : String
  amountInInr : List Char
  starRewards : ℤ
  stellarTransactionHash : Option String
  settlementStatus : Option SettlementStatus
  settlementReference : Option String

structure TaxReport where
  taxYear : ℤ
  generatedAt : String
  summary : TaxSummary
  byAsset : List (AssetCode × AssetTotals)
  byMonth : List (String × MonthTotals)
  transactions : List TaxTransaction
  disclaimer : String

/-- `tx.rewards.reduce((sum, r) => sum + Number(r.starAmount), 0)`. -/
def Included.starRewards (r : Included) : ℤ := (r.rewards.map (·.starAmount)).sum

/-- `(paise / 100).toFixed(2)`. -/
def inr (paise : ℤ) : List Char := Decimal.toFixed ((paise : ℚ) / 100) 2

def AssetTotals.add (totals : AssetTotals) (r : Included) : AssetTotals where
  count := totals.count + 1
  totalPaise := totals.totalPaise + r.tx.amountInPaise
  totalCrypto := totals.totalCrypto + r.tx.amountInCrypto.getD 0

def MonthTotals.add (totals : MonthTotals) (r : Included) : MonthTotals where
  count := totals.count + 1
  totalPaise := totals.totalPaise + r.tx.amountInPaise
  starRewards := totals.starRewards + r.starRewards

/-- `padStart(2, '0')`. -/
def padStart (s : String) : String := String.ofList (List.replicate (2 - s.length) '0') ++ s

/-- The month is numbered from zero, and written from one on. -/
def monthKey (year : ℤ) (month : ℕ) : String :=
  toString year ++ "-" ++ padStart (toString (month + 1))

def details (js : Js) (r : Included) : TaxTransaction where
  id := r.tx.id
  publicId := r.tx.publicId
  date := js.isoString r.completedAt
  merchantName := r.merchant.displayName
  merchantUpiVpa := r.tx.merchantUpiVpa
  assetIn := r.tx.assetIn
  amountInCrypto := r.tx.amountInCrypto
  amountInPaise := toString r.tx.amountInPaise
  amountInInr := inr r.tx.amountInPaise
  starRewards := r.starRewards
  stellarTransactionHash := r.tx.stellarTransactionHash
  settlementStatus := r.settlementInstruction.map (·.status)
  settlementReference := r.settlementInstruction.bind (·.mockReference)

/-- `getTaxReport`, on what the database has answered. -/
def getTaxReport (js : Js) (zone : Zone) (year : ℤ) (now : ℕ) (transactions : List Included) :
    TaxReport :=
  let totalSpentPaise := (transactions.map (·.tx.amountInPaise)).sum
  { taxYear := year
    generatedAt := js.isoString now
    summary :=
      { totalTransactions := transactions.length
        totalSpentInr := inr totalSpentPaise
        totalStarRewards := (transactions.map (·.starRewards)).sum }
    byAsset := Grouping.group (fun r => r.tx.assetIn) {} AssetTotals.add transactions
    byMonth :=
      Grouping.group (fun r => monthKey year (zone.month r.completedAt)) {} MonthTotals.add transactions
    transactions := transactions.map (details js)
    disclaimer := "This report is generated for informational purposes only and does not constitute tax advice. Please consult a qualified tax professional for your specific situation." }

/-- A report on a year of the server's clock. -/
def Reports (js : Js) (zone : Zone) (b : Backend) (userId : String) (year : ℤ) (report : TaxReport) :
    Prop :=
  ∃ now transactions,
    Fetches b userId (zone.startOfYear year) (zone.startOfYear (year + 1)) transactions ∧
    report = getTaxReport js zone year now transactions

/-! ### What the reports are for -/

/-- The parts of a report agree. -/
structure Reconciles (report : TaxReport) : Prop where
  countByAsset : report.summary.totalTransactions = (report.byAsset.map fun p => p.2.count).sum
  countByMonth : report.summary.totalTransactions = (report.byMonth.map fun p => p.2.count).sum
  spentByAsset : Decimal.toNumber report.summary.totalSpentInr =
    some (.finite (((report.byAsset.map fun p => p.2.totalPaise).sum : ℤ) / 100))
  spentByMonth : Decimal.toNumber report.summary.totalSpentInr =
    some (.finite (((report.byMonth.map fun p => p.2.totalPaise).sum : ℤ) / 100))
  starByMonth : report.summary.totalStarRewards = (report.byMonth.map fun p => p.2.starRewards).sum
  months : ∀ key ∈ report.byMonth.map Prod.fst,
    key ∈ (List.range 12).map (monthKey report.taxYear)

def TaxReport.ids (report : TaxReport) : List String := report.transactions.map (·.id)

/-- The transaction of the user is completed, and has the time of it. -/
def Completed (userId : String) (t : Transaction) : Prop :=
  t.userId = userId ∧ t.status = .COMPLETED ∧ t.completedAt.isSome = true

section

variable {js : Js} {zone : Zone} {b : Backend} {userId : String} {year : ℤ} {report : TaxReport}
  {t : Transaction} {rows : List Included}

/-! ### The sums -/

lemma toNumber_inr (paise : ℤ) : Decimal.toNumber (inr paise) = some (.finite ((paise : ℚ) / 100)) := by
  have hrounded := Decimal.rounded_intCast paise 2
  norm_num at hrounded
  rw [inr, Decimal.toNumber_toFixed, hrounded]

/-- Every transaction is counted once in its group, and so are its amount and its rewards. -/
lemma reconciles (js : Js) (zone : Zone) (year : ℤ) (now : ℕ) (rows : List Included) :
    Reconciles (getTaxReport js zone year now rows) := by
  have hones : rows.length = (rows.map fun _ => 1).sum := by simp
  have hspentByAsset : ((getTaxReport js zone year now rows).byAsset.map fun p => p.2.totalPaise).sum =
      (rows.map (·.tx.amountInPaise)).sum :=
    Grouping.sum_group (μ := fun _ => AssetTotals.totalPaise) (fun _ => rfl) (fun _ _ => rfl) rows
  have hspentByMonth : ((getTaxReport js zone year now rows).byMonth.map fun p => p.2.totalPaise).sum =
      (rows.map (·.tx.amountInPaise)).sum :=
    Grouping.sum_group (μ := fun _ => MonthTotals.totalPaise) (fun _ => rfl) (fun _ _ => rfl) rows
  refine ⟨?_, ?_, ?_, ?_, ?_, ?_⟩
  · exact hones.trans
      (Grouping.sum_group (μ := fun _ => AssetTotals.count) (fun _ => rfl) (fun _ _ => rfl) rows).symm
  · exact hones.trans
      (Grouping.sum_group (μ := fun _ => MonthTotals.count) (fun _ => rfl) (fun _ _ => rfl) rows).symm
  · rw [hspentByAsset]
    exact toNumber_inr _
  · rw [hspentByMonth]
    exact toNumber_inr _
  · exact (Grouping.sum_group (μ := fun _ => MonthTotals.starRewards) (fun _ => rfl)
      (fun _ _ => rfl) rows).symm
  · intro key hkey
    obtain ⟨r, -, rfl⟩ := Grouping.mem_keys_group.mp hkey
    exact List.mem_map_of_mem (List.mem_range.mpr (Calendar.monthFromDay_lt _))

/-! ### The years -/

lemma inWindow_iff {gte lt : ℤ} : inWindow userId gte lt t = true ↔
    (t.userId = userId ∧ t.status = .COMPLETED) ∧ ∃ c : ℕ, t.completedAt = some c ∧ gte ≤ c ∧ c < lt := by
  simp [inWindow, Option.any_eq_true]

lemma ids_getTaxReport (now : ℕ) :
    (getTaxReport js zone year now rows).ids = (rows.map (·.tx)).map (·.id) := by
  rw [TaxReport.ids, getTaxReport, List.map_map, List.map_map]
  rfl

/-- A transaction is in the report on the year of its completion. -/
lemma mem_ids (h : Reports js zone b userId year report) {id : String} :
    id ∈ report.ids ↔ ∃ t ∈ b.transactions, t.id = id ∧ (t.userId = userId ∧ t.status = .COMPLETED) ∧
      ∃ c : ℕ, t.completedAt = some c ∧ zone.InYear year c := by
  obtain ⟨now, rows, hfetches, rfl⟩ := h
  rw [ids_getTaxReport, List.mem_map]
  constructor
  · rintro ⟨t, ht, rfl⟩
    obtain ⟨hmem, hwindow⟩ := List.mem_filter.mp (hfetches.found.mem_iff.mp ht)
    obtain ⟨howner, c, hc, hyear⟩ := inWindow_iff.mp hwindow
    exact ⟨t, hmem, rfl, howner, c, hc, hyear⟩
  · rintro ⟨t, hmem, rfl, howner, c, hc, hyear⟩
    have hwindow := inWindow_iff.mpr ⟨howner, c, hc, hyear.1, hyear.2⟩
    exact ⟨t, hfetches.found.mem_iff.mpr (List.mem_filter.mpr ⟨hmem, hwindow⟩), rfl⟩

lemma nodup_ids (hids : (b.transactions.map (·.id)).Nodup) (h : Reports js zone b userId year report) :
    report.ids.Nodup := by
  obtain ⟨now, rows, hfetches, rfl⟩ := h
  rw [ids_getTaxReport, (hfetches.found.map _).nodup_iff]
  exact hids.sublist (List.filter_sublist.map _)

/-- The clock shows the year of the report and the month of the key, where it is regular. -/
theorem month_of_completion (hregular : zone.Regular)
    (h : Fetches b userId (zone.startOfYear year) (zone.startOfYear (year + 1)) rows) {r : Included}
    (hr : r ∈ rows) :
    monthKey year (zone.month r.completedAt) =
      monthKey (zone.year r.completedAt) (zone.month r.completedAt) := by
  have hmem := h.found.mem_iff.mp (List.mem_map_of_mem hr)
  obtain ⟨-, c, hc, hyear⟩ := inWindow_iff.mp (List.mem_filter.mp hmem).2
  obtain rfl : r.completedAt = c := Option.some.inj (r.completed.symm.trans hc)
  rw [Calendar.Zone.year_of_inYear hregular hyear]

/-- The sums of every report agree, its months are months of its year, and of the user's transactions
from a year on exactly the completed ones are in the reports, each once and in one of them. -/
theorem tax_reports_reconcile (js : Js) (zone : Zone) (b : Backend) (userId : String)
    (reports : ℤ → TaxReport) (hids : (b.transactions.map (·.id)).Nodup)
    (hfirst : ∀ t ∈ b.transactions, t.userId = userId → ∀ c : ℕ, t.completedAt = some c →
      zone.startOfYear 2000 ≤ c)
    (hreports : ∀ year ≥ 2000, Reports js zone b userId year (reports year)) :
    (∀ year ≥ 2000, (reports year).taxYear = year ∧ Reconciles (reports year) ∧
      (reports year).ids.Nodup) ∧
    ∀ t ∈ b.transactions,
      (Completed userId t → ∃! year, 2000 ≤ year ∧ t.id ∈ (reports year).ids) ∧
      (¬Completed userId t → ∀ year ≥ 2000, t.id ∉ (reports year).ids) := by
  -- the transaction that a report names
  have hsame {t t' : Transaction} (ht : t ∈ b.transactions) (ht' : t' ∈ b.transactions)
      (heq : t'.id = t.id) : t' = t := List.inj_on_of_nodup_map hids ht' ht heq
  refine ⟨fun year hyear => ?_, fun t ht => ⟨?_, ?_⟩⟩
  · refine ⟨?_, ?_, nodup_ids hids (hreports year hyear)⟩
    · obtain ⟨now, rows, -, heq⟩ := hreports year hyear
      rw [heq]
      rfl
    · obtain ⟨now, rows, -, heq⟩ := hreports year hyear
      rw [heq]
      exact reconciles js zone year now rows
  · rintro ⟨howner, hstatus, hsome⟩
    obtain ⟨c, hc⟩ := Option.isSome_iff_exists.mp hsome
    obtain ⟨year, hyear, hin⟩ := Calendar.Zone.exists_inYear (hfirst t ht howner c hc)
    refine ⟨year, ⟨hyear, ?_⟩, ?_⟩
    · exact (mem_ids (hreports year hyear)).mpr ⟨t, ht, rfl, ⟨howner, hstatus⟩, c, hc, hin⟩
    · rintro year' ⟨hyear', hmem⟩
      obtain ⟨t', ht', heq, -, c', hc', hin'⟩ := (mem_ids (hreports year' hyear')).mp hmem
      rw [hsame ht ht' heq, hc] at hc'
      obtain rfl := Option.some.inj hc'
      exact hin'.unique hin
  · intro hnot year hyear hmem
    obtain ⟨t', ht', heq, ⟨howner, hstatus⟩, c, hc, -⟩ := (mem_ids (hreports year hyear)).mp hmem
    obtain rfl := hsame ht ht' heq
    exact hnot ⟨howner, hstatus, by rw [hc]; rfl⟩

end

/-! ### Two payments at a turn of the year -/

namespace TurnOfTheYear

lemma near (t : ℤ) : |t - 19800000 - t| < Calendar.msPerDay := by
  have heq : t - 19800000 - t = -19800000 := by ring
  rw [heq]
  decide

/-- Five and a half hours east. -/
def zone : Zone where
  localTime t := t + 19800000
  utc t := t - 19800000
  near := near

def merchant : Merchant where
  id := "merchant"
  ownerUserId := none
  displayName := "Shop"
  defaultUpiVpa := none
  status := .APPROVED

def payment (id : String) (completedAt : ℕ) : Transaction where
  id := id
  publicId := id
  userId := "user"
  walletId := none
  merchantId := "merchant"
  merchantQrCodeId := none
  campaignId := none
  status := .COMPLETED
  assetIn := .XLM
  amountInCrypto := some 10
  amountInPaise := 10050
  quoteRateInrPerAsset := some (201 / 20)
  usdcAmount := none
  networkFeePaise := 0
  merchantSettlementPaise := 10050
  merchantUpiVpa := "shop@upi"
  qrPayloadHash := none
  expiresAt := none
  completedAt := some completedAt

def reward (id transactionId : String) (reason : RewardReason) (starAmount : ℤ) : Reward where
  id := id
  userId := "user"
  transactionId := some transactionId
  reason := reason
  status := .MINTED
  starAmount := starAmount
  formulaVersion := "STAR_SPEND_V1"

def settled : SettlementInstruction where
  id := "settled"
  transactionId := "new"
  merchantId := "merchant"
  amountPaise := 10050
  status := .CONFIRMED
  mockReference := some "payout"

/-- The last millisecond of 2023, and the first one of 2024, which is rewarded twice. -/
def backend : Backend where
  transactions := [payment "old" 1704047399999, payment "new" 1704047400000]
  merchants := [merchant]
  rewards := [reward "spent" "new" .SPEND 10, reward "spent before" "old" .SPEND 10,
    reward "offered" "new" .CAMPAIGN 25]
  settlementInstructions := [settled]

def row (id : String) (completedAt : ℕ) : Included where
  tx := payment id completedAt
  merchant := merchant
  rewards := backend.rewards.filter fun w => w.transactionId = some id
  settlementInstruction := backend.settlementInstructions.find? fun s => s.transactionId = id
  completedAt := completedAt
  completed := rfl

def rows (year : ℤ) : List Included :=
  [row "old" 1704047399999, row "new" 1704047400000].filter fun r =>
    inWindow "user" (zone.startOfYear year) (zone.startOfYear (year + 1)) r.tx

def reports (year : ℤ) : TaxReport := getTaxReport OneOrder.js zone year 0 (rows year)

lemma of_mem_rows {year : ℤ} {r : Included} (hr : r ∈ rows year) :
    ∃ id completedAt, r = row id completedAt := by
  have hmem := (List.mem_filter.mp hr).1
  rcases List.mem_cons.mp hmem with rfl | hmem
  · exact ⟨_, _, rfl⟩
  · exact ⟨_, _, List.mem_singleton.mp hmem⟩

lemma reports_backend (year : ℤ) : Reports OneOrder.js zone backend "user" year (reports year) := by
  refine ⟨0, rows year, ⟨?_, ?_, ?_, ?_, ?_⟩, rfl⟩
  · have hmap : backend.transactions.filter
        (inWindow "user" (zone.startOfYear year) (zone.startOfYear (year + 1))) =
          (rows year).map (·.tx) :=
      List.filter_map (f := Included.tx) (l := [row "old" 1704047399999, row "new" 1704047400000])
    rw [hmap]
  · apply List.Pairwise.filter
    simp [row]
  · intro r hr
    obtain ⟨id, completedAt, rfl⟩ := of_mem_rows hr
    exact ⟨List.mem_singleton_self _, rfl⟩
  · intro r hr
    obtain ⟨id, completedAt, rfl⟩ := of_mem_rows hr
    exact List.Perm.refl _
  · intro r hr
    obtain ⟨id, completedAt, rfl⟩ := of_mem_rows hr
    rfl

end TurnOfTheYear

/-- Each of the two is in one report, and the later one brings both of its rewards. -/
theorem tax_reports_reconcile_at_new_year :
    ((TurnOfTheYear.reports 2024).summary.totalStarRewards = 35 ∧ Reconciles (TurnOfTheYear.reports 2024)) ∧
    (∃! year, 2000 ≤ year ∧ "old" ∈ (TurnOfTheYear.reports year).ids) ∧
    ∃! year, 2000 ≤ year ∧ "new" ∈ (TurnOfTheYear.reports year).ids := by
  have hfirst : ∀ t ∈ TurnOfTheYear.backend.transactions, t.userId = "user" → ∀ c : ℕ,
      t.completedAt = some c → TurnOfTheYear.zone.startOfYear 2000 ≤ c := by
    intro t ht _ c hc
    rcases List.mem_cons.mp ht with rfl | ht
    · obtain rfl := Option.some.inj hc
      decide
    · obtain rfl := List.mem_singleton.mp ht
      obtain rfl := Option.some.inj hc
      decide
  obtain ⟨hyears, hall⟩ := tax_reports_reconcile OneOrder.js TurnOfTheYear.zone
    TurnOfTheYear.backend "user" TurnOfTheYear.reports
    (by decide) hfirst fun year _ => TurnOfTheYear.reports_backend year
  refine ⟨⟨by decide +kernel, (hyears 2024 (by decide)).2.1⟩, ?_, ?_⟩
  · exact (hall _ (List.mem_cons_self ..)).1 ⟨rfl, rfl, rfl⟩
  · exact (hall _ (List.mem_cons_of_mem _ (List.mem_singleton_self _))).1 ⟨rfl, rfl, rfl⟩

end PayEra.Api.TaxReports
