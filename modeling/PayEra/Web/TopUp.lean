import PayEra.Api.Amounts
import PayEra.Lib.Double
import PayEra.Lib.FormUrlEncoded

/-!
# Topping up

`apps/web/src/lib/topup.ts`, the balances of `apps/web/src/lib/horizon.ts`, and what the pay page
makes of a quote and of balances: whether there is enough to pay, and what it sends to the on-ramp.
-/

namespace PayEra.Web

open Decimal (Number)
open Api (AssetCode Backend Request Returns Total)
open Api.Transactions (Quote)

/-! ### The decision -/

/-- `number | string`. -/
inductive Numeric where
  | number (n : Option Number)
  | text (s : List Char)

/-- `Number(value ?? 0)`. -/
def Numeric.read : Option Numeric → Option Number
  | none => some (.finite 0)
  | some (.number n) => n
  | some (.text s) => (Decimal.toNumber s).map Double.ofNumber

structure TopUpDecision where
  insufficient : Bool
  shortfall : Number
  deriving DecidableEq

def computeTopUp (requiredAmount availableBalance : Option Numeric) : TopUpDecision :=
  match Numeric.read requiredAmount with
  | some (.finite required) =>
    if required ≤ 0 then { insufficient := false, shortfall := .finite 0 }
    else
      let safeAvailable : ℚ :=
        match Numeric.read availableBalance with
        | some available => Double.finiteOr0 available
        | none => 0
      if required ≤ safeAvailable then { insufficient := false, shortfall := .finite 0 }
      else { insufficient := true, shortfall := Double.ofRat (required - safeAvailable) }
  | _ => { insufficient := false, shortfall := .finite 0 }

def buildTopUpQuery (shortfall : Number) (returnTo : String) : List Char :=
  FormUrlEncoded.serialize
    [("topup",
        if Double.positive shortfall then String.ofList (Double.toFixed shortfall 2) else ""),
      ("returnTo", returnTo)]

/-! ### The balances -/

inductive AssetType where
  | native | credit_alphanum4 | credit_alphanum12 | liquidity_pool_shares
  deriving DecidableEq

/-- A line of the balances of an account. The ledger counts in `Int64`, of ten million to a unit. -/
structure BalanceLine where
  assetType : AssetType
  assetCode : Option String
  assetIssuer : Option String
  stroops : ℕ
  upper : stroops < 2 ^ 63

/-- The number of the line's text. -/
def BalanceLine.balance (line : BalanceLine) : ℚ := line.stroops / 10 ^ 7

structure WalletBalances where
  xlm : List Char
  usdc : List Char

/-- `getWalletBalances`, after the account is loaded, or is not. -/
def getWalletBalances : Option (List BalanceLine) → WalletBalances
  | none => { xlm := ['0'], usdc := ['0'] }
  | some lines =>
    lines.foldl
      (fun found line =>
        let found :=
          if line.assetType = .native then
            { found with xlm := Double.toFixed (Double.ofRat line.balance) 4 }
          else found
        if line.assetType = .credit_alphanum4 ∧ line.assetCode = some "USDC" then
          { found with usdc := Double.toFixed (Double.ofRat line.balance) 2 }
        else found)
      { xlm := ['0'], usdc := ['0'] }

/-! ### The page -/

/-- The assets that the page offers. -/
inductive PayAsset where
  | XLM | USDC
  deriving DecidableEq

def PayAsset.assetCode : PayAsset → AssetCode
  | .XLM => .XLM
  | .USDC => .USDC

inductive PayStep where
  | SCAN | MERCHANT_FOUND | QUOTE | CONFIRM | PROCESSING | RESULT
  deriving DecidableEq

structure PayPage where
  step : PayStep
  asset : PayAsset
  quote : Option Quote
  balances : Option WalletBalances

namespace PayPage

variable (page : PayPage)

/-- The text of the amount, which has eighteen decimals. -/
def requiredAmount : Option Numeric :=
  page.quote.map fun quote => .text (Decimal.toFixed quote.usdcAmount 18)

def availableBalance : Option Numeric :=
  page.balances.map fun balances => .text (if page.asset = .XLM then balances.xlm else balances.usdc)

def topUp : TopUpDecision := computeTopUp page.requiredAmount page.availableBalance

def insufficientBalance : Bool := page.step = .QUOTE && page.topUp.insufficient

/-- What `goToTopUp` sends. -/
def topUpQuery : List Char := buildTopUpQuery page.topUp.shortfall "/pay"

end PayPage

/-! ### What a top-up is for -/

/-- The number that a query carries. -/
def carried (repair : FormUrlEncoded.Repair) (query : List Char) : Option Number :=
  (FormUrlEncoded.get (FormUrlEncoded.parse repair query) "topup").bind fun topup =>
    Decimal.toNumber topup.toList

/-- The page says whether the balance is below the amount, and asks for enough if it is. -/
structure Covers (page : PayPage) (balance amount : ℚ) : Prop where
  reports : page.insufficientBalance = true ↔ balance < amount
  enough : page.insufficientBalance = true →
    ∀ repair, ∃ n, carried repair page.topUpQuery = some (.finite n) ∧ amount ≤ balance + n

/-- The issuer of USDC: `NEXT_PUBLIC_USDC_ISSUER`, or the one that the sources name. -/
def usdcIssuer (env : Option String) : String :=
  (Api.truthy env).getD "GBBD47IF6LWK7P7MDEVSCWR7DPUWV3NY3DTQEVFL4NAT4AQH3ZLLFLA5"

/-- The line is about the asset, by the issuer of USDC. -/
def BalanceLine.Holds (line : BalanceLine) (issuer : String) : PayAsset → Prop
  | .XLM => line.assetType = .native
  | .USDC => line.assetType = .credit_alphanum4 ∧ line.assetCode = some "USDC" ∧
      line.assetIssuer = some issuer

/-- The line has the code of the asset, by any issuer. -/
def BalanceLine.Coded (line : BalanceLine) : PayAsset → Prop
  | .XLM => line.assetType = .native
  | .USDC => line.assetType = .credit_alphanum4 ∧ line.assetCode = some "USDC"

instance (line : BalanceLine) (issuer : String) (asset : PayAsset) :
    Decidable (line.Holds issuer asset) := by
  cases asset <;> unfold BalanceLine.Holds <;> infer_instance

instance (line : BalanceLine) (asset : PayAsset) : Decidable (line.Coded asset) := by
  cases asset <;> unfold BalanceLine.Coded <;> infer_instance

/-- The balance of the asset. An account has one line of it at most. -/
def onChain (issuer : String) (asset : PayAsset) (account : Option (List BalanceLine)) : ℚ :=
  (((account.getD []).find? fun line => line.Holds issuer asset).map BalanceLine.balance).getD 0

/-- The decimals that the page shows. -/
def PayAsset.decimals : PayAsset → ℕ
  | .XLM => 4
  | .USDC => 2

/-- The balance in the last line with the code of the asset, in so many decimals. -/
def lastCoded (asset : PayAsset) (account : Option (List BalanceLine)) : ℚ :=
  (((account.getD []).reverse.find? fun line => line.Coded asset).map fun line =>
    Double.fixed (Double.round line.balance) asset.decimals).getD 0

def WalletBalances.of (balances : WalletBalances) : PayAsset → List Char
  | .XLM => balances.xlm
  | .USDC => balances.usdc

/-- The page has the number for the balance, which is zero as long as there are no balances. -/
def Shows (asset : PayAsset) (balances : Option WalletBalances) (shown : ℚ) : Prop :=
  0 ≤ shown ∧
    match balances with
    | some balances => Decimal.toNumber (balances.of asset) = some (.finite shown)
    | none => shown = 0

/-- The double that a number is read as, and zero for what is too large for one. -/
def double (x : ℚ) : ℚ := Double.finiteOr0 (Double.ofRat x)

/-- The balance that is shown is below the amount of USDC when the balance is below the amount of the
asset, and then the difference of the two doubles, in cents, makes up for what is missing. -/
structure Fits (usdcAmount shown amount balance : ℚ) : Prop where
  side : double shown < double usdcAmount ↔ balance < amount
  cents : balance < amount →
    amount - balance ≤ Double.fixed (Double.round (double usdcAmount - double shown)) 2

instance (usdcAmount shown amount balance : ℚ) : Decidable (Fits usdcAmount shown amount balance) :=
  decidable_of_iff
    ((double shown < double usdcAmount ↔ balance < amount) ∧ (balance < amount →
      amount - balance ≤ Double.fixed (Double.round (double usdcAmount - double shown)) 2))
    ⟨fun h => ⟨h.1, h.2⟩, fun h => ⟨h.side, h.cents⟩⟩

variable {u s x b : ℚ} {page : PayPage} {asset : PayAsset} {quote : Quote} {issuer : String}
  {lines : List BalanceLine} {balances : Option WalletBalances}

/-! ### Cents -/

/-- What is added to a number when it is rounded to cents. -/
def gain (x : ℚ) : ℚ :=
  if Int.fract (100 * x) < 1 / 2 then -Int.fract (100 * x) / 100
  else (1 - Int.fract (100 * x)) / 100

lemma rounded_two (h : 0 ≤ x) : Decimal.rounded x 2 = x + gain x := by
  have hfract := Int.floor_add_fract (100 * x)
  rw [Decimal.rounded_of_nonneg h, gain]
  split_ifs with hlow
  · have hfloor : ⌊x * 10 ^ 2 + 1 / 2⌋ = ⌊100 * x⌋ := by
      rw [Int.floor_eq_iff]
      have hnonneg := Int.fract_nonneg (100 * x)
      constructor <;> linarith
    rw [hfloor]
    linarith
  · have hfloor : ⌊x * 10 ^ 2 + 1 / 2⌋ = ⌊100 * x⌋ + 1 := by
      rw [Int.floor_eq_iff]
      have hlt := Int.fract_lt_one (100 * x)
      push_cast
      constructor <;> linarith
    rw [hfloor]
    push_cast
    linarith

lemma gain_nonneg_iff : 0 ≤ gain x ↔ Int.fract (100 * x) = 0 ∨ 1 / 2 ≤ Int.fract (100 * x) := by
  have hnonneg := Int.fract_nonneg (100 * x)
  have hlt := Int.fract_lt_one (100 * x)
  rw [gain]
  split_ifs with hlow
  · constructor
    · intro h
      left
      linarith
    · rintro (h | h)
      · rw [h]
        norm_num
      · linarith
  · constructor
    · intro
      right
      linarith
    · intro
      apply div_nonneg <;> linarith

lemma double_of_isDouble (h : Double.IsDouble x) (hnonneg : 0 ≤ x) (hlt : x < Double.fixedBound) :
    double x = x := by
  have hround := Double.round_of_isDouble h
  have hfinite : |Double.round x| < 2 ^ 1024 := by
    rw [hround, abs_of_nonneg hnonneg]
    exact hlt.trans Double.fixedBound_lt
  rw [double, Double.ofRat_of_lt hfinite, hround, Double.finiteOr0]

/-- With the balance as it is, and one amount, and nothing that is rounded but to cents. -/
lemma fits_self_iff (hu : Double.IsDouble u) (hb : Double.IsDouble b) (hd : Double.IsDouble (u - b))
    (hu₀ : 0 ≤ u) (hb₀ : 0 ≤ b) (hu₁ : u < Double.fixedBound) (hb₁ : b < Double.fixedBound) :
    Fits u b u b ↔
      (b < u → Int.fract (100 * (u - b)) = 0 ∨ 1 / 2 ≤ Int.fract (100 * (u - b))) := by
  have hdu : double u = u := double_of_isDouble hu hu₀ hu₁
  have hdb : double b = b := double_of_isDouble hb hb₀ hb₁
  have hfixed (hlt : b < u) :
      Double.fixed (Double.round (double u - double b)) 2 = u - b + gain (u - b) := by
    rw [hdu, hdb, Double.round_of_isDouble hd, Double.fixed, if_neg (by linarith),
      rounded_two (by linarith)]
  constructor
  · intro h hlt
    rw [← gain_nonneg_iff]
    have hcents := h.cents hlt
    rw [hfixed hlt] at hcents
    linarith
  · intro h
    refine ⟨by rw [hdu, hdb], fun hlt => ?_⟩
    have hgain := gain_nonneg_iff.mpr (h hlt)
    rw [hfixed hlt]
    linarith

/-! ### The query -/

lemma carried_buildTopUpQuery (repair : FormUrlEncoded.Repair) {returnTo : String} (h : 0 < x) :
    carried repair (buildTopUpQuery (.finite x) returnTo) = some (.finite (Double.fixed x 2)) := by
  have hget (text : String) :
      FormUrlEncoded.get [("topup", text), ("returnTo", returnTo)] "topup" = some text := rfl
  rw [carried, buildTopUpQuery, FormUrlEncoded.parse_serialize, Double.positive,
    if_pos (decide_eq_true h), hget, Option.bind_some, String.toList_ofList,
    Double.toNumber_toFixed h.le]

/-! ### The decision on the page -/

lemma read_text {text : List Char} (h : Decimal.toNumber text = some (.finite x)) :
    Numeric.read (some (.text text)) = some (Double.ofRat x) := by
  rw [Numeric.read, h, Option.map_some, Double.ofNumber]

/-- What is too large for a double is not asked for, and neither is nothing. -/
lemma computeTopUp_eq {required available : Option Numeric} (hs : 0 ≤ s)
    (hrequired : Numeric.read required = some (Double.ofRat u))
    (havailable : Numeric.read available = some (Double.ofRat s)) :
    computeTopUp required available =
      if double s < double u then
        { insufficient := true, shortfall := Double.ofRat (double u - double s) }
      else { insufficient := false, shortfall := .finite 0 } := by
  have hshown : 0 ≤ double s := Double.finiteOr0_nonneg hs
  rw [computeTopUp, hrequired, havailable]
  cases hread : Double.ofRat u with
  | infinite negative =>
    have hzero : double u = 0 := by rw [double, hread, Double.finiteOr0]
    rw [hzero, if_neg hshown.not_gt]
  | finite required =>
    have hdouble : double u = required := by rw [double, hread, Double.finiteOr0]
    rw [hdouble]
    show (if required ≤ 0 then _ else if required ≤ double s then _ else _) = _
    by_cases hlt : double s < required
    · have hpos : ¬required ≤ 0 := not_le.mpr (hshown.trans_lt hlt)
      rw [if_neg hpos, if_neg hlt.not_ge, if_pos hlt]
      rfl
    · rw [if_pos (not_lt.mp hlt), if_neg hlt, ite_self]

/-- The page covers the balance if and only if the amounts fit. -/
lemma covers_iff_fits (hstep : page.step = .QUOTE) (hs : 0 ≤ s)
    (hrequired : Numeric.read page.requiredAmount = some (Double.ofRat u))
    (havailable : Numeric.read page.availableBalance = some (Double.ofRat s)) :
    Covers page b x ↔ Fits u s x b := by
  have htopUp := computeTopUp_eq hs hrequired havailable
  rw [← PayPage.topUp] at htopUp
  have hreports : page.insufficientBalance = true ↔ double s < double u := by
    rw [PayPage.insufficientBalance, hstep, htopUp]
    split_ifs with hlt <;> simp [hlt]
  have hcarried (hlt : double s < double u) (repair : FormUrlEncoded.Repair) :
      carried repair page.topUpQuery =
        some (.finite (Double.fixed (Double.round (double u - double s)) 2)) := by
    have hfinite := Double.ofRat_sub (Double.finiteOr0_nonneg hs) hlt.le
      (Double.isDouble_finiteOr0 u) (Double.abs_finiteOr0_lt u)
    have hpos := Double.round_sub_pos (Double.isDouble_finiteOr0 s) (Double.isDouble_finiteOr0 u) hlt
    rw [PayPage.topUpQuery, htopUp, if_pos hlt]
    exact (congrArg (fun n => carried repair (buildTopUpQuery n "/pay")) hfinite).trans
      (carried_buildTopUpQuery repair hpos)
  constructor
  · intro h
    refine ⟨hreports.symm.trans h.reports, fun hlt => ?_⟩
    have hinsufficient := h.reports.mpr hlt
    obtain ⟨n, hn, hle⟩ := h.enough hinsufficient ⟨fun _ => "?", fun _ _ => by decide⟩
    rw [hcarried (hreports.mp hinsufficient)] at hn
    obtain rfl := Number.finite.inj (Option.some.inj hn)
    linarith
  · intro h
    refine ⟨hreports.trans h.side, fun hinsufficient repair => ?_⟩
    have hlt := hreports.mp hinsufficient
    have hcents := h.cents (h.side.mp hlt)
    exact ⟨_, hcarried hlt repair, by linarith⟩

/-! ### What the page shows -/

lemma BalanceLine.balance_nonneg (line : BalanceLine) : 0 ≤ line.balance := by
  rw [balance]
  positivity

/-- What `Int64` counts is nowhere near the largest double. -/
lemma BalanceLine.ofRat_balance (line : BalanceLine) :
    Double.ofRat line.balance = .finite (Double.round line.balance) := by
  have hbalance : line.balance ≤ 2 ^ (40 : ℤ) := by
    have hupper : (line.stroops : ℚ) < 2 ^ 63 := by exact_mod_cast line.upper
    rw [balance, div_le_iff₀ (by positivity)]
    linarith
  apply Double.ofRat_of_lt
  rw [abs_of_nonneg (Double.round_nonneg line.balance_nonneg)]
  calc Double.round line.balance ≤ 2 ^ (40 : ℤ) :=
        Double.round_le line.balance_nonneg hbalance (Double.isDouble_two_zpow (by decide))
    _ < Double.fixedBound := by norm_num [Double.fixedBound]
    _ < 2 ^ 1024 := Double.fixedBound_lt

/-- A line with the code of the asset replaces what is shown. -/
lemma getWalletBalances_concat (asset : PayAsset) (lines : List BalanceLine) (line : BalanceLine) :
    (getWalletBalances (some (lines ++ [line]))).of asset =
      if line.Coded asset then Double.toFixed (Double.ofRat line.balance) asset.decimals
      else (getWalletBalances (some lines)).of asset := by
  simp only [getWalletBalances, List.foldl_append, List.foldl_cons, List.foldl_nil]
  cases asset with
  | XLM =>
    simp only [WalletBalances.of, BalanceLine.Coded, PayAsset.decimals, apply_ite WalletBalances.xlm,
      ite_self]
  | USDC =>
    simp only [WalletBalances.of, BalanceLine.Coded, PayAsset.decimals,
      apply_ite WalletBalances.usdc, ite_self]

lemma lastCoded_concat (asset : PayAsset) (lines : List BalanceLine) (line : BalanceLine) :
    lastCoded asset (some (lines ++ [line])) =
      if line.Coded asset then Double.fixed (Double.round line.balance) asset.decimals
      else lastCoded asset (some lines) := by
  simp only [lastCoded, Option.getD_some, List.reverse_append, List.reverse_singleton,
    List.singleton_append, List.find?_cons]
  split_ifs with h <;> simp [h]

lemma toNumber_zero : Decimal.toNumber ['0'] = some (.finite 0) := by
  have hread := Decimal.toNumber_toFixed 0 0
  have hrounded := Decimal.rounded_intCast 0 0
  have hunits : Decimal.units 0 0 = 0 := by norm_num [Decimal.units]
  have htext : Decimal.toFixed 0 0 = ['0'] := by
    rw [Decimal.toFixed, if_neg (lt_irrefl 0), hunits]
    rfl
  norm_num at hrounded
  rwa [hrounded, htext] at hread

lemma shows_zero (asset : PayAsset) : Shows asset (some { xlm := ['0'], usdc := ['0'] }) 0 := by
  cases asset <;> exact ⟨le_rfl, toNumber_zero⟩

/-- The page shows the balance in the last line with the code of the asset, rounded. -/
lemma shows_getWalletBalances (asset : PayAsset) (account : Option (List BalanceLine)) :
    Shows asset (some (getWalletBalances account)) (lastCoded asset account) := by
  cases account with
  | none => exact shows_zero asset
  | some lines =>
    induction lines using List.reverseRecOn with
    | nil => exact shows_zero asset
    | append_singleton lines line ih =>
      have hnonneg := Double.round_nonneg line.balance_nonneg
      rw [Shows, getWalletBalances_concat, lastCoded_concat]
      split_ifs
      · rw [line.ofRat_balance]
        exact ⟨Double.fixed_nonneg hnonneg _, Double.toNumber_toFixed hnonneg _⟩
      · exact ih

lemma read_availableBalance (h : Shows asset balances s) :
    Numeric.read (PayPage.availableBalance ⟨.QUOTE, asset, some quote, balances⟩) =
      some (Double.ofRat s) := by
  obtain ⟨-, hshown⟩ := h
  cases balances with
  | none =>
    obtain rfl : s = 0 := hshown
    have hzero : Double.ofRat 0 = .finite 0 := by
      rw [Double.ofRat_of_lt (by rw [Double.round_zero, abs_zero]; positivity), Double.round_zero]
    rw [hzero]
    rfl
  | some balances => cases asset <;> exact read_text hshown

/-- The text of the amount of USDC has all its decimals. -/
lemma read_requiredAmount (h : ∃ k : ℤ, quote.usdcAmount = k / 10 ^ 18) :
    Numeric.read (PayPage.requiredAmount ⟨.QUOTE, asset, some quote, balances⟩) =
      some (Double.ofRat quote.usdcAmount) := by
  obtain ⟨k, hk⟩ := h
  have hread := Decimal.toNumber_toFixed quote.usdcAmount 18
  have hrounded : Decimal.rounded quote.usdcAmount 18 = quote.usdcAmount := by
    rw [hk]
    exact Decimal.rounded_intCast k 18
  rw [hrounded] at hread
  exact read_text hread

lemma covers_shown_iff (h : ∃ k : ℤ, quote.usdcAmount = k / 10 ^ 18)
    (hshows : Shows asset balances s) :
    Covers ⟨.QUOTE, asset, some quote, balances⟩ b quote.amountInCrypto ↔
      Fits quote.usdcAmount s quote.amountInCrypto b :=
  covers_iff_fits rfl hshows.1 (read_requiredAmount h) (read_availableBalance hshows)

/-! ### What the service quotes -/

/-- `(amountInr / rate).toFixed(18)`, where `amountInr` is `Number(amountInPaise) / 100`. -/
def amountInCrypto (amountInPaise : ℤ) (rate : ℚ) : ℚ :=
  Double.fixed (Double.round (Double.round (Double.round amountInPaise / 100) / rate)) 18

/-- The quotes are computed with doubles. -/
def inDoubles (js : Api.Js) : Api.Js := { js with amountInCrypto }

variable {js : Api.Js} {a : ℤ} {other : Backend → Backend → Prop} {d d' : Backend}
  {tr : List (Async.Attempt Backend Request Request.Res String)}

/-- A quote has its decimals, and one amount where the asset is USDC. -/
lemma decimals_of_createQuote (h : Async.Executes Returns Total other
    (Api.Transactions.createQuote (inDoubles js) asset.assetCode a) d tr (.ok quote) d') :
    (∃ k : ℤ, quote.usdcAmount = k / 10 ^ 18) ∧
      (asset = .USDC → quote.amountInCrypto = quote.usdcAmount) := by
  obtain ⟨rates, hamount, husdc, -⟩ := Api.Amounts.quote_of_createQuote h
  constructor
  · rw [husdc]
    exact Double.exists_fixed_eq _ 18
  · rintro rfl
    rw [hamount, husdc]
    rfl

namespace QuotesAndAccounts

def usdcLine (issuer : String) (stroops : ℕ) (upper : stroops < 2 ^ 63) : BalanceLine where
  assetType := .credit_alphanum4
  assetCode := some "USDC"
  assetIssuer := some issuer
  stroops := stroops
  upper := upper

def xlmLine (stroops : ℕ) (upper : stroops < 2 ^ 63) : BalanceLine where
  assetType := .native
  assetCode := none
  assetIssuer := none
  stroops := stroops
  upper := upper

/-- The request for a quote, by the rates of XLM and of USDC in rupees. -/
def quoted (xlm usdc : ℚ) (asset : PayAsset) (a : ℤ) :
    List (Async.Attempt Backend Request Request.Res String) × Except String Quote × Backend :=
  (Api.Transactions.createQuote (inDoubles Api.OneOrder.js) asset.assetCode a).play
    (Api.Amounts.BitcoinOrder.serve
      { Api.OneOrder.oracle with rates := fun asset => if asset = .XLM then xlm else usdc })
    Api.OneOrder.opened.state

/-- The amounts that the page looks at. -/
def amounts (xlm usdc : ℚ) (asset : PayAsset) (a : ℤ) : Option (ℚ × ℚ) :=
  (quoted xlm usdc asset a).2.1.toOption.map fun quote => (quote.amountInCrypto, quote.usdcAmount)

/-- The quote is one that the service gives. -/
def Given (xlm usdc : ℚ) (asset : PayAsset) (a : ℤ) (quote : Quote) : Prop :=
  Async.Executes Returns Total (fun d d' => d = d')
    (Api.Transactions.createQuote (inDoubles Api.OneOrder.js) asset.assetCode a)
    Api.OneOrder.opened.state (quoted xlm usdc asset a).1 (.ok quote) (quoted xlm usdc asset a).2.2

lemma exists_quote {xlm usdc : ℚ} (h : amounts xlm usdc asset a = some (x, u)) :
    ∃ quote, Given xlm usdc asset a quote ∧ quote.amountInCrypto = x ∧ quote.usdcAmount = u := by
  obtain ⟨quote, hplayed, heq⟩ := Async.exists_ok_of_toOption h
  obtain ⟨rfl, rfl⟩ := Prod.mk.inj heq
  refine ⟨quote, ?_, rfl, rfl⟩
  rw [Given, ← hplayed]
  exact Async.executes_play _ _ _ (Api.Amounts.BitcoinOrder.serve_goes _) fun _ => rfl

/-- Three and a half USDC, and fifty XLM. -/
def holdings : List BalanceLine :=
  [usdcLine (usdcIssuer none) 35000000 (by decide), xlmLine 500000000 (by decide)]

/-- One USDC and ten cents. -/
def small : List BalanceLine := [usdcLine (usdcIssuer none) 11000000 (by decide)]

/-- Twenty USDC of another issuer, after the three and a half. -/
def foreign : List BalanceLine :=
  holdings ++
    [usdcLine "GA6MPSEDZWDYVFN2CLITDXSM2WI545AQATWRPJAA4QKBJKHSLUI5JAE6" 200000000 (by decide)]

/-- The page covers the balance of the account. -/
def CoversAccount (asset : PayAsset) (quote : Quote) (lines : List BalanceLine) : Prop :=
  Covers ⟨.QUOTE, asset, some quote, some (getWalletBalances (some lines))⟩
    (onChain (usdcIssuer none) asset (some lines)) quote.amountInCrypto

/-- Whether it does is computed. -/
lemma coversAccount_iff (h : ∃ k : ℤ, quote.usdcAmount = k / 10 ^ 18)
    (hx : quote.amountInCrypto = x) (hu : quote.usdcAmount = u) :
    CoversAccount asset quote lines ↔
      Fits u (lastCoded asset (some lines)) x (onChain (usdcIssuer none) asset (some lines)) := by
  rw [CoversAccount, covers_shown_iff h (shows_getWalletBalances asset (some lines)), hx, hu]

/-- An account for which a quote falls short. -/
lemma exists_not_covers {xlm usdc : ℚ} (hamounts : amounts xlm usdc asset a = some (x, u))
    (h : ¬Fits u (lastCoded asset (some lines)) x (onChain (usdcIssuer none) asset (some lines))) :
    ∃ quote, Given xlm usdc asset a quote ∧ ¬CoversAccount asset quote lines := by
  obtain ⟨quote, hgiven, hx, hu⟩ := exists_quote hamounts
  refine ⟨quote, hgiven, fun hcovers => h ?_⟩
  exact (coversAccount_iff (decimals_of_createQuote hgiven).1 hx hu).mp hcovers

lemma amounts_usdc : amounts 9 83 .USDC 83000 = some (10, 10) := by decide +kernel

/-- Ninety-two XLM, which are ten USDC. -/
lemma amounts_xlm : amounts 9 83 .XLM 83000 = some (92222222222222228538 / 10 ^ 18, 10) := by
  decide +kernel

/-- A fraction of a cent. -/
lemma amounts_fraction : amounts 9 83 .USDC 83033 =
    some (10003975903614458431 / 10 ^ 18, 10003975903614458431 / 10 ^ 18) := by
  decide +kernel

lemma amounts_half_cent : amounts 9 80 .USDC 11000 = some (11 / 8, 11 / 8) := by decide +kernel

end QuotesAndAccounts

open QuotesAndAccounts

end PayEra.Web
