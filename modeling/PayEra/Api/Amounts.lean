import Mathlib.Data.Rat.Floor
import PayEra.Api.Playback
import PayEra.Lib.Execution
import PayEra.PaymentEngine.Effects
import PayEra.RewardEngine.Effects

/-!
# The amounts of a payment

What the services compute from the amount of a payment, and what the contracts make of it: the
reward, which `calculate_spend_reward` computes once more, and the amounts of the quote, which
`quote_payment` checks.
-/

namespace PayEra.Api.Amounts

open Soroban
open Async.Program

/-! ### The reward -/

/-- The engine computes the reward that the service promises. -/
def RewardAgrees (amountInPaise : I128) : Prop :=
  ∀ (env : Env) (s : RewardEngine.Storage), ∃ star : I128,
    (RewardEngine.calculateSpendReward amountInPaise).run env s = .ok (star, s) ∧
    star.val = calculateSpendRewardStar amountInPaise.val

/-- The reward is at most a thousandth of the amount, so that it has the amount's range. -/
lemma rewardAgrees {a : I128} (h : 0 < a.val) : RewardAgrees a := by
  intro env s
  have hstar := calculateSpendRewardStar_of_nonneg h.le
  have hupper := a.upper
  refine ⟨⟨calculateSpendRewardStar a.val, by omega, by omega⟩, ?_, rfl⟩
  exact RewardEngine.run_calculateSpendReward.mpr ⟨h, rfl, rfl⟩

/-- Two remainders make up for at most one more unit. -/
lemma calculateSpendRewardStar_add {a b : ℤ} (ha : 0 < a) (hb : 0 < b) :
    calculateSpendRewardStar a + calculateSpendRewardStar b ≤ calculateSpendRewardStar (a + b) ∧
    calculateSpendRewardStar (a + b) ≤
      calculateSpendRewardStar a + calculateSpendRewardStar b + STAR_PER_100_INR := by
  rw [calculateSpendRewardStar_of_nonneg ha.le, calculateSpendRewardStar_of_nonneg hb.le,
    calculateSpendRewardStar_of_nonneg (Int.add_pos ha hb).le, STAR_PER_100_INR]
  constructor <;> omega

/-- The two formulas agree on every amount, a larger amount earns no less, and a payment in two
parts earns no more, and less by at most the reward for a hundred rupees. -/
theorem reward_formula :
    (∀ a : I128, 0 < a.val → RewardAgrees a) ∧
    (∀ a b : ℤ, a ≤ b → calculateSpendRewardStar a ≤ calculateSpendRewardStar b) ∧
    ∀ a b : ℤ, 0 < a → 0 < b →
      calculateSpendRewardStar a + calculateSpendRewardStar b ≤ calculateSpendRewardStar (a + b) ∧
      calculateSpendRewardStar (a + b) ≤
        calculateSpendRewardStar a + calculateSpendRewardStar b + STAR_PER_100_INR :=
  ⟨fun _ => rewardAgrees, fun _ _ => calculateSpendRewardStar_mono, fun _ _ => calculateSpendRewardStar_add⟩

/-! ### The quote -/

/-- `Math.round` -/
def mathRound (x : ℚ) : ℤ := ⌊x + 1 / 2⌋

/-- `BigInt(Math.round((Number(amountInPaise) / 100) / rate * units))`. By a rate of zero this is
not an integer. -/
def unitsAt (amountInPaise : ℤ) (rate units : ℚ) : Except String ℤ :=
  if rate = 0 then .error "The number cannot be converted to a BigInt"
  else .ok (mathRound ((amountInPaise : ℚ) / 100 / rate * units))

/-- `toFixed(18)` -/
def toFixed (x : ℚ) : ℚ := (mathRound (x * 10 ^ 18) : ℚ) / 10 ^ 18

/-- Numbers are rationals, and nothing is rounded but where the code says so. `Number(null)` is
zero. -/
def rational (js : Js) : Js :=
  { js with
    usdcUnits := fun amountInPaise rate => unitsAt amountInPaise rate 1000000
    assetUnits := fun amountInPaise rate => unitsAt amountInPaise (rate.getD 0) 10000000
    amountInCrypto := fun amountInPaise rate => toFixed ((amountInPaise : ℚ) / 100 / rate)
    toFixed }

/-- What step 2 sends, by the rate of USDC. -/
def quoteParams (js : Js) (tx : Transaction) (usdcRate : ℚ) : Except String QuotePayment := do
  let usdcAmount ← js.usdcUnits tx.amountInPaise usdcRate
  let assetAmount ← js.assetUnits tx.amountInPaise tx.quoteRateInrPerAsset
  pure { paymentId := tx.id, assetAmount, usdcAmount, networkFeePaise := 0 }

/-- Step 2 is what it sends, and the writes around it. -/
lemma quote_eq (js : Js) (tx : Transaction) :
    Processor.quote js tx = (do
      Processor.updateStatus tx.id .QUOTED none
      let usdcRate ← Processor.getUsdcRate tx.id
      let p ← Async.Program.done (quoteParams js tx usdcRate)
      let _ ← call (.run tx.id) (.quotePayment p)
      Processor.updateStatus tx.id .CONVERTING none) := by
  simp only [Processor.quote]
  congr 1
  funext _
  congr 1
  funext usdcRate
  simp only [quoteParams]
  cases js.usdcUnits tx.amountInPaise usdcRate with
  | error e => rfl
  | ok usdcAmount =>
    cases js.assetUnits tx.amountInPaise tx.quoteRateInrPerAsset with
    | error e => rfl
    | ok assetAmount => rfl

/-- `create` wrote the row, and did not throw. -/
def Accepted (js : Js) (owner : Principal) (dto : CreateTransactionDto) (row : Transaction) :
    Prop :=
  ∃ other b tr result b', result.row = row ∧
    Async.Executes Returns Total other (Transactions.createResult js owner dto) b tr (.ok result) b'

/-- `quote_payment` can fail with `InvalidAmount` on these amounts. -/
def Refused (p : QuotePayment) : Prop :=
  ∃ (env : Env) (s : PaymentEngine.Storage) (operator : Address) (paymentId : Bytes32)
    (assetAmount usdcAmount networkFeePaise : I128),
    assetAmount.val = p.assetAmount ∧ usdcAmount.val = p.usdcAmount ∧
    networkFeePaise.val = p.networkFeePaise ∧
    (PaymentEngine.quotePayment operator paymentId assetAmount usdcAmount networkFeePaise).run env s
      = .error (.err .invalidAmount)

/-- The processor computes amounts for the transaction, and the engine takes them. -/
def Quotable (js : Js) (tx : Transaction) (usdcRate : ℚ) : Prop :=
  ∃ p, quoteParams js tx usdcRate = .ok p ∧
    (0 < p.assetAmount ∧ 0 < p.usdcAmount ∧ 0 ≤ p.networkFeePaise) ∧ ¬Refused p

variable {js : Js} {owner : Principal} {dto : CreateTransactionDto} {row tx : Transaction}
  {b b' : Backend} {other : Backend → Backend → Prop} {p : QuotePayment} {usdcRate : ℚ}

/-- A quote is computed from the rates of its asset and of USDC. -/
lemma quote_of_createQuote {asset : AssetCode} {a : ℤ} {q : Transactions.Quote}
    {tr : List (Async.Attempt Backend Request Request.Res String)}
    (h : Async.Executes Returns Total other (Transactions.createQuote js asset a) b tr (.ok q) b') :
    ∃ rates : AssetCode → ℚ, q.amountInCrypto = js.amountInCrypto a (rates asset) ∧
      q.usdcAmount = js.amountInCrypto a (rates .USDC) ∧
      q.quoteRateInrPerAsset = js.toFixed (rates asset) := by
  rw [Transactions.createQuote] at h
  split_ifs at h with hinr
  · obtain ⟨-, heq, -⟩ := h.of_done
    cases heq
  · obtain ⟨rates, _, _, _, -, -, hrest⟩ := h.of_bind_ok
    obtain ⟨now, _, _, _, -, -, hq⟩ := hrest.of_bind_ok
    obtain ⟨-, heq, -⟩ := hq.of_done
    cases heq
    exact ⟨rates, rfl, rfl, rfl⟩

/-- An order that is accepted has a reward, and so it is for a hundred rupees at least. -/
lemma row_of_accepted (h : Accepted js owner dto row) :
    10000 ≤ row.amountInPaise ∧ ∃ rate, row.quoteRateInrPerAsset = some (js.toFixed rate) := by
  obtain ⟨other, b, tr, result, b', rfl, h⟩ := h
  rw [Transactions.createResult] at h
  obtain ⟨⟨merchantUpiVpa, qrCode⟩, _, _, _, -, -, h₁⟩ := h.of_bind_ok
  obtain ⟨quote, _, _, _, -, hquote, h₂⟩ := h₁.of_bind_ok
  obtain ⟨id, _, _, _, -, -, h₃⟩ := h₂.of_bind_ok
  obtain ⟨publicId, _, _, _, -, -, h₄⟩ := h₃.of_bind_ok
  obtain ⟨settlementId, _, _, _, -, -, h₅⟩ := h₄.of_bind_ok
  obtain ⟨-, _, _, _, -, -, h₆⟩ := h₅.of_bind_ok
  obtain ⟨-, _, _, _, -, -, h₇⟩ := h₆.of_bind_ok
  obtain ⟨rewardId, _, _, _, -, -, h₈⟩ := h₇.of_bind_ok
  obtain ⟨reward, _, _, _, -, hreward, hresult⟩ := h₈.of_bind_ok
  obtain ⟨-, heq, -⟩ := hresult.of_done
  obtain rfl := Except.ok.inj heq
  obtain ⟨took, _, -, ⟨-, o, hanswer⟩, -⟩ := hreward.of_perform
  refine ⟨?_, ?_⟩
  · simp only [Backend.answer] at hanswer
    split_ifs at hanswer with hpos
    exact calculateSpendRewardStar_pos_iff.mp hpos
  · obtain ⟨rates, -, -, hrate⟩ := quote_of_createQuote hquote
    exact ⟨rates dto.assetIn, congrArg some hrate⟩

/-! ### What the engine makes of it -/

lemma requireOperator_ne_invalidAmount {env : Env} {s : PaymentEngine.Storage}
    {operator : Address} :
    (PaymentEngine.requireOperator operator).run env s ≠ .error (.err .invalidAmount) := by
  simp [PaymentEngine.requireOperator, PaymentEngine.requireNotPaused,
    PaymentEngine.requireInitialized]

/-- The engine looks at the amounts once the operator has passed. -/
lemma quotePayment_invalidAmount {env : Env} {s : PaymentEngine.Storage} {operator : Address}
    {paymentId : Bytes32} {assetAmount usdcAmount networkFeePaise : I128} :
    (PaymentEngine.quotePayment operator paymentId assetAmount usdcAmount networkFeePaise).run env s
        = .error (.err .invalidAmount) ↔
      PaymentEngine.Operates env s operator ∧
      (assetAmount.val ≤ 0 ∨ usdcAmount.val ≤ 0 ∨ networkFeePaise.val < 0) := by
  simp [PaymentEngine.quotePayment, requireOperator_ne_invalidAmount, PaymentEngine.readPayment,
    PaymentEngine.requireStatus, PaymentEngine.touchAndWrite, PaymentEngine.writePayment,
    PaymentEngine.publish]

lemma not_refused {p : QuotePayment}
    (h : 0 < p.assetAmount ∧ 0 < p.usdcAmount ∧ 0 ≤ p.networkFeePaise) : ¬Refused p := by
  rintro ⟨env, s, operator, paymentId, x, y, z, hx, hy, hz, hrun⟩
  obtain ⟨-, hbad⟩ := quotePayment_invalidAmount.mp hrun
  omega

lemma mathRound_pos {x : ℚ} : 0 < mathRound x ↔ 1 / 2 ≤ x := by
  rw [mathRound, Int.floor_pos]
  constructor
  · intro h
    linarith
  · intro h
    linarith

/-- Half a unit has to be worth the amount at least. -/
lemma unitsAt_pos {a : ℤ} {rate units : ℚ} (ha : 0 < a) (hunits : 0 < units) :
    (∃ n, unitsAt a rate units = .ok n ∧ 0 < n) ↔ 0 < rate ∧ rate ≤ units / 50 * a := by
  have ha' : (0 : ℚ) < a := Int.cast_pos.mpr ha
  rcases lt_trichotomy rate 0 with hneg | rfl | hpos
  · have hle : (a : ℚ) / 100 / rate * units ≤ 0 :=
      mul_nonpos_of_nonpos_of_nonneg
        (div_nonpos_of_nonneg_of_nonpos (by positivity) hneg.le) hunits.le
    rw [unitsAt, if_neg hneg.ne]
    constructor
    · rintro ⟨n, heq, hn⟩
      obtain rfl := Except.ok.inj heq
      have hhalf := mathRound_pos.mp hn
      linarith
    · rintro ⟨hpos, -⟩
      exact absurd hpos hneg.not_gt
  · constructor
    · rintro ⟨n, hn, -⟩
      rw [unitsAt, if_pos rfl] at hn
      cases hn
    · rintro ⟨hpos, -⟩
      exact absurd hpos (lt_irrefl 0)
  · have hiff : 1 / 2 ≤ (a : ℚ) / 100 / rate * units ↔ rate ≤ units / 50 * a := by
      rw [div_div, div_mul_eq_mul_div, le_div_iff₀ (by positivity)]
      constructor
      · intro h
        linarith
      · intro h
        linarith
    rw [unitsAt, if_neg hpos.ne']
    constructor
    · rintro ⟨n, heq, hn⟩
      obtain rfl := Except.ok.inj heq
      exact ⟨hpos, hiff.mp (mathRound_pos.mp hn)⟩
    · rintro ⟨-, hle⟩
      exact ⟨_, rfl, mathRound_pos.mpr (hiff.mpr hle)⟩

lemma quoteParams_eq_ok : quoteParams js tx usdcRate = .ok p ↔ ∃ usdcAmount assetAmount,
    js.usdcUnits tx.amountInPaise usdcRate = .ok usdcAmount ∧
    js.assetUnits tx.amountInPaise tx.quoteRateInrPerAsset = .ok assetAmount ∧
    p = { paymentId := tx.id, assetAmount, usdcAmount, networkFeePaise := 0 } := by
  rw [quoteParams]
  cases js.usdcUnits tx.amountInPaise usdcRate with
  | error e =>
    constructor
    · intro h
      cases h
    · rintro ⟨_, _, hu, -⟩
      cases hu
  | ok usdcAmount =>
    cases js.assetUnits tx.amountInPaise tx.quoteRateInrPerAsset with
    | error e =>
      constructor
      · intro h
        cases h
      · rintro ⟨_, _, -, ha, -⟩
        cases ha
    | ok assetAmount =>
      constructor
      · intro h
        exact ⟨_, _, rfl, rfl, (Except.ok.inj h).symm⟩
      · rintro ⟨_, _, hu, ha, rfl⟩
        cases hu
        cases ha
        rfl

/-- The fee is zero, and so it is for the two amounts to be positive. -/
lemma quotable_iff_units : Quotable js tx usdcRate ↔
    (∃ n, js.assetUnits tx.amountInPaise tx.quoteRateInrPerAsset = .ok n ∧ 0 < n) ∧
    ∃ n, js.usdcUnits tx.amountInPaise usdcRate = .ok n ∧ 0 < n := by
  constructor
  · rintro ⟨p, hp, ⟨hasset, husdc, -⟩, -⟩
    obtain ⟨usdcAmount, assetAmount, hu, ha, rfl⟩ := quoteParams_eq_ok.mp hp
    exact ⟨⟨_, ha, hasset⟩, _, hu, husdc⟩
  · rintro ⟨⟨assetAmount, ha, hasset⟩, usdcAmount, hu, husdc⟩
    exact ⟨_, quoteParams_eq_ok.mpr ⟨_, _, hu, ha, rfl⟩, ⟨hasset, husdc, le_rfl⟩,
      not_refused ⟨hasset, husdc, le_rfl⟩⟩

/-- An accepted order can be quoted if and only if half a unit of its asset, which has seven
decimals, and half a unit of USDC, which has six, are each worth no more than the order. -/
theorem quotable_iff (h : Accepted (rational js) owner dto row) :
    Quotable (rational js) row usdcRate ↔
      (∃ rate, row.quoteRateInrPerAsset = some rate ∧
        0 < rate ∧ rate ≤ 200000 * row.amountInPaise) ∧
      0 < usdcRate ∧ usdcRate ≤ 20000 * row.amountInPaise := by
  obtain ⟨hamount, rate, hrate⟩ := row_of_accepted h
  have hpos : 0 < row.amountInPaise := by omega
  have hasset : (∃ n, (rational js).assetUnits row.amountInPaise row.quoteRateInrPerAsset = .ok n ∧
      0 < n) ↔ 0 < toFixed rate ∧ toFixed rate ≤ 10000000 / 50 * row.amountInPaise := by
    rw [hrate]
    exact unitsAt_pos hpos (by norm_num)
  have husdc : (∃ n, (rational js).usdcUnits row.amountInPaise usdcRate = .ok n ∧ 0 < n) ↔
      0 < usdcRate ∧ usdcRate ≤ 1000000 / 50 * row.amountInPaise :=
    unitsAt_pos hpos (by norm_num)
  norm_num at hasset husdc
  rw [quotable_iff_units, hasset, husdc, hrate]
  simp only [Option.some.injEq, exists_eq_left']
  rfl

namespace BitcoinOrder

/-- A request that is answered. -/
def serve (o : Oracle) (c : Request) (b : Backend) : Except String c.Res × Bool × Backend :=
  match Backend.answer { o with uuid := fresh b.uuids } c.op b with
  | some (v, b') => (.ok v, true, b')
  | none => (.error "refused", false, b)

lemma serve_goes (o : Oracle) (c : Request) (b : Backend) : Async.Attempt.Goes Returns Total
    ⟨c, (serve o c b).1, (serve o c b).2.1, b, (serve o c b).2.2⟩ := by
  rw [serve]
  cases hanswer : Backend.answer { o with uuid := fresh b.uuids } c.op b with
  | none =>
    refine ⟨fun htotal => ?_, .inl ⟨rfl, rfl⟩⟩
    obtain ⟨v, b', hv⟩ := htotal.answered o b
    rw [hanswer] at hv
    cases hv
  | some vb => exact ⟨rfl, _, hanswer⟩

/-- A hundred rupees in bitcoin. -/
def order : CreateTransactionDto := { OneOrder.order with assetIn := .BTC }

/-- The request for the order, by the rate of bitcoin. -/
def ordered (rate : ℚ) : List (Async.Attempt Backend Request Request.Res String) ×
    Except String NewTransaction × Backend :=
  (Transactions.createResult (rational OneOrder.js) OneOrder.customer order).play
    (serve { OneOrder.oracle with rates := fun asset => if asset = .BTC then rate else 83 })
    OneOrder.opened.state

lemma accepted {rate : ℚ} {result : NewTransaction} (h : (ordered rate).2.1 = .ok result) :
    Accepted (rational OneOrder.js) OneOrder.customer order result.row := by
  refine ⟨fun b b' => b = b', OneOrder.opened.state, (ordered rate).1, result, (ordered rate).2.2, rfl, ?_⟩
  rw [← h]
  exact Async.executes_play _ _ _ (serve_goes _) fun _ => rfl

/-- The columns of the row that the quote is computed from. -/
def columns (rate : ℚ) : Option (ℤ × Option ℚ) :=
  (ordered rate).2.1.toOption.map fun result =>
    (result.row.amountInPaise, result.row.quoteRateInrPerAsset)

lemma exists_row {rate : ℚ} {amount : ℤ} {q : Option ℚ} (h : columns rate = some (amount, q)) :
    ∃ row, Accepted (rational OneOrder.js) OneOrder.customer order row ∧ row.amountInPaise = amount ∧
      row.quoteRateInrPerAsset = q := by
  obtain ⟨result, hplayed, heq⟩ := Async.exists_ok_of_toOption h
  obtain ⟨rfl, rfl⟩ := Prod.mk.inj heq
  exact ⟨_, accepted hplayed, rfl, rfl⟩

lemma columns_dear : columns 3000000000 = some (10000, some 3000000000) := by decide +kernel

lemma columns_static : columns 9000000 = some (10000, some 9000000) := by decide +kernel

/-- An engine at work, and a call signed by everybody. -/
def engine : PaymentEngine.Storage := { initialized := some true, operator := fun _ => some true }

def env : Env := { ledger := 1, signed := fun _ => true, invoker := none, self := ⟨3⟩ }

lemma operates (operator : Address) : PaymentEngine.Operates env engine operator :=
  ⟨⟨rfl, rfl⟩, rfl, rfl⟩

end BitcoinOrder

/-- At nine million rupees a bitcoin, an order of a hundred rupees can be quoted. -/
theorem quotable_of_order : ∃ row,
    Accepted (rational OneOrder.js) OneOrder.customer BitcoinOrder.order row ∧
    Quotable (rational OneOrder.js) row 83 := by
  obtain ⟨row, haccepted, hamount, hrate⟩ := BitcoinOrder.exists_row BitcoinOrder.columns_static
  refine ⟨row, haccepted, (quotable_iff haccepted).mpr ⟨⟨_, hrate, ?_, ?_⟩, ?_, ?_⟩⟩
  all_goals norm_num [hamount]

/-- At three thousand million, what a hundred rupees buy is rounded to no unit at all. An order
of less is refused with its reward, which is nothing, so the rate has to be above two thousand million. -/
theorem dear_order_refused : ∃ row rate p,
    Accepted (rational OneOrder.js) OneOrder.customer BitcoinOrder.order row ∧
    row.quoteRateInrPerAsset = some rate ∧ 0 < rate ∧ 0 < row.amountInPaise ∧
    quoteParams (rational OneOrder.js) row 83 = .ok p ∧ p.assetAmount = 0 ∧ Refused p ∧
    ¬Quotable (rational OneOrder.js) row 83 := by
  obtain ⟨row, haccepted, hamount, hrate⟩ := BitcoinOrder.exists_row BitcoinOrder.columns_dear
  have husdc : (rational OneOrder.js).usdcUnits row.amountInPaise 83 = .ok 1204819 := by
    rw [hamount]
    decide +kernel
  have hasset : (rational OneOrder.js).assetUnits row.amountInPaise row.quoteRateInrPerAsset = .ok 0 := by
    rw [hamount, hrate]
    decide +kernel
  have hp := quoteParams_eq_ok.mpr ⟨_, _, husdc, hasset, rfl⟩
  have hrefused : Refused { paymentId := row.id, assetAmount := 0, usdcAmount := 1204819
                            networkFeePaise := 0 } :=
    ⟨BitcoinOrder.env, BitcoinOrder.engine, ⟨1⟩, .fill 0, 0, ⟨1204819, by decide, by decide⟩, 0, rfl, rfl, rfl,
      quotePayment_invalidAmount.mpr ⟨BitcoinOrder.operates _, .inl le_rfl⟩⟩
  refine ⟨row, _, _, haccepted, hrate, by norm_num, by omega, hp, rfl, hrefused, ?_⟩
  rintro ⟨p, hp', -, hnot⟩
  rw [hp] at hp'
  obtain rfl := Except.ok.inj hp'
  exact hnot hrefused

end PayEra.Api.Amounts
