import PayEra.StarToken.Allowances

/-!
# The burn of a fee

What `burn_fee` takes on an amount, when it fails, and what splitting the amount is worth. The rate
only comes from `set_fee_burn_config`, so a fee is never more than the amount it is taken on, and
the balances behind the supply leave no room for an underflow of the supply.
-/

namespace PayEra.StarToken

open Soroban Soroban.Call

/-! ### The fee -/

/-- The basis points in force: none while the burning is disabled. -/
def Storage.feeRate (s : Storage) : ℤ :=
  match s.feeBurnConfig with
  | some config => if config.enabled then config.feeBasisPoints.toNat else 0
  | none => 0

/-- The fee on an amount, rounded down. -/
def Storage.fee (s : Storage) (amount : ℤ) : ℤ := amount * s.feeRate / 10000

/-- Exactly the fee is burned from an account. -/
structure FeeTaken (s : Storage) (a : Address) (fee : ℤ) (t : Storage) : Prop where
  balance : ∀ x, (t.readBalance x).val = (s.readBalance x).val - if x = a then fee else 0
  supply : t.readTotalSupply.val = s.readTotalSupply.val - fee
  rest : t = { s with balance := t.balance, totalSupply := t.totalSupply, events := t.events }
  unchanged : fee = 0 → t = s

/-- What a call of `burn_fee` burns: nothing if it fails. -/
def burnedBy (env : Env) (s : Storage) (a : Address) (amount : I128) : ℤ :=
  match (burnFee a amount).run env s with
  | .ok (fee, _) => fee.val
  | .error _ => 0

/-- The arithmetic of `burn_fee` on an amount, for an account that authorized the call. -/
structure FeeBurn (env : Env) (s : Storage) (a : Address) (amount : I128) : Prop where
  /-- With the burning disabled, or at rate zero, the fee is zero. -/
  fee : ∀ fee t, (burnFee a amount).run env s = .ok (fee, t) →
    fee.val = s.fee amount.val ∧ 0 ≤ fee.val ∧ fee.val ≤ amount.val ∧ FeeTaken s a fee.val t
  returns : s.isPaused = false → 0 < amount.val → amount.val * s.feeRate < 2 ^ 127 →
    (0 < s.fee amount.val →
      s.isAuthorized a = true ∧ s.fee amount.val ≤ (s.readBalance a).val) →
    ∃ fee t, (burnFee a amount).run env s = .ok (fee, t)
  invalidAmount : (burnFee a amount).run env s = .error (.err .invalidAmount) →
    amount.val ≤ 0 ∨ 2 ^ 127 ≤ amount.val * s.feeRate
  fails : ∀ e, (burnFee a amount).run env s = .error e → s.isPaused = false → 0 < amount.val →
    e ≠ .err .invalidAmount → 0 < s.fee amount.val ∧
      (s.isAuthorized a = false ∨ (s.readBalance a).val < s.fee amount.val)
  unchanged : ∀ e, (burnFee a amount).run env s = .error e → (burnFee a amount).commit env s = s

/-- Splitting an amount into two calls burns no more than one call. -/
structure NoGainBySplitting (env env' : Env) (s : Storage) (a : Address) (x y : I128) : Prop where
  fees : ∀ fx u fy t, (burnFee a x).run env s = .ok (fx, u) →
    (burnFee a y).run env' u = .ok (fy, t) → fx.val + fy.val ≤ s.fee (x.val + y.val)
  /-- Also where one of the two calls fails. -/
  burned : ∀ z fz v, 0 < x.val → 0 < y.val → z.val = x.val + y.val →
    (burnFee a z).run env s = .ok (fz, v) →
    burnedBy env s a x + burnedBy env' ((burnFee a x).commit env s) a y ≤ fz.val

variable {env : Env} {s t : Storage} {a : Address} {n : I128}

/-! ### The rate -/

/-- The configuration was checked when it was set. -/
def Storage.RateBounded (s : Storage) : Prop := 0 ≤ s.feeRate ∧ s.feeRate ≤ 10000

lemma feeRate_of_config (h : t.feeBurnConfig = s.feeBurnConfig) : t.feeRate = s.feeRate := by
  rw [Storage.feeRate, Storage.feeRate, h]

lemma rateBounded_of_set {enabled : Bool} {bps : UInt32} {recipient : Address}
    (hbps : bps ≤ 10000) (h : t.feeBurnConfig = some ⟨enabled, bps, recipient⟩) :
    t.RateBounded := by
  have hle : bps.toNat ≤ 10000 := UInt32.le_iff_toNat_le.mp hbps
  rw [Storage.RateBounded, Storage.feeRate, h]
  dsimp only
  split_ifs <;> omega

lemma fee_nonneg (hs : s.RateBounded) (hn : 0 < n.val) : 0 ≤ s.fee n.val :=
  Int.ediv_nonneg (mul_nonneg hn.le hs.1) (by decide)

/-- A fee is at most what it is taken on. -/
lemma fee_le (hs : s.RateBounded) (hn : 0 < n.val) : s.fee n.val ≤ n.val := by
  have hmul : n.val * s.feeRate ≤ n.val * 10000 := mul_le_mul_of_nonneg_left hs.2 hn.le
  rw [Storage.fee]
  omega

/-- The floors of two shares add up to no more than the floor of the whole. -/
lemma fee_add_le (s : Storage) (x y : ℤ) : s.fee x + s.fee y ≤ s.fee (x + y) := by
  simp only [Storage.fee, add_mul]
  omega

lemma Minted.feeBurnConfig (h : Minted s a n t) : t.feeBurnConfig = s.feeBurnConfig := by
  obtain ⟨md, supply, next, -, -, -, -, rfl⟩ := h.written
  rfl

lemma Burned.feeBurnConfig (h : Burned s a n t) : t.feeBurnConfig = s.feeBurnConfig := by
  obtain ⟨next, supply, -, -, rfl⟩ := h.written
  rfl

lemma Transferred.feeBurnConfig {b : Address} {d : Storage} (h : Transferred s a b n d t) :
    t.feeBurnConfig = s.feeBurnConfig := by
  obtain ⟨next, -, rfl⟩ := h.debit
  obtain ⟨next', -, rfl⟩ := h.credit
  rfl

lemma Spent.feeBurnConfig {b : Address} (h : Spent env s a b n t) :
    t.feeBurnConfig = s.feeBurnConfig := by
  obtain ⟨v, next, -, -, -, -, rfl⟩ := h.written
  rfl

/-- Only `set_fee_burn_config` writes the configuration, and it checks the rate. -/
lemma exec_feeBurnConfig {e : Entry} {u : Unit} (h : (exec e).run env s = .ok (u, t)) :
    t.feeBurnConfig = s.feeBurnConfig ∨
      ∃ enabled bps recipient, bps ≤ 10000 ∧ t.feeBurnConfig = some ⟨enabled, bps, recipient⟩ := by
  by_cases hread : e.isRead = true
  · left
    rw [eq_of_isRead hread h]
  cases e <;> simp only [Entry.isRead, not_true_eq_false] at hread
  case setFeeBurnConfig enabled bps recipient =>
    obtain ⟨-, adm, -, -, hbps, rfl⟩ := run_setFeeBurnConfig.mp h
    exact .inr ⟨enabled, bps, recipient, hbps, rfl⟩
  all_goals left
  case setAdmin newAdmin =>
    obtain ⟨-, adm, -, -, rfl⟩ := run_setAdmin.mp h
    rfl
  case acceptAdmin =>
    obtain ⟨-, pending, old, -, -, -, rfl⟩ := run_acceptAdmin.mp h
    show (s.handOver old pending).feeBurnConfig = s.feeBurnConfig
    unfold Storage.handOver
    split_ifs <;> rfl
  case burnFee b m =>
    obtain ⟨fee, h⟩ := run_void.mp h
    obtain ⟨-, -, -, ⟨-, -, rfl⟩ | ⟨-, -, -, ⟨-, rfl⟩ | ⟨-, r, hr, rfl⟩⟩⟩ := run_burnFee.mp h
    · rfl
    · rfl
    · exact hr.feeBurnConfig
  case pause =>
    obtain ⟨adm, -, -, rfl⟩ := run_pause.mp h
    rfl
  case unpause =>
    obtain ⟨adm, -, -, rfl⟩ := run_unpause.mp h
    rfl
  case setMinter minter enabled =>
    obtain ⟨-, adm, -, -, rfl⟩ := run_setMinter.mp h
    show (if enabled then _ else _ : Storage).feeBurnConfig = _
    split_ifs <;> rfl
  case setAuthorized id authorize =>
    obtain ⟨-, adm, -, -, rfl⟩ := run_setAuthorized.mp h
    rfl
  case mint b m =>
    obtain ⟨-, -, r, hr, rfl⟩ := run_mint.mp h
    exact hr.feeBurnConfig
  case mintFromMinter minter b m =>
    obtain ⟨-, -, -, r, hr, rfl⟩ := run_mintFromMinter.mp h
    exact hr.feeBurnConfig
  case approve f sp m exp =>
    obtain ⟨-, -, -, -, -, -, rfl⟩ := run_approve.mp h
    rfl
  case transfer f b m =>
    obtain ⟨-, -, d, r, hr, rfl⟩ := run_transfer.mp h
    exact hr.feeBurnConfig
  case transferFrom sp f b m =>
    obtain ⟨-, -, q, d, r, hq, hr, rfl⟩ := run_transferFrom.mp h
    exact hr.feeBurnConfig.trans hq.feeBurnConfig
  case burn b m =>
    obtain ⟨-, -, r, hr, rfl⟩ := run_burn.mp h
    exact hr.feeBurnConfig
  case burnFrom sp b m =>
    obtain ⟨-, -, q, r, hq, hr, rfl⟩ := run_burnFrom.mp h
    exact hr.feeBurnConfig.trans hq.feeBurnConfig

/-- What a call needs of the state it runs in. -/
structure Chargeable (s : Storage) : Prop where
  initialized : s.isInitialized = true
  books : Inv s
  rate : s.RateBounded

lemma chargeable_of_reachable {c : OnLedger Storage} (h : system.Reachable c) :
    Chargeable c.state := by
  refine ⟨initialized_of_reachable h, inv_of_reachable h, ?_⟩
  refine contract_invariant (P := Storage.RateBounded) ?_ ?_ h
  · rintro env s ⟨adm, name, symbol, cap, hd⟩
    obtain ⟨-, -, rfl⟩ := run_constructor.mp hd
    exact ⟨le_rfl, show (0 : ℤ) ≤ 10000 by decide⟩
  · intro env e s t hs hok
    rcases exec_feeBurnConfig hok with hsame | ⟨enabled, bps, recipient, hbps, hset⟩
    · rw [Storage.RateBounded, feeRate_of_config hsame]
      exact hs
    · exact rateBounded_of_set hbps hset

/-! ### One call -/

/-- What is left of `burn_fee` once the fee is known. -/
def takeFee (a : Address) (config : FeeBurnConfig) (feeAmount : I128) : Star I128 :=
  if feeAmount = 0 then pure 0 else do
    burnInternal a feeAmount
    publish { action := .burnfee, account := a, counterparty := config.feeRecipient,
              amount := feeAmount, flag := true }
    pure feeAmount

/-- What is left of `burn_fee` once its checks are made. -/
def charge (a : Address) (amount : I128) (config : FeeBurnConfig) : Star I128 :=
  if !config.enabled || config.feeBasisPoints = 0 then pure 0 else do
    let product ← okOr (amount.checkedMul (.ofUInt32 config.feeBasisPoints)) .invalidAmount
    let feeAmount ← expect (product.checkedDiv (.lit 10000 basisPoints_inRange))
    takeFee a config feeAmount

lemma burnFee_of_paused (hinit : s.isInitialized = true) (hp : s.isPaused = true) :
    (burnFee a n).run env s = .error (.err .paused) := by
  have hi : requireInitialized.run env s = .ok ((), s) := run_requireInitialized.mpr ⟨hinit, rfl⟩
  have hpaused : requireNotPaused.run env s = .error (.err .paused) := by
    rw [requireNotPaused, run_bind_of_ok hi, run_bind_of_ok (run_get.mpr ⟨rfl, rfl⟩),
      run_failIf_of hp]
  rw [burnFee, run_bind_of_error hpaused]

lemma burnFee_of_checked (hlive : s.Live) (hn : 0 < n.val) (hauth : env.auth a = true) :
    (burnFee a n).run env s = (charge a n (s.readFeeBurnConfig env.self)).run env s := by
  have hl : requireNotPaused.run env s = .ok ((), s) := run_requireNotPaused.mpr ⟨hlive, rfl⟩
  have hp : (requirePositive n).run env s = .ok ((), s) := run_requirePositive.mpr ⟨hn, rfl⟩
  have ha : (requireAuth a : Star Unit).run env s = .ok ((), s) :=
    run_requireAuth.mpr ⟨hauth, rfl⟩
  rw [burnFee, run_bind_of_ok hl, run_bind_of_ok hp, run_bind_of_ok ha,
    run_bind_of_ok (run_currentContractAddress.mpr ⟨rfl, rfl⟩),
    run_bind_of_ok (run_get.mpr ⟨rfl, rfl⟩)]
  rfl

/-- Where the balance covers a burn, the supply does as well. -/
lemma Burned.exists_of_covered (env : Env) (hs : Inv s) (hn : 0 < n.val)
    (ha : s.isAuthorized a = true) (hle : n.val ≤ (s.readBalance a).val) : ∃ t, Burned s a n t := by
  obtain ⟨next, hnext⟩ := exists_i128 (z := (s.readBalance a).val - n.val) (s.readBalance a)
    (by omega) (by omega)
  have hsub : (subBalance a n).run env s = .ok ((), s.setBalance a next) :=
    run_subBalance.mpr ⟨hle, next, hnext, rfl⟩
  obtain ⟨supply, hsupply⟩ := hs.arithmeticSafe.burn env a n _ hn hsub
  rw [I128.checkedSub_eq_some, readTotalSupply_setBalance] at hsupply
  exact ⟨_, hn, ha, hle, next, supply, hnext, hsupply, rfl⟩

/-- What becomes of a call on an amount that is positive, in a state that is not paused. -/
inductive Outcome (env : Env) (s : Storage) (a : Address) (n : I128) : Prop where
  | free (hfee : s.fee n.val = 0) (h : (burnFee a n).run env s = .ok (0, s))
  | overflow (hover : 2 ^ 127 ≤ n.val * s.feeRate)
      (h : (burnFee a n).run env s = .error (.err .invalidAmount))
  | refused (e : StarTokenError) (hne : e ≠ .invalidAmount) (hfee : 0 < s.fee n.val)
      (hwhy : s.isAuthorized a = false ∨ (s.readBalance a).val < s.fee n.val)
      (h : (burnFee a n).run env s = .error (.err e))
  | burned (fee : I128) (m : Storage) (e : StarEvent) (hfee : fee.val = s.fee n.val)
      (hm : Burned s a fee m) (h : (burnFee a n).run env s = .ok (fee, m.publish e))

/-- A burn of more than nothing that a freeze or a low balance stands in the way of. -/
lemma burnInternal_refused (hn : 0 < n.val)
    (hwhy : s.isAuthorized a = false ∨ (s.readBalance a).val < n.val) :
    ∃ e, e ≠ .invalidAmount ∧ (burnInternal a n).run env s = .error (.err e) := by
  have hp : (requirePositive n).run env s = .ok ((), s) := run_requirePositive.mpr ⟨hn, rfl⟩
  cases ha : s.isAuthorized a with
  | false =>
    refine ⟨.accountNotAuthorized, by decide, ?_⟩
    have hfrozen : (requireAuthorized a).run env s = .error (.err .accountNotAuthorized) := by
      rw [requireAuthorized, run_bind_of_ok (run_get.mpr ⟨rfl, rfl⟩), run_failIf_of (by simp [ha])]
    rw [burnInternal, run_bind_of_ok hp, run_bind_of_error hfrozen]
  | true =>
    have hlow : (s.readBalance a).val < n.val := by
      rcases hwhy with hfrozen | hlow
      · rw [ha] at hfrozen
        cases hfrozen
      · exact hlow
    have hok : (requireAuthorized a).run env s = .ok ((), s) := run_requireAuthorized.mpr ⟨ha, rfl⟩
    have hsub : (subBalance a n).run env s = .error (.err .insufficientBalance) := by
      rw [subBalance, run_bind_of_ok (run_get.mpr ⟨rfl, rfl⟩)]
      exact run_bind_of_error (run_failIf_of hlow)
    refine ⟨.insufficientBalance, by decide, ?_⟩
    rw [burnInternal, run_bind_of_ok hp, run_bind_of_ok hok, run_bind_of_error hsub]

/-- The fee of an enabled configuration, as the contract computes it. -/
lemma exists_fee {config : FeeBurnConfig} (hrate : s.feeRate = config.feeBasisPoints.toNat)
    (hn : 0 < n.val) (hfits : n.val * s.feeRate < 2 ^ 127) :
    ∃ product fee : I128, n.checkedMul (.ofUInt32 config.feeBasisPoints) = some product ∧
      product.checkedDiv (.lit 10000 basisPoints_inRange) = some fee ∧
      fee.val = s.fee n.val := by
  have hnonneg : 0 ≤ n.val * s.feeRate := by
    rw [hrate]
    exact mul_nonneg hn.le (Int.natCast_nonneg _)
  have hdiv : 0 ≤ n.val * s.feeRate / 10000 := Int.ediv_nonneg hnonneg (by decide)
  have hproduct : n.checkedMul (.ofUInt32 config.feeBasisPoints) =
      some ⟨n.val * s.feeRate, by omega, hfits⟩ := by
    rw [I128.checkedMul_eq_some, I128.val_ofUInt32]
    exact congrArg (n.val * ·) hrate
  refine ⟨_, ⟨n.val * s.feeRate / 10000, by omega, by omega⟩, hproduct, ?_, rfl⟩
  rw [I128.checkedDiv_eq_some]
  exact ⟨by decide, (Int.tdiv_eq_ediv_of_nonneg hnonneg).symm⟩

lemma charge_of_off {config : FeeBurnConfig}
    (h : config.enabled = false ∨ config.feeBasisPoints = 0) :
    (charge a n config).run env s = .ok (0, s) := by
  have hoff : (!config.enabled || config.feeBasisPoints = 0) = true := by
    rcases h with h | h <;> simp [h]
  rw [charge, if_pos hoff]
  rfl

/-- The charge where burning is on. -/
lemma charge_of_on {config : FeeBurnConfig} (hon : config.enabled = true)
    (hbps : config.feeBasisPoints ≠ 0) : (charge a n config).run env s = (do
      let product ← okOr (n.checkedMul (.ofUInt32 config.feeBasisPoints)) .invalidAmount
      let feeAmount ← expect (product.checkedDiv (.lit 10000 basisPoints_inRange))
      takeFee a config feeAmount : Star I128).run env s := by
  have hcond : ¬(!config.enabled || config.feeBasisPoints = 0) = true := by simp [hon, hbps]
  rw [charge, if_neg hcond]

/-- A fee that was computed is taken, unless it is zero or something stands in the way. -/
lemma outcome_of_takeFee {config : FeeBurnConfig} {fee : I128} (hs : Chargeable s)
    (hn : 0 < n.val) (hfee : fee.val = s.fee n.val)
    (hrun : (burnFee a n).run env s = (takeFee a config fee).run env s) : Outcome env s a n := by
  by_cases hzero : fee = 0
  · rw [takeFee, if_pos hzero] at hrun
    refine .free ?_ hrun
    rw [← hfee, hzero]
    rfl
  · rw [takeFee, if_neg hzero] at hrun
    have hpos : 0 < fee.val := by
      have hnonneg := fee_nonneg hs.rate hn
      have hne : fee.val ≠ 0 := fun h => hzero (I128.ext h)
      omega
    by_cases hok : s.isAuthorized a = true ∧ fee.val ≤ (s.readBalance a).val
    · obtain ⟨m, hm⟩ := Burned.exists_of_covered env hs.books hpos hok.1 hok.2
      have hburn : (burnInternal a fee).run env s = .ok ((), m) := run_burnInternal.mpr hm
      have hpublish : ∀ e : StarEvent, (publish e).run env m = .ok ((), m.publish e) :=
        fun e => run_publish.mpr rfl
      rw [run_bind_of_ok hburn, run_bind_of_ok (hpublish _)] at hrun
      exact .burned fee m _ hfee hm hrun
    · have hwhy : s.isAuthorized a = false ∨ (s.readBalance a).val < fee.val := by
        rw [not_and_or, Bool.not_eq_true, not_le] at hok
        exact hok
      obtain ⟨e, hne, he⟩ := burnInternal_refused hpos hwhy
      rw [run_bind_of_error he] at hrun
      rw [hfee] at hpos hwhy
      exact .refused e hne hpos hwhy hrun

/-- **Every call** on a positive amount in a state that is not paused. -/
lemma outcome (hs : Chargeable s) (hp : s.isPaused = false) (hn : 0 < n.val)
    (hauth : env.auth a = true) : Outcome env s a n := by
  have hrun : (burnFee a n).run env s =
      (charge a n (s.readFeeBurnConfig env.self)).run env s :=
    burnFee_of_checked ⟨hs.initialized, hp⟩ hn hauth
  cases hconfig : s.feeBurnConfig with
  | none =>
    refine .free (by simp [Storage.fee, Storage.feeRate, hconfig]) ?_
    rw [hrun, Storage.readFeeBurnConfig, hconfig]
    exact charge_of_off (.inl rfl)
  | some config =>
    rw [Storage.readFeeBurnConfig, hconfig, Option.getD_some] at hrun
    by_cases hoff : config.enabled = false ∨ config.feeBasisPoints = 0
    · refine .free ?_ (by rw [hrun, charge_of_off hoff])
      rcases hoff with hoff | hoff <;> simp [Storage.fee, Storage.feeRate, hconfig, hoff]
    · obtain ⟨hon, hbps⟩ := not_or.mp hoff
      rw [Bool.not_eq_false] at hon
      have hrate : s.feeRate = config.feeBasisPoints.toNat := by
        simp [Storage.feeRate, hconfig, hon]
      rw [charge_of_on hon hbps] at hrun
      by_cases hfits : n.val * s.feeRate < 2 ^ 127
      · obtain ⟨product, fee, hproduct, hdiv, hfee⟩ := exists_fee hrate hn hfits
        rw [run_bind_of_ok (run_okOr.mpr ⟨hproduct, rfl⟩),
          run_bind_of_ok (run_expect.mpr ⟨hdiv, rfl⟩)] at hrun
        exact outcome_of_takeFee hs hn hfee hrun
      · have hnone : n.checkedMul (.ofUInt32 config.feeBasisPoints) = none := by
          rw [I128.checkedMul, I128.ofInt?, dif_neg]
          rw [I128.val_ofUInt32, ← hrate]
          exact fun h => hfits h.2
        rw [hnone] at hrun
        exact .overflow (not_lt.mp hfits) (hrun.trans (run_bind_of_error rfl))

/-! ### What the fee takes -/

lemma Burned.feeTaken {fee : I128} {m : Storage} (h : Burned s a fee m) (e : StarEvent) :
    FeeTaken s a fee.val (m.publish e) := by
  have hpos := h.positive
  obtain ⟨next, supply, hnext, hsupply, rfl⟩ := h.written
  refine ⟨fun x => ?_, hsupply, rfl, fun hzero => ?_⟩
  · show (((s.setBalance a next).setTotalSupply supply).readBalance x).val = _
    rw [readBalance_setTotalSupply, readBalance_setBalance]
    split_ifs with hx
    · rw [hx, hnext]
    · rw [sub_zero]
  · omega

lemma FeeTaken.refl (s : Storage) (a : Address) : FeeTaken s a 0 s :=
  ⟨fun x => by rw [ite_self, sub_zero], (sub_zero _).symm, rfl, fun _ => rfl⟩

lemma feeBurn_of_chargeable (hs : Chargeable s) (hauth : env.auth a = true) :
    FeeBurn env s a n := by
  constructor
  · intro fee t hok
    obtain ⟨hlive, hn, -⟩ := run_burnFee.mp hok
    have hnonneg := fee_nonneg hs.rate hn
    have hle := fee_le hs.rate hn
    cases outcome hs hlive.2 hn hauth with
    | free hfee h =>
      rw [h] at hok
      cases hok
      exact ⟨hfee.symm, le_rfl, hn.le, .refl s a⟩
    | overflow _ h | refused _ _ _ _ h =>
      rw [h] at hok
      cases hok
    | burned fee' m e hfee hm h =>
      rw [h] at hok
      cases hok
      exact ⟨hfee, hfee ▸ hnonneg, hfee ▸ hle, hm.feeTaken e⟩
  · intro hp hn hfits hcovered
    cases outcome hs hp hn hauth with
    | free _ h => exact ⟨0, s, h⟩
    | overflow hover => exact absurd hfits (not_lt.mpr hover)
    | refused _ _ hfee hwhy =>
      obtain ⟨ha, hle⟩ := hcovered hfee
      rcases hwhy with hfrozen | hlow
      · rw [ha] at hfrozen
        cases hfrozen
      · exact absurd hle (not_le.mpr hlow)
    | burned fee m e _ _ h => exact ⟨fee, _, h⟩
  · intro herr
    by_cases hn : 0 < n.val
    · right
      cases hp : s.isPaused with
      | true =>
        rw [burnFee_of_paused hs.initialized hp] at herr
        cases herr
      | false =>
        cases outcome hs hp hn hauth with
        | free _ h | burned _ _ _ _ _ h =>
          rw [h] at herr
          cases herr
        | overflow hover => exact hover
        | refused e hne _ _ h =>
          rw [h] at herr
          cases herr
          exact absurd rfl hne
    · exact .inl (not_lt.mp hn)
  · intro e herr hp hn hne
    cases outcome hs hp hn hauth with
    | free _ h | burned _ _ _ _ _ h =>
      rw [h] at herr
      cases herr
    | overflow _ h =>
      rw [h] at herr
      cases herr
      exact absurd rfl hne
    | refused e' _ hfee hwhy => exact ⟨hfee, hwhy⟩
  · intro e herr
    exact commit_of_error herr

/-! ### Two calls -/

lemma FeeTaken.feeRate {fee : ℤ} (h : FeeTaken s a fee t) : t.feeRate = s.feeRate := by
  refine feeRate_of_config ?_
  rw [h.rest]

/-- The state that a call leaves takes a call as well, at the same rate. -/
lemma Chargeable.commit (hs : Chargeable s) (hauth : env.auth a = true) (n : I128) :
    Chargeable ((burnFee a n).commit env s) ∧
      ((burnFee a n).commit env s).feeRate = s.feeRate := by
  rcases commit_cases (burnFee a n) env s with ⟨fee, hok⟩ | heq
  · have htaken := ((feeBurn_of_chargeable hs hauth).fee _ _ hok).2.2.2
    have hrate := htaken.feeRate
    have hexec : (exec (.burnFee a n)).run env s = .ok ((), (burnFee a n).commit env s) :=
      run_void.mpr ⟨fee, hok⟩
    refine ⟨⟨?_, hs.books.exec hexec, ?_⟩, hrate⟩
    · rw [Storage.isInitialized, (exec_ruled hexec).initialized]
      exact hs.initialized
    · rw [Storage.RateBounded, hrate]
      exact hs.rate
  · rw [heq]
    exact ⟨hs, rfl⟩

lemma burnedBy_le (hs : Chargeable s) (hauth : env.auth a = true) (hn : 0 < n.val) :
    burnedBy env s a n ≤ s.fee n.val := by
  unfold burnedBy
  cases h : (burnFee a n).run env s with
  | ok p => exact ((feeBurn_of_chargeable hs hauth).fee p.1 p.2 h).1.le
  | error e => exact fee_nonneg hs.rate hn

lemma noGainBySplitting {env' : Env} {x y : I128} (hs : Chargeable s) (hauth : env.auth a = true)
    (hauth' : env'.auth a = true) : NoGainBySplitting env env' s a x y := by
  have hsame : ∀ z : ℤ, ((burnFee a x).commit env s).fee z = s.fee z := by
    intro z
    rw [Storage.fee, Storage.fee, (hs.commit hauth x).2]
  refine ⟨?_, ?_⟩
  · intro fx u fy t hx hy
    have hu := hs.commit hauth x
    rw [commit_of_ok hx] at hu hsame
    have hfx := ((feeBurn_of_chargeable hs hauth).fee _ _ hx).1
    have hfy := ((feeBurn_of_chargeable hu.1 hauth').fee _ _ hy).1
    rw [hfx, hfy, hsame]
    exact fee_add_le s _ _
  · intro z fz v hx hy hz hrun
    have hfz := ((feeBurn_of_chargeable hs hauth).fee _ _ hrun).1
    have hbx := burnedBy_le hs hauth hx
    have hby := burnedBy_le (hs.commit hauth x).1 hauth' hy
    rw [hsame] at hby
    rw [hfz, hz]
    exact (add_le_add hbx hby).trans (fee_add_le s _ _)

/-- **The arithmetic of `burn_fee`**, in every reachable state. -/
theorem burn_fee_arithmetic {c : OnLedger Storage} (h : system.Reachable c) (env env' : Env)
    (a : Address) (hauth : env.auth a = true) (hauth' : env'.auth a = true) :
    (∀ n, FeeBurn env c.state a n) ∧ ∀ x y, NoGainBySplitting env env' c.state a x y := by
  have hs := chargeable_of_reachable h
  exact ⟨fun _ => feeBurn_of_chargeable hs hauth, fun _ _ => noGainBySplitting hs hauth hauth'⟩

/-! ### A rate of 250 basis points on the 40 of account 7 -/

def sampleFee : Storage :=
  (exec (.setFeeBurnConfig true 250 ⟨8⟩)).commit (sampleEnv 6) sampleMinted

theorem burn_fee_arithmetic_at_sample :
    (∃ fee t, (burnFee ⟨7⟩ (.lit 40)).run (sampleEnv 6) sampleFee = .ok (fee, t) ∧ fee.val = 1) ∧
      (∀ n, FeeBurn (sampleEnv 6) sampleFee ⟨7⟩ n) ∧
      ∀ x y, NoGainBySplitting (sampleEnv 6) (sampleEnv 6) sampleFee ⟨7⟩ x y := by
  have h := contract_reachable_call sampleDeployed_reachable (sampleEnv 6)
    (.mint ⟨7⟩ (.lit 40)) (by decide)
  have h := contract_reachable_call h (sampleEnv 6) (.setFeeBurnConfig true 250 ⟨8⟩) (by decide)
  exact ⟨⟨_, _, rfl, by decide⟩, burn_fee_arithmetic h (sampleEnv 6) (sampleEnv 6) ⟨7⟩ rfl rfl⟩

end PayEra.StarToken
