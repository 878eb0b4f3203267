import PayEra.StarToken.Basic

/-!
# What the STAR entrypoints do

For each function of the contract, exactly when it returns and the storage it leaves. The checks
come in the order of the source; everything later is derived from these lemmas, and no other
module unfolds an entrypoint.
-/

namespace PayEra.StarToken

open Soroban Soroban.Call

variable {env : Env} {s t : Storage} {u : Unit}

/-! ### Checks and reads -/

@[simp] lemma run_publish {e : StarEvent} :
    (publish e).run env s = .ok (u, t) ↔ t = s.publish e := by
  simp [publish]

@[simp] lemma run_requireInitialized :
    requireInitialized.run env s = .ok (u, t) ↔ s.isInitialized = true ∧ t = s := by
  simp [requireInitialized, and_comm]

/-- The state in which a pausable entrypoint goes past its first check. -/
def Storage.Live (s : Storage) : Prop := s.isInitialized = true ∧ s.isPaused = false

@[simp] lemma run_requireNotPaused :
    requireNotPaused.run env s = .ok (u, t) ↔ s.Live ∧ t = s := by
  constructor
  · simp only [requireNotPaused, run_bind, run_requireInitialized, run_get, run_failIf]
    rintro ⟨_, _, ⟨hi, rfl⟩, _, _, ⟨rfl, rfl⟩, hp, rfl⟩
    exact ⟨⟨hi, by simpa using hp⟩, rfl⟩
  · rintro ⟨⟨hi, hp⟩, rfl⟩
    simp [requireNotPaused, hi, hp]

@[simp] lemma run_readAdmin {a : Address} :
    readAdmin.run env s = .ok (a, t) ↔ s.admin = some a ∧ t = s := by
  simp [readAdmin, and_comm]

@[simp] lemma run_readMetadata {md : TokenMetadata} :
    readMetadata.run env s = .ok (md, t) ↔ s.metadata = some md ∧ t = s := by
  simp [readMetadata, and_comm]

@[simp] lemma run_requireAuthorized {id : Address} :
    (requireAuthorized id).run env s = .ok (u, t) ↔ s.isAuthorized id = true ∧ t = s := by
  simp [requireAuthorized, and_comm]

@[simp] lemma run_requirePositive {amount : I128} :
    (requirePositive amount).run env s = .ok (u, t) ↔ 0 < amount.val ∧ t = s := by
  simp [requirePositive]

/-! ### Balances, supply and allowances -/

@[simp] lemma run_addBalance {id : Address} {amount : I128} :
    (addBalance id amount).run env s = .ok (u, t) ↔
      ∃ next : I128, next.val = (s.readBalance id).val + amount.val ∧ t = s.setBalance id next := by
  simp [addBalance]

@[simp] lemma run_subBalance {id : Address} {amount : I128} :
    (subBalance id amount).run env s = .ok (u, t) ↔
      amount.val ≤ (s.readBalance id).val ∧
      ∃ next : I128, next.val = (s.readBalance id).val - amount.val ∧
        t = s.setBalance id next := by
  simp [subBalance]

/-- A transfer: the debit is written before the recipient's balance is read. -/
structure Transferred (s : Storage) (fromAddr toAddr : Address) (amount : I128)
    (debited : Storage) (t : Storage) : Prop where
  positive : 0 < amount.val
  from_authorized : s.isAuthorized fromAddr = true
  to_authorized : s.isAuthorized toAddr = true
  covered : amount.val ≤ (s.readBalance fromAddr).val
  debit : ∃ next : I128, next.val = (s.readBalance fromAddr).val - amount.val ∧
    debited = s.setBalance fromAddr next
  credit : ∃ next : I128, next.val = (debited.readBalance toAddr).val + amount.val ∧
    t = debited.setBalance toAddr next

@[simp] lemma run_transferInternal {fromAddr toAddr : Address} {amount : I128} :
    (transferInternal fromAddr toAddr amount).run env s = .ok (u, t) ↔
      ∃ debited, Transferred s fromAddr toAddr amount debited t := by
  constructor
  · simp only [transferInternal, run_bind, run_requirePositive, run_requireAuthorized,
      run_subBalance, run_addBalance]
    rintro ⟨_, _, ⟨hpos, rfl⟩, _, _, ⟨hf, rfl⟩, _, _, ⟨ht, rfl⟩, _, v, ⟨hle, hd⟩, hc⟩
    exact ⟨v, hpos, hf, ht, hle, hd, hc⟩
  · rintro ⟨v, h⟩
    simp only [transferInternal, run_bind, run_requirePositive, run_requireAuthorized,
      run_subBalance, run_addBalance]
    exact ⟨(), s, ⟨h.positive, rfl⟩, (), s, ⟨h.from_authorized, rfl⟩, (), s,
      ⟨h.to_authorized, rfl⟩, (), v, ⟨h.covered, h.debit⟩, h.credit⟩

/-- A burn: the balance and the supply drop by the same amount. -/
structure Burned (s : Storage) (fromAddr : Address) (amount : I128) (t : Storage) : Prop where
  positive : 0 < amount.val
  authorized : s.isAuthorized fromAddr = true
  covered : amount.val ≤ (s.readBalance fromAddr).val
  written : ∃ next supply : I128, next.val = (s.readBalance fromAddr).val - amount.val ∧
    supply.val = s.readTotalSupply.val - amount.val ∧
    t = (s.setBalance fromAddr next).setTotalSupply supply

@[simp] lemma run_burnInternal {fromAddr : Address} {amount : I128} :
    (burnInternal fromAddr amount).run env s = .ok (u, t) ↔ Burned s fromAddr amount t := by
  constructor
  · intro h
    simp only [burnInternal, run_bind, run_requirePositive, run_requireAuthorized,
      run_subBalance, run_get, run_okOr, I128.checkedSub_eq_some, run_modify] at h
    obtain ⟨_, _, ⟨hpos, rfl⟩, _, _, ⟨hf, rfl⟩, _, _, ⟨hle, next, hnext, rfl⟩, _, _, ⟨rfl, rfl⟩,
      supply, _, ⟨hs, rfl⟩, rfl⟩ := h
    exact ⟨hpos, hf, hle, next, supply, hnext, hs, rfl⟩
  · rintro ⟨hpos, hf, hle, next, supply, hnext, hs, rfl⟩
    simp only [burnInternal, run_bind, run_requirePositive, run_requireAuthorized,
      run_subBalance, run_get, run_okOr, I128.checkedSub_eq_some, run_modify]
    exact ⟨(), s, ⟨hpos, rfl⟩, (), s, ⟨hf, rfl⟩, (), _, ⟨hle, next, hnext, rfl⟩, _, _, ⟨rfl, rfl⟩,
      supply, _, ⟨hs, rfl⟩, rfl⟩

/-- The state after an allowance was spent. -/
structure Spent (env : Env) (s : Storage) (fromAddr spender : Address) (amount : I128)
    (t : Storage) : Prop where
  positive : 0 < amount.val
  written : ∃ (v : AllowanceValue) (next : I128), s.allowance fromAddr spender = some v ∧
    env.ledger ≤ v.expirationLedger ∧ amount.val ≤ v.amount.val ∧
    next.val = v.amount.val - amount.val ∧
    t = s.setAllowance fromAddr spender ⟨next, v.expirationLedger⟩

@[simp] lemma run_spendAllowance {fromAddr spender : Address} {amount : I128} :
    (spendAllowance fromAddr spender amount).run env s = .ok (u, t) ↔
      Spent env s fromAddr spender amount t := by
  constructor
  · intro h
    simp only [spendAllowance, run_bind, run_requirePositive, run_get, run_okOr, run_sequence,
      run_failIf, I128.checkedSub_eq_some, run_modify, not_lt] at h
    obtain ⟨_, _, ⟨hpos, rfl⟩, _, _, ⟨rfl, rfl⟩, v, _, ⟨hv, rfl⟩, _, _, ⟨rfl, rfl⟩, _, _,
      ⟨hexp, rfl⟩, _, _, ⟨hle, rfl⟩, next, _, ⟨hnext, rfl⟩, rfl⟩ := h
    exact ⟨hpos, v, next, hv, hexp, hle, hnext, rfl⟩
  · rintro ⟨hpos, v, next, hv, hexp, hle, hnext, rfl⟩
    simp only [spendAllowance, run_bind, run_requirePositive, run_get, run_okOr, run_sequence,
      run_failIf, I128.checkedSub_eq_some, run_modify, not_lt]
    exact ⟨(), s, ⟨hpos, rfl⟩, s, s, ⟨rfl, rfl⟩, v, s, ⟨hv, rfl⟩, env.ledger, s, ⟨rfl, rfl⟩, (), s,
      ⟨hexp, rfl⟩, (), s, ⟨hle, rfl⟩, next, s, ⟨hnext, rfl⟩, rfl⟩

/-- What is left of an allowance at a ledger sequence. -/
def Storage.allowanceAt (s : Storage) (ledger : Nat) (fromAddr spender : Address) : I128 :=
  match s.allowance fromAddr spender with
  | none => 0
  | some v => if v.expirationLedger < ledger then 0 else v.amount

@[simp] lemma run_readAllowance {fromAddr spender : Address} {n : I128} :
    (readAllowance fromAddr spender).run env s = .ok (n, t) ↔
      n = s.allowanceAt env.ledger fromAddr spender ∧ t = s := by
  simp only [readAllowance, run_bind, run_get, Storage.allowanceAt]
  cases h : s.allowance fromAddr spender with
  | none =>
    simp [h]
    grind
  | some v =>
    by_cases hv : v.expirationLedger < env.ledger <;> simp [h, hv] <;> grind

@[simp] lemma run_nextSupply {amount next : I128} :
    (nextSupply amount).run env s = .ok (next, t) ↔
      (∃ md, s.metadata = some md ∧ next.val = s.readTotalSupply.val + amount.val ∧
        next.val ≤ md.maxSupply.val) ∧ t = s := by
  constructor
  · intro h
    simp only [nextSupply, run_bind, run_readMetadata, run_get, run_okOr, run_failIf, run_pure,
      I128.checkedAdd_eq_some, not_lt, gt_iff_lt, Except.ok.injEq, Prod.mk.injEq] at h
    obtain ⟨md, _, ⟨hmd, rfl⟩, _, _, ⟨rfl, rfl⟩, n, _, ⟨hn, rfl⟩, _, _, ⟨hle, rfl⟩, rfl, rfl⟩ := h
    exact ⟨⟨md, hmd, hn, hle⟩, rfl⟩
  · rintro ⟨⟨md, hmd, hn, hle⟩, rfl⟩
    simp only [nextSupply, run_bind, run_readMetadata, run_get, run_okOr, run_failIf, run_pure,
      I128.checkedAdd_eq_some, not_lt, gt_iff_lt, Except.ok.injEq, Prod.mk.injEq]
    exact ⟨md, t, ⟨hmd, rfl⟩, t, t, ⟨rfl, rfl⟩, next, t, ⟨hn, rfl⟩, (), t, ⟨hle, rfl⟩, rfl, rfl⟩

/-! ### Movements -/

/-- A mint: the recipient's balance and the supply grow by the same amount, within the cap. -/
structure Minted (s : Storage) (toAddr : Address) (amount : I128) (t : Storage) : Prop where
  positive : 0 < amount.val
  authorized : s.isAuthorized toAddr = true
  written : ∃ (md : TokenMetadata) (supply next : I128), s.metadata = some md ∧
    supply.val = s.readTotalSupply.val + amount.val ∧ supply.val ≤ md.maxSupply.val ∧
    next.val = (s.readBalance toAddr).val + amount.val ∧
    t = (s.setBalance toAddr next).setTotalSupply supply

lemma run_mint {toAddr : Address} {amount : I128} :
    (mint toAddr amount).run env s = .ok (u, t) ↔
      s.Live ∧ (∃ adm, s.admin = some adm ∧ env.auth adm = true) ∧
      ∃ m, Minted s toAddr amount m ∧
        t = m.publish { action := .mint, account := toAddr, counterparty := toAddr, amount,
                        flag := true } := by
  constructor
  · intro h
    simp [mint] at h
    obtain ⟨hl, hp, ha, adm, hadm, hauth, supply, ⟨md, hmd, hs, hcap⟩, next, hn, rfl⟩ := h
    exact ⟨hl, ⟨adm, hadm, hauth⟩, _, ⟨hp, ha, md, supply, next, hmd, hs, hcap, hn, rfl⟩, rfl⟩
  · rintro ⟨hl, ⟨adm, hadm, hauth⟩, m, ⟨hp, ha, md, supply, next, hmd, hs, hcap, hn, rfl⟩, rfl⟩
    simp [mint]
    exact ⟨hl, hp, ha, adm, hadm, hauth, supply, ⟨md, hmd, hs, hcap⟩, next, hn, rfl⟩

lemma run_mintFromMinter {minter toAddr : Address} {amount : I128} :
    (mintFromMinter minter toAddr amount).run env s = .ok (u, t) ↔
      s.Live ∧ env.auth minter = true ∧ s.isMinter minter = true ∧
      ∃ m, Minted s toAddr amount m ∧
        t = m.publish { action := .mint, account := minter, counterparty := toAddr, amount,
                        flag := true } := by
  constructor
  · intro h
    simp [mintFromMinter] at h
    obtain ⟨hl, hp, ha, hauth, hm, supply, ⟨md, hmd, hs, hcap⟩, next, hn, rfl⟩ := h
    exact ⟨hl, hauth, hm, _, ⟨hp, ha, md, supply, next, hmd, hs, hcap, hn, rfl⟩, rfl⟩
  · rintro ⟨hl, hauth, hm, m, ⟨hp, ha, md, supply, next, hmd, hs, hcap, hn, rfl⟩, rfl⟩
    simp [mintFromMinter]
    exact ⟨hl, hp, ha, hauth, hm, supply, ⟨md, hmd, hs, hcap⟩, next, hn, rfl⟩

lemma run_transfer {fromAddr : Address} {toAddr : MuxedAddress} {amount : I128} :
    (transfer fromAddr toAddr amount).run env s = .ok (u, t) ↔
      s.Live ∧ env.auth fromAddr = true ∧
      ∃ d m, Transferred s fromAddr toAddr.address amount d m ∧
        t = m.publish { action := .transfer, account := fromAddr,
                        counterparty := toAddr.address, amount, flag := true } := by
  simp [transfer]
  grind

lemma run_transferFrom {spender fromAddr toAddr : Address} {amount : I128} :
    (transferFrom spender fromAddr toAddr amount).run env s = .ok (u, t) ↔
      s.Live ∧ env.auth spender = true ∧
      ∃ r d m, Spent env s fromAddr spender amount r ∧
        Transferred r fromAddr toAddr amount d m ∧
        t = m.publish { action := .transfer, account := fromAddr, counterparty := toAddr, amount,
                        flag := true } := by
  simp [transferFrom]
  grind

lemma run_burn {fromAddr : Address} {amount : I128} :
    (burn fromAddr amount).run env s = .ok (u, t) ↔
      s.Live ∧ env.auth fromAddr = true ∧
      ∃ m, Burned s fromAddr amount m ∧
        t = m.publish { action := .burn, account := fromAddr, counterparty := fromAddr, amount,
                        flag := true } := by
  simp [burn]

lemma run_burnFrom {spender fromAddr : Address} {amount : I128} :
    (burnFrom spender fromAddr amount).run env s = .ok (u, t) ↔
      s.Live ∧ env.auth spender = true ∧
      ∃ r m, Spent env s fromAddr spender amount r ∧ Burned r fromAddr amount m ∧
        t = m.publish { action := .burn, account := fromAddr, counterparty := fromAddr, amount,
                        flag := true } := by
  simp [burnFrom]

/-- The fee of `burn_fee` on an amount: rounded toward zero, `none` where `i128` overflows. -/
def feeAmount (config : FeeBurnConfig) (amount : I128) : Option I128 :=
  (amount.checkedMul (.ofUInt32 config.feeBasisPoints)).bind (·.checkedDiv (.lit 10000 basisPoints_inRange))

lemma run_burnFee {fromAddr : Address} {amount fee : I128} :
    (burnFee fromAddr amount).run env s = .ok (fee, t) ↔
      s.Live ∧ 0 < amount.val ∧ env.auth fromAddr = true ∧
      (((s.readFeeBurnConfig env.self).enabled = false ∨
          (s.readFeeBurnConfig env.self).feeBasisPoints = 0) ∧ fee = 0 ∧ t = s ∨
        (s.readFeeBurnConfig env.self).enabled = true ∧
          (s.readFeeBurnConfig env.self).feeBasisPoints ≠ 0 ∧
          feeAmount (s.readFeeBurnConfig env.self) amount = some fee ∧
          (fee = 0 ∧ t = s ∨
            fee ≠ 0 ∧ ∃ m, Burned s fromAddr fee m ∧
              t = m.publish { action := .burnfee, account := fromAddr,
                              counterparty := (s.readFeeBurnConfig env.self).feeRecipient,
                              amount := fee, flag := true })) := by
  simp [burnFee, feeAmount, Option.bind_eq_some_iff]
  grind

/-! ### Configuration -/

lemma run_setAdmin {newAdmin : Address} :
    (setAdmin newAdmin).run env s = .ok (u, t) ↔
      s.Live ∧ ∃ adm, s.admin = some adm ∧ env.auth adm = true ∧
        t = { s with pendingAdmin := some newAdmin }.publish
          { action := .admProp, account := adm, counterparty := newAdmin, amount := 0,
            flag := true } := by
  simp [setAdmin]

/-- The storage after the role went from `oldAdmin` to `pending`. -/
def Storage.handOver (s : Storage) (oldAdmin pending : Address) : Storage :=
  let revoked := if oldAdmin ≠ pending then
    (s.setMinter oldAdmin false).setAuthorized oldAdmin false else s
  (({ revoked with admin := some pending, pendingAdmin := none }).setAuthorized pending
    true).setMinter pending true

lemma run_acceptAdmin :
    acceptAdmin.run env s = .ok (u, t) ↔
      s.Live ∧ ∃ pending oldAdmin, s.pendingAdmin = some pending ∧ env.auth pending = true ∧
        s.admin = some oldAdmin ∧
        t = (s.handOver oldAdmin pending).publish
          { action := .admin, account := oldAdmin, counterparty := pending, amount := 0,
            flag := true } := by
  simp [acceptAdmin, Storage.handOver]
  grind

lemma run_setFeeBurnConfig {enabled : Bool} {bps : UInt32} {recipient : Address} :
    (setFeeBurnConfig enabled bps recipient).run env s = .ok (u, t) ↔
      s.Live ∧ ∃ adm, s.admin = some adm ∧ env.auth adm = true ∧ bps ≤ 10000 ∧
        t = { s with feeBurnConfig := some ⟨enabled, bps, recipient⟩ }.publish
          { action := .feeburn, account := adm, counterparty := recipient,
            amount := .ofUInt32 bps, flag := enabled } := by
  simp [setFeeBurnConfig]

lemma run_pause :
    pause.run env s = .ok (u, t) ↔
      ∃ adm, s.admin = some adm ∧ env.auth adm = true ∧
        t = { s with paused := some true }.publish
          { action := .pause, account := adm, counterparty := adm, amount := 0,
            flag := true } := by
  simp [pause]

lemma run_unpause :
    unpause.run env s = .ok (u, t) ↔
      ∃ adm, s.admin = some adm ∧ env.auth adm = true ∧
        t = { s with paused := some false }.publish
          { action := .unpause, account := adm, counterparty := adm, amount := 0,
            flag := false } := by
  simp [unpause]

lemma run_setMinter {minter : Address} {enabled : Bool} :
    (setMinter minter enabled).run env s = .ok (u, t) ↔
      s.Live ∧ ∃ adm, s.admin = some adm ∧ env.auth adm = true ∧
        t = (if enabled then (s.setMinter minter enabled).setAuthorized minter true
              else s.setMinter minter enabled).publish
          { action := .minter, account := minter, counterparty := minter, amount := 0,
            flag := enabled } := by
  simp [setMinter]
  grind

lemma run_setAuthorized {id : Address} {authorize : Bool} :
    (setAuthorized id authorize).run env s = .ok (u, t) ↔
      s.Live ∧ ∃ adm, s.admin = some adm ∧ env.auth adm = true ∧
        t = (s.setAuthorized id authorize).publish
          { action := .auth, account := id, counterparty := id, amount := 0,
            flag := authorize } := by
  simp [setAuthorized]

lemma run_approve {fromAddr spender : Address} {amount : I128} {expiration : Nat} :
    (approve fromAddr spender amount expiration).run env s = .ok (u, t) ↔
      s.Live ∧ 0 ≤ amount.val ∧ env.auth fromAddr = true ∧ s.isAuthorized fromAddr = true ∧
      s.isAuthorized spender = true ∧ (0 < amount.val → env.ledger ≤ expiration) ∧
        t = (s.setAllowance fromAddr spender ⟨amount, expiration⟩).publish
          { action := .approve, account := fromAddr, counterparty := spender, amount,
            flag := true } := by
  simp [approve]

lemma run_constructor {admin : Address} {name symbol : String} {maxSupply : I128} :
    (constructor admin name symbol maxSupply).run env s = .ok (u, t) ↔
      0 < maxSupply.val ∧ env.auth admin = true ∧
        t = ((({ s with
            initialized := some true
            admin := some admin
            metadata := some ⟨name, symbol, STAR_DECIMALS, maxSupply⟩
            totalSupply := some 0
            paused := some false } : Storage).setAuthorized admin true).setMinter admin
              true).publish
          { action := .init, account := admin, counterparty := admin, amount := maxSupply,
            flag := true } := by
  simp [constructor]

/-! ### Reads -/

/-- The entrypoints that only read, and `heartbeat`. -/
def Entry.isRead : Entry → Bool
  | .admin | .heartbeat | .getFeeBurnConfig | .paused | .isMinter _ | .authorized _
  | .allowance _ _ | .balance _ | .decimals | .name | .symbol | .totalSupply | .maxSupply => true
  | _ => false

lemma eq_of_isRead {e : Entry} (he : e.isRead = true)
    (h : (exec e).run env s = .ok (u, t)) : t = s := by
  cases e <;> simp only [Entry.isRead, Bool.false_eq_true] at he
  all_goals
    simp [exec, admin, heartbeat, getFeeBurnConfig, paused, isMinter, authorized, allowance,
      balance, decimals, name, symbol, totalSupply, maxSupply] at h
    grind

/-! ### What a call does to the books -/

/-- Same balances, supply, allowances and metadata. -/
structure SameBooks (s t : Storage) : Prop where
  balance : t.balance = s.balance
  totalSupply : t.totalSupply = s.totalSupply
  allowance : t.allowance = s.allowance
  metadata : t.metadata = s.metadata

lemma SameBooks.refl (s : Storage) : SameBooks s s := ⟨rfl, rfl, rfl, rfl⟩

lemma SameBooks.publish (s : Storage) (e : StarEvent) : SameBooks s (s.publish e) :=
  ⟨rfl, rfl, rfl, rfl⟩

lemma SameBooks.handOver (s : Storage) (oldAdmin pending : Address) :
    SameBooks s (s.handOver oldAdmin pending) := by
  constructor <;> unfold Storage.handOver <;> split_ifs <;> rfl

lemma SameBooks.trans {s r t : Storage} (h : SameBooks s r) (h' : SameBooks r t) :
    SameBooks s t :=
  ⟨h'.balance.trans h.balance, h'.totalSupply.trans h.totalSupply,
    h'.allowance.trans h.allowance, h'.metadata.trans h.metadata⟩

/-- Where a movement draws from: the sender's own authorization, or an allowance. -/
inductive Drawn (env : Env) (s : Storage) (fromAddr : Address) (amount : I128) :
    Storage → Prop where
  | own : Drawn env s fromAddr amount s
  | allowance {r : Storage} (spender : Address) (h : Spent env s fromAddr spender amount r) :
      Drawn env s fromAddr amount r

/-- Everything a successful call can do to the books: nothing, one allowance, or one movement. -/
inductive Moved (env : Env) (s t : Storage) : Prop where
  | still (h : SameBooks s t)
  | approved (fromAddr spender : Address) (v : AllowanceValue) (hv : 0 ≤ v.amount.val)
      (h : SameBooks (s.setAllowance fromAddr spender v) t)
  | minted (toAddr : Address) (amount : I128) (m : Storage)
      (hm : Minted s toAddr amount m) (h : SameBooks m t)
  | burned (fromAddr : Address) (amount : I128) (r m : Storage)
      (hr : Drawn env s fromAddr amount r) (hm : Burned r fromAddr amount m) (h : SameBooks m t)
  | transferred (fromAddr toAddr : Address) (amount : I128) (r d m : Storage)
      (hr : Drawn env s fromAddr amount r) (hm : Transferred r fromAddr toAddr amount d m)
      (h : SameBooks m t)

/-- The allowance that a call draws on: who gave it, who spends it, and how much of it. -/
def Entry.draw : Entry → Option (Address × Address × I128)
  | .transferFrom spender fromAddr _ amount => some (fromAddr, spender, amount)
  | .burnFrom spender fromAddr amount => some (fromAddr, spender, amount)
  | _ => none

lemma draw_of_isRead {e : Entry} (he : e.isRead = true) : e.draw = none := by
  cases e <;> first | rfl | cases he

/-- What a successful call does to the books, and whose authorization and which flags it rested
on. -/
inductive Booked (env : Env) (s : Storage) : Entry → Storage → Prop where
  | still {e : Entry} {t : Storage} (he : e.draw = none) (h : SameBooks s t) : Booked env s e t
  | approved {fromAddr spender : Address} {amount : I128} {expiration : Nat} {t : Storage}
      (hamount : 0 ≤ amount.val) (hauth : env.auth fromAddr = true)
      (hfrom : s.isAuthorized fromAddr = true) (hspender : s.isAuthorized spender = true)
      (h : SameBooks (s.setAllowance fromAddr spender ⟨amount, expiration⟩) t) :
      Booked env s (.approve fromAddr spender amount expiration) t
  | minted {e : Entry} {toAddr : Address} {amount : I128} {m t : Storage}
      (hby : e = .mint toAddr amount ∧ (∃ adm, s.admin = some adm ∧ env.auth adm = true) ∨
        ∃ minter, e = .mintFromMinter minter toAddr amount ∧ env.auth minter = true ∧
          s.isMinter minter = true)
      (hm : Minted s toAddr amount m) (h : SameBooks m t) : Booked env s e t
  | transferred {fromAddr : Address} {toAddr : MuxedAddress} {amount : I128} {d m t : Storage}
      (hauth : env.auth fromAddr = true) (hm : Transferred s fromAddr toAddr.address amount d m)
      (h : SameBooks m t) : Booked env s (.transfer fromAddr toAddr amount) t
  | transferredFrom {spender fromAddr toAddr : Address} {amount : I128} {r d m t : Storage}
      (hauth : env.auth spender = true) (hr : Spent env s fromAddr spender amount r)
      (hm : Transferred r fromAddr toAddr amount d m) (h : SameBooks m t) :
      Booked env s (.transferFrom spender fromAddr toAddr amount) t
  | burned {e : Entry} {fromAddr : Address} {amount : I128} {m t : Storage}
      (hby : e = .burn fromAddr amount ∨ ∃ n, e = .burnFee fromAddr n)
      (hauth : env.auth fromAddr = true) (hm : Burned s fromAddr amount m) (h : SameBooks m t) :
      Booked env s e t
  | burnedFrom {spender fromAddr : Address} {amount : I128} {r m t : Storage}
      (hauth : env.auth spender = true) (hr : Spent env s fromAddr spender amount r)
      (hm : Burned r fromAddr amount m) (h : SameBooks m t) :
      Booked env s (.burnFrom spender fromAddr amount) t

theorem exec_booked {e : Entry} (h : (exec e).run env s = .ok (u, t)) : Booked env s e t := by
  by_cases hread : e.isRead = true
  · rw [eq_of_isRead hread h]
    exact .still (draw_of_isRead hread) (.refl s)
  cases e <;> simp only [Entry.isRead, not_true_eq_false] at hread
  case setAdmin newAdmin =>
    obtain ⟨-, adm, -, -, rfl⟩ := run_setAdmin.mp h
    exact .still rfl ⟨rfl, rfl, rfl, rfl⟩
  case acceptAdmin =>
    obtain ⟨-, pending, old, -, -, -, rfl⟩ := run_acceptAdmin.mp h
    exact .still rfl ((SameBooks.handOver s old pending).trans (.publish _ _))
  case setFeeBurnConfig enabled bps recipient =>
    obtain ⟨-, adm, -, -, -, rfl⟩ := run_setFeeBurnConfig.mp h
    exact .still rfl ⟨rfl, rfl, rfl, rfl⟩
  case burnFee a n =>
    obtain ⟨fee, h⟩ := run_void.mp h
    obtain ⟨-, -, hauth, ⟨-, -, rfl⟩ | ⟨-, -, -, ⟨-, rfl⟩ | ⟨-, m, hm, rfl⟩⟩⟩ := run_burnFee.mp h
    · exact .still rfl (.refl _)
    · exact .still rfl (.refl _)
    · exact .burned (.inr ⟨n, rfl⟩) hauth hm (.publish m _)
  case pause =>
    obtain ⟨adm, -, -, rfl⟩ := run_pause.mp h
    exact .still rfl ⟨rfl, rfl, rfl, rfl⟩
  case unpause =>
    obtain ⟨adm, -, -, rfl⟩ := run_unpause.mp h
    exact .still rfl ⟨rfl, rfl, rfl, rfl⟩
  case setMinter m enabled =>
    obtain ⟨-, adm, -, -, rfl⟩ := run_setMinter.mp h
    refine .still rfl (SameBooks.trans ?_ (.publish _ _))
    split_ifs <;> exact ⟨rfl, rfl, rfl, rfl⟩
  case setAuthorized id authorize =>
    obtain ⟨-, adm, -, -, rfl⟩ := run_setAuthorized.mp h
    exact .still rfl ⟨rfl, rfl, rfl, rfl⟩
  case mint a n =>
    obtain ⟨-, hadm, m, hm, rfl⟩ := run_mint.mp h
    exact .minted (.inl ⟨rfl, hadm⟩) hm (.publish m _)
  case mintFromMinter mr a n =>
    obtain ⟨-, hauth, hmr, m, hm, rfl⟩ := run_mintFromMinter.mp h
    exact .minted (.inr ⟨mr, rfl, hauth, hmr⟩) hm (.publish m _)
  case approve f sp n exp =>
    obtain ⟨-, hn, hauth, hf, hsp, -, rfl⟩ := run_approve.mp h
    exact .approved hn hauth hf hsp (.publish _ _)
  case transfer f c n =>
    obtain ⟨-, hauth, d, m, hm, rfl⟩ := run_transfer.mp h
    exact .transferred hauth hm (.publish m _)
  case transferFrom sp f c n =>
    obtain ⟨-, hauth, r, d, m, hr, hm, rfl⟩ := run_transferFrom.mp h
    exact .transferredFrom hauth hr hm (.publish m _)
  case burn f n =>
    obtain ⟨-, hauth, m, hm, rfl⟩ := run_burn.mp h
    exact .burned (.inl rfl) hauth hm (.publish m _)
  case burnFrom sp f n =>
    obtain ⟨-, hauth, r, m, hr, hm, rfl⟩ := run_burnFrom.mp h
    exact .burnedFrom hauth hr hm (.publish m _)

theorem exec_moved {e : Entry} (h : (exec e).run env s = .ok (u, t)) : Moved env s t := by
  cases exec_booked h with
  | still _ h => exact .still h
  | approved hamount _ _ _ h => exact .approved _ _ _ hamount h
  | minted _ hm h => exact .minted _ _ _ hm h
  | transferred _ hm h => exact .transferred _ _ _ _ _ _ .own hm h
  | transferredFrom _ hr hm h => exact .transferred _ _ _ _ _ _ (.allowance _ hr) hm h
  | burned _ _ hm h => exact .burned _ _ _ _ .own hm h
  | burnedFrom _ hr hm h => exact .burned _ _ _ _ (.allowance _ hr) hm h

end PayEra.StarToken
