import PayEra.Lib.Ledger
import PayEra.StarToken.Effects

/-!
# STAR is conserved

The contract's balances and supply are a token ledger, and every entrypoint moves that ledger by
one `Ledger.Step`. That balances are never negative and add up to the supply is then part of what
a ledger is; the cap and the sign of the stored allowances are the two facts that the storage
adds.
-/

namespace PayEra.StarToken

open Soroban Soroban.Call

variable {env : Env} {s t : Storage} {u : Unit} {b : Address →₀ ℕ}

/-! ### The ledger behind the storage -/

/-- The storage's balances and supply are those of the ledger `b`. -/
structure Represents (s : Storage) (b : Address →₀ ℕ) : Prop where
  balance : ∀ a, (s.readBalance a).val = b a
  supply : s.readTotalSupply.val = Ledger.supply b

lemma Represents.congr (h : Represents s b) (hb : t.balance = s.balance)
    (hs : t.totalSupply = s.totalSupply) : Represents t b where
  balance a := by
    rw [← h.balance a]
    simp only [Storage.readBalance, hb]
  supply := by
    rw [← h.supply]
    simp only [Storage.readTotalSupply, hs]

lemma readBalance_setBalance (s : Storage) (id a : Address) (n : I128) :
    (s.setBalance id n).readBalance a = if a = id then n else s.readBalance a := by
  by_cases h : a = id
  · subst h
    simp [Storage.readBalance, Storage.setBalance]
  · simp [Storage.readBalance, Storage.setBalance, h]

@[simp] lemma readBalance_setTotalSupply (s : Storage) (a : Address) (n : I128) :
    (s.setTotalSupply n).readBalance a = s.readBalance a := rfl

@[simp] lemma readTotalSupply_setTotalSupply (s : Storage) (n : I128) :
    (s.setTotalSupply n).readTotalSupply = n := rfl

@[simp] lemma readTotalSupply_setBalance (s : Storage) (a : Address) (n : I128) :
    (s.setBalance a n).readTotalSupply = s.readTotalSupply := rfl

/-- A positive `i128` as a number of units. -/
private lemma toNat_val {n : I128} (h : 0 < n.val) : (n.val.toNat : ℤ) = n.val :=
  Int.toNat_of_nonneg h.le

/-- Writing the balance of one account that grew by `k` units. -/
lemma balance_add {a : Address} {next : I128} {k : ℕ}
    (h : ∀ x, (s.readBalance x).val = b x) (hn : next.val = (s.readBalance a).val + k) (x : Address) :
    ((s.setBalance a next).readBalance x).val = (b + Finsupp.single a k) x := by
  rw [readBalance_setBalance, Finsupp.add_apply]
  split_ifs with hx
  · subst hx
    rw [hn, h x, Finsupp.single_eq_same]
    push_cast
    rfl
  · rw [h x, Finsupp.single_eq_of_ne hx, add_zero]

/-- Writing the balance of one account that gave up `k` units. -/
lemma balance_take {a : Address} {next : I128} {k : ℕ} {b' : Address →₀ ℕ}
    (h : ∀ x, (s.readBalance x).val = b x) (hb : b = b' + Finsupp.single a k)
    (hn : next.val = (s.readBalance a).val - k) (x : Address) :
    ((s.setBalance a next).readBalance x).val = b' x := by
  rw [readBalance_setBalance]
  split_ifs with hx
  · subst hx
    rw [hn, h x, hb, Finsupp.add_apply, Finsupp.single_eq_same]
    push_cast
    ring
  · rw [h x, hb, Finsupp.add_apply, Finsupp.single_eq_of_ne hx, add_zero]

/-! ### Each movement is a ledger step -/

lemma Minted.refines {a : Address} {n : I128} (h : Minted s a n t) (hb : Represents s b) :
    Represents t (b + Finsupp.single a n.val.toNat) := by
  obtain ⟨md, supply, next, -, hs, -, hn, rfl⟩ := h.written
  have hk := toNat_val h.positive
  refine ⟨balance_add hb.balance (by rw [hn, hk]), ?_⟩
  rw [readTotalSupply_setTotalSupply, Ledger.supply_add_single, hs, hb.supply]
  push_cast
  rw [hk]

/-- A mint credits the recipient and nobody else. -/
lemma Minted.readBalance {a : Address} {n : I128} (h : Minted s a n t) (x : Address) :
    (t.readBalance x).val = (s.readBalance x).val + if x = a then n.val else 0 := by
  obtain ⟨md, supply, next, -, -, -, hn, rfl⟩ := h.written
  rw [readBalance_setTotalSupply, readBalance_setBalance]
  split_ifs with hx
  · rw [hn, hx]
  · rw [add_zero]

/-- An account that holds `n` STAR can give them up. -/
lemma Represents.exists_take {a : Address} {n : I128} (hb : Represents s b) (hpos : 0 < n.val)
    (hle : n.val ≤ (s.readBalance a).val) : ∃ b', b = b' + Finsupp.single a n.val.toNat := by
  apply Ledger.exists_take
  rw [hb.balance a] at hle
  omega

lemma Burned.refines {a : Address} {n : I128} (h : Burned s a n t) (hb : Represents s b) :
    ∃ b', b = b' + Finsupp.single a n.val.toNat ∧ Represents t b' := by
  have hk := toNat_val h.positive
  obtain ⟨b', hb'⟩ := hb.exists_take h.positive h.covered
  obtain ⟨next, supply, hn, hs, rfl⟩ := h.written
  refine ⟨b', hb', balance_take hb.balance hb' (by rw [hn, hk]), ?_⟩
  rw [readTotalSupply_setTotalSupply, hs, hb.supply, hb', Ledger.supply_add_single]
  push_cast
  rw [hk]
  ring

/-- The credit reads the balance that the debit wrote, so a transfer is a move also when the two
accounts are the same. -/
lemma Transferred.refines {a c : Address} {n : I128} {d : Storage}
    (h : Transferred s a c n d t) (hb : Represents s b) :
    ∃ b', b = b' + Finsupp.single a n.val.toNat ∧
      Represents t (b' + Finsupp.single c n.val.toNat) := by
  have hk := toNat_val h.positive
  obtain ⟨b', hb'⟩ := hb.exists_take h.positive h.covered
  obtain ⟨next, hn, rfl⟩ := h.debit
  obtain ⟨next', hn', rfl⟩ := h.credit
  have hd := balance_take hb.balance hb' (by rw [hn, hk])
  refine ⟨b', hb', balance_add hd (by rw [hn', hk]), ?_⟩
  rw [readTotalSupply_setBalance, readTotalSupply_setBalance, hb.supply, hb',
    Ledger.supply_add_single, Ledger.supply_add_single]

lemma SameBooks.represents (h : SameBooks s t) (hb : Represents s b) : Represents t b :=
  hb.congr h.balance h.totalSupply

lemma Drawn.represents {f : Address} {n : I128} (h : Drawn env s f n t)
    (hb : Represents s b) : Represents t b := by
  cases h with
  | own => exact hb
  | allowance sp h =>
    obtain ⟨v, next, -, -, -, -, rfl⟩ := h.written
    exact hb.congr rfl rfl

/-- **Refinement**: whatever a call does to the storage, it does one step on the ledger. -/
theorem Moved.refines (h : Moved env s t) (hb : Represents s b) :
    ∃ b', Ledger.Step b b' ∧ Represents t b' := by
  cases h with
  | still h => exact ⟨b, .none b, h.represents hb⟩
  | approved f sp v hv h => exact ⟨b, .none b, h.represents (hb.congr rfl rfl)⟩
  | minted a n m hm h => exact ⟨_, .issue b a _, h.represents (hm.refines hb)⟩
  | burned a n r m hr hm h =>
    obtain ⟨b', rfl, hm'⟩ := hm.refines (hr.represents hb)
    exact ⟨b', .destroy b' _ _, h.represents hm'⟩
  | transferred a c n r d m hr hm h =>
    obtain ⟨b', rfl, hm'⟩ := hm.refines (hr.represents hb)
    exact ⟨_, .move b' _ _ _, h.represents hm'⟩

/-! ### The cap and the allowances -/

/-- The supply is within the cap that the constructor stored. -/
def Storage.Capped (s : Storage) : Prop :=
  ∃ md, s.metadata = some md ∧ s.readTotalSupply.val ≤ md.maxSupply.val

def Storage.AllowancesNonneg (s : Storage) : Prop :=
  ∀ f sp v, s.allowance f sp = some v → 0 ≤ v.amount.val

lemma SameBooks.capped (h : SameBooks s t) (hc : s.Capped) : t.Capped := by
  obtain ⟨md, hmd, hle⟩ := hc
  refine ⟨md, h.metadata.trans hmd, ?_⟩
  rwa [Storage.readTotalSupply, h.totalSupply]

lemma Drawn.capped {f : Address} {n : I128} (h : Drawn env s f n t) (hc : s.Capped) :
    t.Capped := by
  cases h with
  | own => exact hc
  | allowance sp h =>
    obtain ⟨v, next, -, -, -, -, rfl⟩ := h.written
    exact hc

lemma Moved.capped (h : Moved env s t) (hc : s.Capped) : t.Capped := by
  cases h with
  | still h => exact h.capped hc
  | approved f sp v hv h => exact h.capped hc
  | minted a n m hm h =>
    obtain ⟨md, supply, next, hmd, -, hle, -, rfl⟩ := hm.written
    exact h.capped ⟨md, hmd, hle⟩
  | burned a n r m hr hm h =>
    obtain ⟨md, hmd, hle⟩ := hr.capped hc
    have hpos := hm.positive
    obtain ⟨next, supply, -, hs, rfl⟩ := hm.written
    refine h.capped ⟨md, hmd, ?_⟩
    rw [readTotalSupply_setTotalSupply, hs]
    omega
  | transferred a c n r d m hr hm h =>
    obtain ⟨md, hmd, hle⟩ := hr.capped hc
    obtain ⟨next, -, rfl⟩ := hm.debit
    obtain ⟨next', -, rfl⟩ := hm.credit
    exact h.capped ⟨md, hmd, hle⟩

lemma SameBooks.allowancesNonneg (h : SameBooks s t) (ha : s.AllowancesNonneg) :
    t.AllowancesNonneg := by
  intro f sp v hv
  rw [h.allowance] at hv
  exact ha f sp v hv

lemma setAllowance_allowancesNonneg {f sp : Address} {v : AllowanceValue}
    (hv : 0 ≤ v.amount.val) (ha : s.AllowancesNonneg) :
    (s.setAllowance f sp v).AllowancesNonneg := by
  intro f' sp' v' h
  by_cases hf : f' = f
  · subst hf
    by_cases hsp : sp' = sp
    · subst hsp
      obtain rfl : v = v' := by simpa [Storage.setAllowance] using h
      exact hv
    · exact ha f' sp' v' (by simpa [Storage.setAllowance, hsp] using h)
  · exact ha f' sp' v' (by simpa [Storage.setAllowance, hf] using h)

lemma Drawn.allowancesNonneg {f : Address} {n : I128} (h : Drawn env s f n t)
    (ha : s.AllowancesNonneg) : t.AllowancesNonneg := by
  cases h with
  | own => exact ha
  | allowance sp h =>
    obtain ⟨v, next, -, -, hle, hn, rfl⟩ := h.written
    refine setAllowance_allowancesNonneg ?_ ha
    show 0 ≤ next.val
    omega

lemma Moved.allowancesNonneg (h : Moved env s t) (ha : s.AllowancesNonneg) :
    t.AllowancesNonneg := by
  cases h with
  | still h => exact h.allowancesNonneg ha
  | approved f sp v hv h => exact h.allowancesNonneg (setAllowance_allowancesNonneg hv ha)
  | minted a n m hm h =>
    obtain ⟨md, supply, next, -, -, -, -, rfl⟩ := hm.written
    exact h.allowancesNonneg ha
  | burned a n r m hr hm h =>
    obtain ⟨next, supply, -, -, rfl⟩ := hm.written
    exact h.allowancesNonneg (hr.allowancesNonneg ha)
  | transferred a c n r d m hr hm h =>
    obtain ⟨next, -, rfl⟩ := hm.debit
    obtain ⟨next', -, rfl⟩ := hm.credit
    exact h.allowancesNonneg (hr.allowancesNonneg ha)

/-! ### Reachable states -/

/-- The inductive invariant. -/
structure Inv (s : Storage) : Prop where
  ledger : ∃ b, Represents s b
  capped : s.Capped
  allowances : s.AllowancesNonneg

lemma Inv.exec {e : Entry} (hs : Inv s) (h : (exec e).run env s = .ok (u, t)) : Inv t := by
  have hm := exec_moved h
  obtain ⟨b, hb⟩ := hs.ledger
  obtain ⟨b', -, hb'⟩ := hm.refines hb
  exact ⟨⟨b', hb'⟩, hm.capped hs.capped, hm.allowancesNonneg hs.allowances⟩

lemma Inv.deployed (h : Deployed env s) : Inv s := by
  obtain ⟨adm, name, symbol, cap, h⟩ := h
  obtain ⟨hcap, -, rfl⟩ := run_constructor.mp h
  refine ⟨⟨0, fun a => rfl, by simp [Storage.readTotalSupply, Storage.publish,
    Storage.setMinter, Storage.setAuthorized]⟩, ⟨_, rfl, hcap.le⟩, ?_⟩
  intro f sp v hv
  simp [Storage.publish, Storage.setMinter, Storage.setAuthorized] at hv

theorem inv_of_reachable {c : OnLedger Storage} (h : system.Reachable c) : Inv c.state :=
  contract_invariant (fun _ _ hd => Inv.deployed hd) (fun _ _ _ _ hs hok => hs.exec hok) h

/-- Conservation, as the contract's own storage shows it. -/
structure Conserved (s : Storage) : Prop where
  finite : (Function.support fun a => (s.readBalance a).val).Finite
  supply_eq : s.readTotalSupply.val = ∑ᶠ a, (s.readBalance a).val
  balance_nonneg : ∀ a, 0 ≤ (s.readBalance a).val
  allowance_nonneg : ∀ f sp v, s.allowance f sp = some v → 0 ≤ v.amount.val
  supply_nonneg : 0 ≤ s.readTotalSupply.val
  supply_le_max : ∃ md, s.metadata = some md ∧ s.readTotalSupply.val ≤ md.maxSupply.val

/-- The arithmetic failures that cannot happen: where an entrypoint reaches a balance write or
the supply write of a burn, the checked operation succeeds. -/
structure ArithmeticSafe (s : Storage) : Prop where
  /-- `mint` and `mint_from_minter`: the cap check comes first. -/
  mint : ∀ env a n next r, 0 < n.val → (nextSupply n).run env s = .ok (next, r) →
    ∃ t, (addBalance a n).run env r = .ok ((), t)
  /-- `transfer_internal`: the debit comes first. -/
  transfer : ∀ env f a n d, 0 < n.val → (subBalance f n).run env s = .ok ((), d) →
    ∃ t, (addBalance a n).run env d = .ok ((), t)
  /-- `burn_internal`: the debit comes first. -/
  burn : ∀ env f n d, 0 < n.val → (subBalance f n).run env s = .ok ((), d) →
    ∃ supply, d.readTotalSupply.checkedSub n = some supply

/-- A transfer within one account leaves its balance as it was. -/
structure SelfTransferNeutral (s : Storage) : Prop where
  transfer : ∀ env a mux n t, (StarToken.transfer a ⟨a, mux⟩ n).run env s = .ok ((), t) →
    t.readBalance a = s.readBalance a
  transferFrom : ∀ env sp a n t, (StarToken.transferFrom sp a a n).run env s = .ok ((), t) →
    t.readBalance a = s.readBalance a

lemma Inv.conserved (h : Inv s) : Conserved s := by
  obtain ⟨b, hb⟩ := h.ledger
  refine ⟨Ledger.finite_support hb.balance, ?_, fun a => ?_, h.allowances, ?_, h.capped⟩
  · rw [Ledger.finsum_eq_supply hb.balance, hb.supply]
  · rw [hb.balance a]
    exact Int.natCast_nonneg _
  · rw [hb.supply]
    exact Int.natCast_nonneg _

lemma exists_i128 {z : ℤ} (bound : I128) (h0 : 0 ≤ z) (hb : z ≤ bound.val) :
    ∃ n : I128, n.val = z :=
  ⟨⟨z, by omega, lt_of_le_of_lt hb bound.upper⟩, rfl⟩

lemma Inv.arithmeticSafe (h : Inv s) : ArithmeticSafe s := by
  obtain ⟨b, hb⟩ := h.ledger
  obtain ⟨md, hmd, hcap⟩ := h.capped
  refine ⟨?_, ?_, ?_⟩
  · intro env a n next r hn hr
    obtain ⟨⟨md', -, hs, hle⟩, rfl⟩ := run_nextSupply.mp hr
    have hbal := hb.balance a
    have hle' := Ledger.le_supply b a
    have hsup := hb.supply
    obtain ⟨m, hm⟩ := exists_i128 (z := (r.readBalance a).val + n.val) md'.maxSupply
      (by omega) (by omega)
    exact ⟨_, run_addBalance.mpr ⟨m, hm, rfl⟩⟩
  · intro env f a n d hn hd
    obtain ⟨hle, next, hnext, rfl⟩ := run_subBalance.mp hd
    have hk := toNat_val hn
    obtain ⟨b', hb'⟩ := hb.exists_take hn hle
    -- what is left plus what was taken is at most the supply, whichever account it goes to
    have hd := balance_take hb.balance hb' (by rw [hnext, hk]) a
    have hle' := Ledger.le_supply b' a
    have hsup := hb.supply
    rw [hb', Ledger.supply_add_single] at hsup
    obtain ⟨m, hm⟩ := exists_i128 (z := ((s.setBalance f next).readBalance a).val + n.val)
      md.maxSupply (by omega) (by omega)
    exact ⟨_, run_addBalance.mpr ⟨m, hm, rfl⟩⟩
  · intro env f n d hn hd
    obtain ⟨hle, next, -, rfl⟩ := run_subBalance.mp hd
    have hbal := hb.balance f
    have hle' := Ledger.le_supply b f
    have hsup := hb.supply
    obtain ⟨m, hm⟩ := exists_i128 (z := s.readTotalSupply.val - n.val) md.maxSupply
      (by omega) (by omega)
    exact ⟨m, I128.checkedSub_eq_some.mpr hm⟩

lemma Transferred.self_balance {a : Address} {n : I128} {d : Storage}
    (h : Transferred s a a n d t) : t.readBalance a = s.readBalance a := by
  obtain ⟨next, hn, rfl⟩ := h.debit
  obtain ⟨next', hn', rfl⟩ := h.credit
  rw [readBalance_setBalance, if_pos rfl] at hn' ⊢
  apply I128.ext
  omega

lemma selfTransferNeutral (s : Storage) : SelfTransferNeutral s := by
  refine ⟨?_, ?_⟩
  · intro env a mux n t h
    obtain ⟨-, -, d, m, hm, rfl⟩ := run_transfer.mp h
    exact hm.self_balance
  · intro env sp a n t h
    obtain ⟨-, -, r, d, m, hr, hm, rfl⟩ := run_transferFrom.mp h
    obtain ⟨v, next, -, -, -, -, rfl⟩ := hr.written
    exact hm.self_balance

lemma Inv.spent {f sp : Address} {n : I128} (hs : Inv s) (h : Spent env s f sp n t) : Inv t := by
  have hd : Drawn env s f n t := .allowance sp h
  obtain ⟨b, hb⟩ := hs.ledger
  exact ⟨⟨b, hd.represents hb⟩, hd.capped hs.capped, hd.allowancesNonneg hs.allowances⟩

/-- **STAR conservation.** In every reachable state the supply is the sum of all balances and
within the cap, nothing is negative, no movement fails on arithmetic (also after an allowance
was spent for it), and a transfer to oneself changes nothing. -/
theorem star_conservation {c : OnLedger Storage} (h : system.Reachable c) :
    Conserved c.state ∧ ArithmeticSafe c.state ∧
      (∀ env f sp n r, (spendAllowance f sp n).run env c.state = .ok ((), r) →
        ArithmeticSafe r) ∧
      SelfTransferNeutral c.state := by
  have hs := inv_of_reachable h
  refine ⟨hs.conserved, hs.arithmeticSafe, ?_, selfTransferNeutral _⟩
  intro env f sp n r hr
  exact (hs.spent (run_spendAllowance.mp hr)).arithmeticSafe

/-! ### A deployment with a cap of 1000 and one mint of 40 to account 7 -/

def sampleEnv (ledger : Nat) : Env :=
  { ledger, signed := fun _ => true, invoker := none, self := ⟨100⟩ }

def sampleDeployed : Storage :=
  (constructor ⟨1⟩ "STAR" "STAR" (.lit 1000)).commit (sampleEnv 5) {}

def sampleMinted : Storage := (exec (.mint ⟨7⟩ (.lit 40))).commit (sampleEnv 6) sampleDeployed

lemma sampleDeployed_reachable : system.Reachable ⟨5, sampleDeployed⟩ :=
  .init ⟨sampleEnv 5, ⟨⟨1⟩, "STAR", "STAR", .lit 1000, rfl⟩, rfl⟩

theorem star_conservation_after_mint :
    sampleMinted.readTotalSupply.val = 40 ∧ Conserved sampleMinted :=
  ⟨by decide, (star_conservation (contract_reachable_call sampleDeployed_reachable
    (sampleEnv 6) (.mint ⟨7⟩ (.lit 40)) (by decide))).1⟩

end PayEra.StarToken
