import PayEra.PaymentEngine.Rewards
import PayEra.PaymentEngine.Terminal

/-!
# Rewards of payments that did not go through

What `issue_reward` minted for a payment is what its record says, in every run. A payment that is
cancelled has not been rewarded yet; but `fail_payment` takes a rewarded payment as well, and the
STAR stay where they are.
-/

namespace PayEra.PaymentEngine.Rewards

open Soroban Soroban.Call Transition
open RewardEngine (starBalance)

/-- What a transition minted to an account through `issue_reward` for a payment. -/
def mintedThrough (D : Deployment) (id : Bytes32) (a : Address)
    (m : Move (OnLedger World) Label) : ℤ :=
  match m.label with
  | .payment _ _ (.issueReward _ paymentId) =>
    if paymentId = id then
      starBalance m.post.state.peers D.starToken a - starBalance m.pre.state.peers D.starToken a
    else 0
  | _ => 0

/-- What a run minted to an account through `issue_reward` for a payment. -/
def totalMintedThrough (D : Deployment) (id : Bytes32) (a : Address)
    (tr : List (Move (OnLedger World) Label)) : ℤ := (tr.map (mintedThrough D id a)).sum

/-- A payment that failed or was cancelled has no reward, and nothing was minted for it. -/
def Unrewarded (D : Deployment) (id : Bytes32) (tr : List (Move (OnLedger World) Label))
    (c : OnLedger World) : Prop :=
  ∀ p, c.state.own.payment id = some p → p.status = .failed ∨ p.status = .cancelled →
    p.starReward = 0 ∧ ∀ a, totalMintedThrough D id a tr = 0

/-- An operator fails a payment that has been rewarded with STAR. -/
def FailsRewarded (id : Bytes32) (m : Move (OnLedger World) Label) : Prop :=
  ∃ env approved operator p, m.label = .payment env approved (.failPayment operator id) ∧
    Operates env m.pre.state.own operator ∧ m.pre.state.own.payment id = some p ∧
    p.status = .rewarded ∧ p.starReward ≠ 0

variable {D : Deployment} {env : Env} {approved : Option Bool} {id : Bytes32} {a : Address}
  {w w' : World} {c₀ c d : OnLedger World} {l : Label} {tr : List (Move (OnLedger World) Label)}

/-! ### What was minted is on record -/

/-- What the record of a payment says that an account was minted. -/
def onRecord (a : Address) : Option PaymentRecord → ℤ
  | some p => if a = p.payer then p.starReward.val else 0
  | none => 0

lemma onRecord_of_zero {p : PaymentRecord} (h : p.starReward = 0) : onRecord a (some p) = 0 := by
  rw [onRecord, h]
  exact ite_self _

/-- A write other than by `issue_reward` keeps payer and reward. -/
lemma onRecord_of_written {s : Storage} {e : Entry} {r' : PaymentRecord}
    (h : Written env s e id r') (hne : ∀ operator, e ≠ .issueReward operator id) (a : Address) :
    onRecord a (some r') = onRecord a (s.payment id) := by
  cases h with
  | created _ _ hnone =>
    rw [hnone]
    exact onRecord_of_zero rfl
  | quoted _ _ hr _ =>
    rw [hr]
    rfl
  | advanced _ hr _ =>
    rw [hr]
    rfl
  | rewarded => exact absurd rfl (hne _)
  | cancelled _ hr _ _ =>
    rw [hr]
    rfl
  | failed _ hr _ =>
    rw [hr]
    rfl

/-- `issue_reward` mints what it writes. -/
lemma onRecord_of_issueReward {operator : Address} {n : I128} (hinv : Inv D w) (hfix : Fixed D w)
    (h : (issueReward (clients D approved) operator id).run env w = .ok (n, w')) (a : Address) :
    onRecord a (w.own.payment id) + (starBalance w'.peers D.starToken a -
      starBalance w.peers D.starToken a) = onRecord a (w'.own.payment id) := by
  obtain ⟨hop, p, eng, hp, hst, heng, hn, hw'⟩ := run_issueReward.mp h
  obtain rfl : eng = D.rewardEngine := Option.some.inj (heng.symm.trans hfix.rewardEngine)
  have hzero : p.starReward = 0 := hinv.early _ p hp (.inr (.inr (.inr hst)))
  have hrecord : w'.own.payment id =
      some { p with starReward := n, status := .rewarded, updatedLedger := env.ledger } := by
    have hkey := hinv.keyed _ _ hp
    subst hkey
    rw [hw']
    exact Function.update_self ..
  have hpeers : w'.peers =
      afterTry (rewardReply (clients D approved) env w.peers D.rewardEngine p) w.peers := by
    rw [hw']
  rw [hp, hrecord, onRecord_of_zero hzero, zero_add]
  cases hreply : rewardReply (clients D approved) env w.peers D.rewardEngine p with
  | none =>
    rw [hreply] at hn hpeers
    have hsame : w'.peers = w.peers := hpeers
    rw [hsame, sub_self]
    exact (onRecord_of_zero hn).symm
  | some reply =>
    obtain ⟨m, ws'⟩ := reply
    rw [hreply] at hn hpeers
    obtain rfl : n = m := hn
    have hsome : w'.peers = ws' := hpeers
    have hissued := rewardReply_eq_some.mp hreply
    rw [← hsome] at hissued
    have hgrants := grants_of_issued hfix.starToken hissued
    rw [hgrants.balance a, add_sub_cancel_left]
    rfl

lemma mintedThrough_issueReward (env : Env) (approved : Option Bool) (operator : Address)
    (paymentId : Bytes32) :
    mintedThrough D id a ⟨c, .payment env approved (.issueReward operator paymentId), d⟩ =
      if paymentId = id then
        starBalance d.state.peers D.starToken a - starBalance c.state.peers D.starToken a
      else 0 := rfl

lemma mintedThrough_of_ne (env : Env) (approved : Option Bool) {e : Entry}
    (hne : ∀ operator, e ≠ .issueReward operator id) :
    mintedThrough D id a ⟨c, .payment env approved e, d⟩ = 0 := by
  cases e with
  | issueReward operator paymentId =>
    rw [mintedThrough_issueReward, if_neg]
    rintro rfl
    exact hne operator rfl
  | _ => rfl

lemma mintedThrough_of_peers (l : Label) (hpeers : d.state.peers = c.state.peers) :
    mintedThrough D id a ⟨c, l, d⟩ = 0 := by
  unfold mintedThrough
  split
  · show (if _ then starBalance d.state.peers D.starToken a -
      starBalance c.state.peers D.starToken a else 0) = 0
    rw [hpeers, sub_self, ite_self]
  · rfl

/-- One transition. -/
lemma onRecord_step (hreach : (system D).Reachable c) (h : (system D).Step c l d) (id : Bytes32)
    (a : Address) :
    onRecord a (c.state.own.payment id) + mintedThrough D id a ⟨c, l, d⟩ =
      onRecord a (d.state.own.payment id) := by
  have hinv := inv_of_reachable hreach
  have hfix := fixed_of_reachable hreach
  obtain ⟨-, -, hstep, -⟩ := h
  cases l with
  | peer l =>
    rw [hstep.2.1]
    exact add_zero _
  | payment env approved e =>
    obtain ⟨-, hstate⟩ := hstep
    rcases commit_cases (exec (clients D approved) e) env c.state with ⟨u, hok⟩ | heq
    · rw [← hstate] at hok
      by_cases hissue : ∃ operator, e = .issueReward operator id
      · obtain ⟨operator, rfl⟩ := hissue
        obtain ⟨n, hn⟩ := run_void.mp hok
        have hgrows := onRecord_of_issueReward hinv hfix hn a
        rw [← hgrows, mintedThrough_issueReward, if_pos rfl]
      · have hne : ∀ operator, e ≠ .issueReward operator id := fun operator he =>
          hissue ⟨operator, he⟩
        rw [mintedThrough_of_ne env approved hne, add_zero]
        rcases exec_effect hok with hsame | ⟨id', r', hw, hwrote⟩
        · rw [hsame.payment]
        · have hkey := hw.keyed hinv.keyed
          rw [hwrote.payment, hkey]
          by_cases hid : id = id'
          · subst hid
            rw [Function.update_self]
            exact (onRecord_of_written hw hne a).symm
          · rw [Function.update_of_ne hid]
    · have hsame : d.state = c.state := hstate.trans heq
      rw [mintedThrough_of_peers _ (by rw [hsame]), add_zero, hsame]

/-- What was minted through `issue_reward` is on record. -/
lemma totalMintedThrough_eq (h₀ : (system D).Init c₀) (h : (system D).Run c₀ tr c) (id : Bytes32)
    (a : Address) : totalMintedThrough D id a tr = onRecord a (c.state.own.payment id) := by
  refine h.invariant (P := fun tr c => totalMintedThrough D id a tr =
    onRecord a (c.state.own.payment id)) h₀ ?_ ?_
  · obtain ⟨env, env', ⟨adm, registry, eng, hd⟩, -, -, -⟩ := h₀
    obtain ⟨-, hown⟩ := run_constructor.mp hd
    rw [hown]
    rfl
  · intro tr t l u hreach ih hstep
    rw [← onRecord_step hreach hstep id a, ← ih, totalMintedThrough, List.map_append,
      List.sum_append, List.map_singleton, List.sum_singleton, totalMintedThrough]

/-! ### Payments that did not go through -/

/-- A payment that failed or was cancelled has no reward on record. -/
def Forfeited (id : Bytes32) (w : World) : Prop :=
  ∀ p, w.own.payment id = some p → p.status = .failed ∨ p.status = .cancelled → p.starReward = 0

/-- What a write that does not fail a rewarded payment leaves. -/
lemma Written.forfeited {e : Entry} {r' : PaymentRecord} (h : Written env w.own e id r')
    (hinv : Inv D w) (hw : Forfeited id w)
    (hno : ∀ operator p, e = .failPayment operator id → Operates env w.own operator →
      w.own.payment id = some p → p.status = .rewarded → p.starReward = 0)
    (hst' : r'.status = .failed ∨ r'.status = .cancelled) : r'.starReward = 0 := by
  cases h with
  | created => simp [freshPayment] at hst'
  | quoted => simp at hst'
  | advanced _ _ hst =>
    rcases hst with ⟨-, rfl, -⟩ | ⟨-, rfl, -⟩ | ⟨-, rfl, -⟩ <;> simp at hst'
  | rewarded => simp at hst'
  | @cancelled _ r _ hr _ hst =>
    have hearly : Early r.status := hst.imp_right .inl
    exact hinv.early id r hr hearly
  | @failed operator _ r hop hr hst =>
    show r.starReward = 0
    cases hstatus : r.status with
    | completed => exact absurd hstatus hst.1
    | cancelled => exact absurd hstatus hst.2
    | failed => exact hw r hr (.inl hstatus)
    | rewarded => exact hno operator r rfl hop hr hstatus
    | _ => exact hinv.early id r hr (by simp [Early, hstatus])

lemma forfeited_step (hreach : (system D).Reachable c) (h : (system D).Step c l d)
    (hc : Forfeited id c.state) (hno : ¬FailsRewarded id ⟨c, l, d⟩) : Forfeited id d.state := by
  have hinv := inv_of_reachable hreach
  obtain ⟨-, -, hstep, -⟩ := h
  cases l with
  | peer l =>
    rw [Forfeited, hstep.2.1]
    exact hc
  | payment env approved e =>
    obtain ⟨-, hstate⟩ := hstep
    rcases commit_cases (exec (clients D approved) e) env c.state with ⟨u, hok⟩ | heq
    · rw [← hstate] at hok
      rcases exec_effect hok with hsame | ⟨id', r', hw, hwrote⟩
      · rw [Forfeited, hsame.payment]
        exact hc
      · have hkey := hw.keyed hinv.keyed
        intro p hp hst
        rw [hwrote.payment, hkey] at hp
        by_cases hid : id = id'
        · subst hid
          rw [Function.update_self] at hp
          obtain rfl := Option.some.inj hp
          refine Written.forfeited hw hinv hc ?_ hst
          intro operator p he hop hp hrewarded
          by_contra hne
          exact hno ⟨env, approved, operator, p, by rw [he], hop, hp, hrewarded, hne⟩
        · rw [Function.update_of_ne hid] at hp
          exact hc p hp hst
    · rw [hstate, heq]
      exact hc

lemma forfeited_of_run (h₀ : (system D).Init c₀) (h : (system D).Run c₀ tr c)
    (hno : ∀ m ∈ tr, ¬FailsRewarded id m) : Forfeited id c.state := by
  induction h with
  | nil =>
    obtain ⟨env, env', ⟨adm, registry, eng, hd⟩, -, -, -⟩ := h₀
    obtain ⟨-, hown⟩ := run_constructor.mp hd
    intro p hp
    rw [hown] at hp
    cases hp
  | @snoc e d tr l hrun hstep ih =>
    refine forfeited_step (hrun.reachable h₀) hstep ?_ ?_
    · exact ih fun m hm => hno m (List.mem_append_left _ hm)
    · exact hno _ (List.mem_append_right _ (List.mem_singleton_self _))

/-- Failing a rewarded payment leaves its reward. -/
lemma FailsRewarded.not_forfeited (h : (system D).Step c l d) (hfails : FailsRewarded id ⟨c, l, d⟩)
    (hkeyed : Keyed c.state.own) : ¬Forfeited id d.state := by
  obtain ⟨env, approved, operator, p, rfl, hop, hp, hst, hne⟩ := hfails
  obtain ⟨-, -, ⟨-, hstate⟩, -⟩ := h
  have hnot : p.status ≠ .completed ∧ p.status ≠ .cancelled := by
    rw [hst]
    exact ⟨nofun, nofun⟩
  obtain ⟨t, hok, hwrote⟩ := run_failPayment_of_operates (clients D approved) hop hp hnot
  have hd : d.state = t := hstate.trans (commit_of_ok hok)
  have hkey : p.paymentId = id := hkeyed id p hp
  intro hforfeited
  refine hne (hforfeited { p with status := .failed, updatedLedger := env.ledger } ?_ (.inl rfl))
  rw [hd, hwrote.payment]
  show Function.update _ p.paymentId _ id = _
  rw [hkey, Function.update_self]

/-- **No reward for a payment that did not go through**, in every state that a run passes through,
if and only if the run fails no payment that has been rewarded with STAR. -/
theorem unrewarded_iff (D : Deployment) (id : Bytes32) (c₀ c : OnLedger World)
    (tr : List (Move (OnLedger World) Label)) (h₀ : (system D).Init c₀)
    (h : (system D).Run c₀ tr c) :
    (∀ tr₁ d, tr₁ <+: tr → (system D).Run c₀ tr₁ d → Unrewarded D id tr₁ d) ↔
      ∀ m ∈ tr, ¬FailsRewarded id m := by
  constructor
  · intro hall m hm hfails
    obtain ⟨tr₁, tr₂, rfl, hrun, hstep⟩ := h.split_of_mem hm
    have hrun' : (system D).Run c₀ (tr₁ ++ [m]) m.post := hrun.snoc hstep
    refine hfails.not_forfeited hstep (inv_of_reachable (hrun.reachable h₀)).keyed ?_
    intro p hp hst
    exact (hall (tr₁ ++ [m]) m.post ⟨tr₂, by simp⟩ hrun' p hp hst).1
  · rintro hno tr₁ d ⟨tr₂, rfl⟩ hrun p hp hst
    have hforfeited := forfeited_of_run h₀ hrun fun m hm => hno m (List.mem_append_left _ hm)
    have hzero := hforfeited p hp hst
    refine ⟨hzero, fun a => ?_⟩
    rw [totalMintedThrough_eq h₀ hrun, hp, onRecord_of_zero hzero]

/-- A payment that its payer cancels. -/
theorem unrewarded_iff_of_cancelled_payment :
    ∃ tr c, (system sampleDeployment).Run sampleStart tr c ∧
      (c.state.own.payment (.fill 1)).map (·.status) = some .cancelled ∧
      Unrewarded sampleDeployment (.fill 1) tr c := by
  have h : (system sampleDeployment).Run sampleStart [] sampleStart := .nil sampleStart
  have h := run_payment h (sampleEnv ⟨40⟩) (some true) (.createPayment ⟨1⟩ ⟨1⟩ (.fill 1) (.fill 2)
    .XLM (.lit 15000) (.fill 3) (.fill 4)) (by decide +kernel) rfl
    ⟨by decide +kernel, by decide +kernel⟩
  have h := run_payment h (sampleEnv ⟨40⟩) none (.cancelPayment ⟨1⟩ (.fill 1))
    (by decide +kernel) rfl ⟨by decide +kernel, by decide +kernel⟩
  refine ⟨_, _, h, by decide +kernel, (unrewarded_iff sampleDeployment (.fill 1) _ _ _
    sampleStart_init h).mpr ?_ _ _ List.prefix_rfl h⟩
  rintro m hm ⟨env, approved, operator, p, hl, -⟩
  simp only [List.nil_append, List.cons_append, List.mem_cons, List.not_mem_nil, or_false] at hm
  rcases hm with rfl | rfl
  · cases hl
  · cases hl

/-- An operator fails the payment that earned 10 STAR. -/
theorem failed_payment_keeps_reward :
    ¬∀ (D : Deployment) (id : Bytes32) (c₀ c : OnLedger World)
      (tr : List (Move (OnLedger World) Label)), (system D).Init c₀ → (system D).Run c₀ tr c →
      Unrewarded D id tr c := by
  intro hall
  obtain ⟨tr, h, -⟩ := sampleRewarded_run
  have h := run_payment h (sampleEnv ⟨40⟩) none (.failPayment ⟨1⟩ (.fill 1)) (by decide +kernel) rfl
    ⟨by decide +kernel, by decide +kernel⟩
  have hzero := (hall _ (.fill 1) _ _ _ sampleStart_init h
    ((((exec (clients sampleDeployment none) (.failPayment ⟨1⟩ (.fill 1))).commit (sampleEnv ⟨40⟩)
      sampleRewarded.state).own.payment (.fill 1)).get (by decide +kernel))
    (by decide +kernel) (.inl (by decide +kernel))).1
  exact absurd hzero (by decide +kernel)

end PayEra.PaymentEngine.Rewards
