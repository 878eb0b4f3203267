import PayEra.StarToken.Conservation
import PayEra.StarToken.Roles

/-!
# What authority moves STAR

An account whose `Authorized` flag is false is frozen: whoever calls, the books have nothing new
on it. An admin who handed the role on keeps one power, to draw on the allowances that others
gave, since the entrypoints that spend an allowance never look at the spender's own flag.
-/

namespace PayEra.StarToken

open Soroban Soroban.Call Transition

variable {env : Env} {s t : Storage} {u : Unit} {x : Address} {c d : OnLedger Storage}
  {l : Env × Entry} {tr : List (Move (OnLedger Storage) (Env × Entry))}

/-- A transition of STAR is a call that returned, or it leaves the storage. -/
lemma moves (h : system.Step c l d) :
    host.called ⟨c, l, d⟩ = none ∧ d.state = c.state ∨
      ∃ env e, host.called ⟨c, l, d⟩ = some (env, e) ∧
        (exec e).run env c.state = .ok ((), d.state) :=
  Hosted.moves (H := host) h

/-- On a ledger of its own every transition of STAR is a call. -/
lemma label_of_called {m : Move (OnLedger Storage) (Env × Entry)} {e : Entry}
    (h : host.called m = some (env, e)) : m.label = (env, e) :=
  Option.some.inj (Hosted.call_of_called h)

/-! ### Frozen accounts -/

/-- The books have nothing new on an account: its balance, and what it allows others. -/
structure Untouched (x : Address) (s t : Storage) : Prop where
  balance : t.balance x = s.balance x
  allowance : t.allowance x = s.allowance x

lemma Untouched.refl (x : Address) (s : Storage) : Untouched x s s := ⟨rfl, rfl⟩

lemma Untouched.trans {r : Storage} (h : Untouched x s r) (h' : Untouched x r t) :
    Untouched x s t := ⟨h'.balance.trans h.balance, h'.allowance.trans h.allowance⟩

lemma SameBooks.untouched (h : SameBooks s t) (x : Address) : Untouched x s t := by
  refine ⟨?_, ?_⟩
  · rw [h.balance]
  · rw [h.allowance]

lemma untouched_setBalance {a : Address} {n : I128} (hx : x ≠ a) :
    Untouched x s (s.setBalance a n) := ⟨Function.update_of_ne hx _ _, rfl⟩

lemma untouched_setAllowance {a b : Address} {v : AllowanceValue} (hx : x ≠ a) :
    Untouched x s (s.setAllowance a b v) := ⟨rfl, Function.update_of_ne hx _ _⟩

/-- Who is authorized is not the frozen account. -/
lemma ne_of_frozen {a : Address} (hx : s.isAuthorized x = false) (ha : s.isAuthorized a = true) :
    x ≠ a := by
  rintro rfl
  rw [hx] at ha
  cases ha

lemma Minted.untouched {a : Address} {n : I128} (h : Minted s a n t)
    (hx : s.isAuthorized x = false) : Untouched x s t := by
  obtain ⟨md, supply, next, -, -, -, -, rfl⟩ := h.written
  have hu := untouched_setBalance (s := s) (n := next) (ne_of_frozen hx h.authorized)
  exact ⟨hu.balance, hu.allowance⟩

lemma Burned.untouched {a : Address} {n : I128} (h : Burned s a n t)
    (hx : s.isAuthorized x = false) : Untouched x s t := by
  obtain ⟨next, supply, -, -, rfl⟩ := h.written
  have hu := untouched_setBalance (s := s) (n := next) (ne_of_frozen hx h.authorized)
  exact ⟨hu.balance, hu.allowance⟩

lemma Transferred.untouched {a b : Address} {n : I128} {m : Storage}
    (h : Transferred s a b n m t) (hx : s.isAuthorized x = false) : Untouched x s t := by
  obtain ⟨next, -, rfl⟩ := h.debit
  obtain ⟨next', -, rfl⟩ := h.credit
  exact (untouched_setBalance (ne_of_frozen hx h.from_authorized)).trans
    (untouched_setBalance (ne_of_frozen hx h.to_authorized))

/-- An allowance is spent on an account that the movement then finds authorized. -/
lemma Spent.untouched {a b : Address} {n : I128} (h : Spent env s a b n t) (hx : x ≠ a) :
    Untouched x s t := by
  obtain ⟨v, next, -, -, -, -, rfl⟩ := h.written
  exact untouched_setAllowance hx

/-- No call credits or debits a frozen account, or lets others draw on it. -/
lemma Booked.untouched {e : Entry} (h : Booked env s e t) (hx : s.isAuthorized x = false) :
    Untouched x s t := by
  cases h with
  | still _ h => exact h.untouched x
  | approved _ _ hfrom _ h =>
    exact (untouched_setAllowance (ne_of_frozen hx hfrom)).trans (h.untouched x)
  | minted _ hm h => exact (hm.untouched hx).trans (h.untouched x)
  | transferred _ hm h => exact (hm.untouched hx).trans (h.untouched x)
  | transferredFrom _ hr hm h =>
    have hfrom := hm.from_authorized
    rw [hr.sameRoles.isAuthorized] at hfrom
    have hx' := hr.sameRoles.isAuthorized x ▸ hx
    exact ((hr.untouched (ne_of_frozen hx hfrom)).trans (hm.untouched hx')).trans (h.untouched x)
  | burned _ _ hm h => exact (hm.untouched hx).trans (h.untouched x)
  | burnedFrom _ hr hm h =>
    have hfrom := hm.authorized
    rw [hr.sameRoles.isAuthorized] at hfrom
    have hx' := hr.sameRoles.isAuthorized x ▸ hx
    exact ((hr.untouched (ne_of_frozen hx hfrom)).trans (hm.untouched hx')).trans (h.untouched x)

/-- **Frozen account.** Along every stretch of a run in which the account's `Authorized` flag is
false, its balance stays, and so does what it allows others. -/
theorem frozen_account (x : Address) (c d : OnLedger Storage)
    (tr : List (Move (OnLedger Storage) (Env × Entry))) (h : system.Run c tr d)
    (hfrozen : ∀ m ∈ tr, m.pre.state.isAuthorized x = false) :
    (∀ m ∈ tr, Untouched x m.pre.state m.post.state) ∧ Untouched x c.state d.state := by
  induction h with
  | nil => exact ⟨by simp, .refl x _⟩
  | @snoc e d tr l hrun hstep ih =>
    obtain ⟨hmoves, hends⟩ := ih fun m hm => hfrozen m (List.mem_append_left _ hm)
    have hx : e.state.isAuthorized x = false :=
      hfrozen ⟨e, l, d⟩ (List.mem_append_right _ (List.mem_singleton_self _))
    have hlast : Untouched x e.state d.state := by
      rcases moves hstep with ⟨-, heq⟩ | ⟨env, i, -, hok⟩
      · rw [heq]
        exact .refl x _
      · exact (exec_booked hok).untouched hx
    refine ⟨fun m hm => ?_, hends.trans hlast⟩
    rcases List.mem_append.mp hm with hm | hm
    · exact hmoves m hm
    · obtain rfl := List.mem_singleton.mp hm
      exact hlast

/-- Account 9 is frozen; what is minted to it does not arrive. -/
theorem frozen_account_of_mint :
    Untouched ⟨9⟩ ((exec (.setAuthorized ⟨9⟩ false)).commit (sampleEnv 6) sampleMinted)
      ((exec (.mint ⟨9⟩ (.lit 5))).commit (sampleEnv 7)
        ((exec (.setAuthorized ⟨9⟩ false)).commit (sampleEnv 6) sampleMinted)) := by
  have hstep : system.Step
      ⟨6, (exec (.setAuthorized ⟨9⟩ false)).commit (sampleEnv 6) sampleMinted⟩
      (sampleEnv 7, .mint ⟨9⟩ (.lit 5))
      ⟨7, (exec (.mint ⟨9⟩ (.lit 5))).commit (sampleEnv 7)
        ((exec (.setAuthorized ⟨9⟩ false)).commit (sampleEnv 6) sampleMinted)⟩ :=
    ⟨by decide, rfl, rfl⟩
  refine (frozen_account ⟨9⟩ _ _ _ (.single hstep) fun m hm => ?_).2
  obtain rfl := List.mem_singleton.mp hm
  decide

/-! ### The admin who handed the role on -/

/-- The calls that give an address a role: a flag, or the admin's. -/
def Reinstates (a : Address) (m : Move (OnLedger Storage) (Env × Entry)) : Prop :=
  m.post.state.admin = some a ∨ ∃ env, host.called m = some (env, .setMinter a true) ∨
    host.called m = some (env, .setAuthorized a true)

/-- Nobody else authorizes the call. -/
def SoleSigner (a : Address) (env : Env) : Prop := ∀ x, env.auth x = true → x = a

/-- Same supply, and the same balance of every account. -/
structure SameFunds (s t : Storage) : Prop where
  supply : t.readTotalSupply = s.readTotalSupply
  balance : ∀ x, t.readBalance x = s.readBalance x

/-- What drawing on an allowance that was given to `a` needs. -/
structure Drawable (a : Address) (env : Env) (s : Storage) (fromAddr : Address) (n : I128) :
    Prop where
  live : s.Live
  signed : env.auth a = true
  positive : 0 < n.val
  allowed : ∃ v, s.allowance fromAddr a = some v ∧ env.ledger ≤ v.expirationLedger ∧
    n.val ≤ v.amount.val
  unfrozen : s.isAuthorized fromAddr = true
  covered : n.val ≤ (s.readBalance fromAddr).val

/-- The calls that draw on an allowance that was given to `a`. Of the flag of `a` itself they ask
nothing. -/
inductive Draws (a : Address) (env : Env) (s : Storage) : Entry → Prop where
  | transfer {fromAddr toAddr : Address} {n : I128} (h : Drawable a env s fromAddr n)
      (hto : s.isAuthorized toAddr = true) (hne : fromAddr ≠ toAddr) :
      Draws a env s (.transferFrom a fromAddr toAddr n)
  | burn {fromAddr : Address} {n : I128} (h : Drawable a env s fromAddr n) :
      Draws a env s (.burnFrom a fromAddr n)

/-- An address without any role. -/
structure Stripped (a : Address) (s : Storage) : Prop where
  admin : s.admin ≠ some a
  minter : s.isMinter a = false
  frozen : s.isAuthorized a = false

variable {a : Address}

lemma SameFunds.refl (s : Storage) : SameFunds s s := ⟨rfl, fun _ => rfl⟩

lemma SameBooks.sameFunds (h : SameBooks s t) : SameFunds s t := by
  refine ⟨?_, fun x => ?_⟩
  · rw [Storage.readTotalSupply, Storage.readTotalSupply, h.totalSupply]
  · rw [Storage.readBalance, Storage.readBalance, h.balance]

/-- Only the calls that reinstate give a stripped address a role. -/
lemma Ruled.stripped {e : Entry} (h : Ruled env s e t) (hs : Stripped a s)
    (hadm : t.admin ≠ some a) (hminter : e ≠ .setMinter a true)
    (hauth : e ≠ .setAuthorized a true) : Stripped a t := by
  cases h with
  | still _ h =>
    exact ⟨hadm, by rw [h.isMinter, hs.minter], by rw [h.isAuthorized, hs.frozen]⟩
  | proposed _ _ h =>
    refine ⟨hadm, ?_, ?_⟩
    · rw [h.isMinter]
      exact hs.minter
    · rw [h.isAuthorized]
      exact hs.frozen
  | @accepted old pending _ _ _ _ h =>
    have hne : a ≠ pending := by
      rintro rfl
      rw [h.admin, admin_handOver] at hadm
      exact hadm rfl
    refine ⟨hadm, ?_, ?_⟩
    · rw [h.isMinter, isMinter_handOver, if_neg hne, hs.minter, ite_self]
    · rw [h.isAuthorized, isAuthorized_handOver, if_neg hne, hs.frozen, ite_self]
  | @minterSet _ x enabled _ _ _ h =>
    cases enabled with
    | false =>
      refine ⟨hadm, ?_, ?_⟩
      · rw [h.isMinter, if_neg Bool.false_ne_true, isMinter_setMinter, hs.minter, ite_self]
      · rw [h.isAuthorized, if_neg Bool.false_ne_true, isAuthorized_setMinter, hs.frozen]
    | true =>
      have hne : a ≠ x := by
        rintro rfl
        exact hminter rfl
      refine ⟨hadm, ?_, ?_⟩
      · rw [h.isMinter, if_pos rfl, isMinter_setAuthorized, isMinter_setMinter, if_neg hne,
          hs.minter]
      · rw [h.isAuthorized, if_pos rfl, isAuthorized_setAuthorized, if_neg hne,
          isAuthorized_setMinter, hs.frozen]
  | @authorizedSet _ x authorize _ _ _ h =>
    refine ⟨hadm, ?_, ?_⟩
    · rw [h.isMinter, isMinter_setAuthorized, hs.minter]
    · rw [h.isAuthorized, isAuthorized_setAuthorized]
      split_ifs with hx
      · subst hx
        cases authorize with
        | false => rfl
        | true => exact absurd rfl hauth
      · exact hs.frozen

lemma SameFunds.trans {r : Storage} (h : SameFunds s r) (h' : SameFunds r t) : SameFunds s t :=
  ⟨h'.supply.trans h.supply, fun x => (h'.balance x).trans (h.balance x)⟩

lemma Spent.sameFunds {f sp : Address} {n : I128} (h : Spent env s f sp n t) : SameFunds s t := by
  obtain ⟨v, next, -, -, -, -, rfl⟩ := h.written
  exact ⟨rfl, fun _ => rfl⟩

/-- A transfer within one account. -/
lemma Transferred.sameFunds {f : Address} {n : I128} {m : Storage} (h : Transferred s f f n m t) :
    SameFunds s t := by
  have hself := h.self_balance
  obtain ⟨next, -, rfl⟩ := h.debit
  obtain ⟨next', -, rfl⟩ := h.credit
  refine ⟨rfl, fun x => ?_⟩
  by_cases hx : x = f
  · rw [hx, hself]
  · rw [readBalance_setBalance, if_neg hx, readBalance_setBalance, if_neg hx]

/-- What a successful call signed by a stripped address alone does: nothing to the funds, unless it
draws on an allowance. -/
lemma sameFunds_or_draws {e : Entry} (h : (exec e).run env s = .ok (u, t)) (hs : Stripped a s)
    (hsole : SoleSigner a env) : SameFunds s t ∨ Draws a env s e := by
  have hlive := fun hread hpause hunpause => exec_live (e := e) hread hpause hunpause h
  replace h := exec_booked h
  cases h with
  | still _ h => exact .inl h.sameFunds
  | approved _ _ _ _ h =>
    have hf := h.sameFunds
    exact .inl ⟨hf.supply, hf.balance⟩
  | minted hby _ _ =>
    rcases hby with ⟨-, adm, hadm, hauth⟩ | ⟨minter, -, hauth, hminter⟩
    · obtain rfl := hsole adm hauth
      exact absurd hadm hs.admin
    · obtain rfl := hsole minter hauth
      rw [hs.minter] at hminter
      cases hminter
  | transferred hauth hm _ =>
    obtain rfl := hsole _ hauth
    exact absurd rfl (ne_of_frozen hs.frozen hm.from_authorized)
  | @transferredFrom spender f b n r w m _ hauth hr hm h =>
    obtain rfl := hsole spender hauth
    by_cases hne : f = b
    · subst hne
      exact .inl ((hr.sameFunds.trans hm.sameFunds).trans h.sameFunds)
    · obtain ⟨v, next, hv, hexp, hle, -, rfl⟩ := hr.written
      exact .inr (.transfer ⟨hlive rfl nofun nofun, hauth, hr.positive, ⟨v, hv, hexp, hle⟩,
        hm.from_authorized, hm.covered⟩ hm.to_authorized hne)
  | burned _ hauth hm _ =>
    obtain rfl := hsole _ hauth
    exact absurd rfl (ne_of_frozen hs.frozen hm.authorized)
  | @burnedFrom spender f n r m _ hauth hr hm h =>
    obtain rfl := hsole spender hauth
    obtain ⟨v, next, hv, hexp, hle, -, rfl⟩ := hr.written
    exact .inr (.burn ⟨hlive rfl nofun nofun, hauth, hr.positive, ⟨v, hv, hexp, hle⟩,
      hm.authorized, hm.covered⟩)

/-- What can be drawn is spent. -/
lemma Drawable.spent {f : Address} {n : I128} (h : Drawable a env s f n) :
    ∃ r, Spent env s f a n r := by
  obtain ⟨v, hv, hexp, hle⟩ := h.allowed
  have hpos := h.positive
  obtain ⟨next, hnext⟩ := exists_i128 (z := v.amount.val - n.val) v.amount (by omega) (by omega)
  exact ⟨_, hpos, v, next, hv, hexp, hle, hnext, rfl⟩

/-- A debit that is covered. -/
lemma exists_subBalance (env : Env) (s : Storage) {f : Address} {n : I128} (hpos : 0 < n.val)
    (hle : n.val ≤ (s.readBalance f).val) :
    ∃ next : I128, next.val = (s.readBalance f).val - n.val ∧
      (subBalance f n).run env s = .ok ((), s.setBalance f next) := by
  obtain ⟨next, hnext⟩ := exists_i128 (z := (s.readBalance f).val - n.val) (s.readBalance f)
    (by omega) (by omega)
  exact ⟨next, hnext, run_subBalance.mpr ⟨hle, next, hnext, rfl⟩⟩

/-- What can be drawn is spent, and the account that gave it can be debited. -/
lemma Drawable.debit {f : Address} {n : I128} (h : Drawable a env s f n) :
    ∃ r next, Spent env s f a n r ∧ next.val = (s.readBalance f).val - n.val ∧
      (subBalance f n).run env r = .ok ((), r.setBalance f next) := by
  obtain ⟨r, hr⟩ := h.spent
  have hbalance := hr.sameFunds.balance f
  obtain ⟨next, hnext, hsub⟩ := exists_subBalance env r h.positive
    (by rw [hbalance]; exact h.covered)
  rw [hbalance] at hnext
  exact ⟨r, next, hr, hnext, hsub⟩

/-- A debited account has less. -/
lemma not_sameFunds_of_debit {f : Address} {n next : I128} (hpos : 0 < n.val)
    (hnext : next.val = (s.readBalance f).val - n.val) (hread : t.readBalance f = next) :
    ¬SameFunds s t := by
  intro hsame
  have hf := hsame.balance f
  rw [hread] at hf
  rw [hf] at hnext
  omega

/-- A call that draws on an allowance returns, and takes from the account that gave it. -/
lemma Draws.takes {e : Entry} (h : Draws a env s e) (hs : Inv s) :
    ∃ t, (exec e).run env s = .ok ((), t) ∧ ¬SameFunds s t := by
  cases h with
  | @transfer f b n h hto hne =>
    obtain ⟨r, next, hr, hnext, hsub⟩ := h.debit
    have hbalance := hr.sameFunds.balance f
    obtain ⟨m, hadd⟩ := (hs.spent hr).arithmeticSafe.transfer env f b n _ h.positive hsub
    obtain ⟨next', hnext', rfl⟩ := run_addBalance.mp hadd
    have hm : Transferred r f b n (r.setBalance f next)
        ((r.setBalance f next).setBalance b next') :=
      ⟨h.positive, by rw [hr.sameRoles.isAuthorized]; exact h.unfrozen,
        by rw [hr.sameRoles.isAuthorized]; exact hto, by rw [hbalance]; exact h.covered,
        ⟨next, by rw [hbalance]; exact hnext, rfl⟩, ⟨next', hnext', rfl⟩⟩
    refine ⟨_, run_transferFrom.mpr ⟨h.live, h.signed, r, _, _, hr, hm, rfl⟩,
      not_sameFunds_of_debit h.positive hnext ?_⟩
    show ((r.setBalance f next).setBalance b next').readBalance f = next
    rw [readBalance_setBalance, if_neg hne, readBalance_setBalance, if_pos rfl]
  | @burn f n h =>
    obtain ⟨r, next, hr, hnext, hsub⟩ := h.debit
    have hbalance := hr.sameFunds.balance f
    obtain ⟨supply, hsupply⟩ := (hs.spent hr).arithmeticSafe.burn env f n _ h.positive hsub
    rw [I128.checkedSub_eq_some] at hsupply
    have hm : Burned r f n ((r.setBalance f next).setTotalSupply supply) :=
      ⟨h.positive, by rw [hr.sameRoles.isAuthorized]; exact h.unfrozen,
        by rw [hbalance]; exact h.covered, next, supply, by rw [hbalance]; exact hnext, hsupply, rfl⟩
    refine ⟨_, run_burnFrom.mpr ⟨h.live, h.signed, r, _, hr, hm, rfl⟩,
      not_sameFunds_of_debit h.positive hnext ?_⟩
    show (r.setBalance f next).readBalance f = next
    rw [readBalance_setBalance, if_pos rfl]

/-- For a call that a stripped address alone authorizes. -/
lemma sameFunds_iff (hreach : system.Reachable c) (h : system.Step c l d)
    (hs : Stripped a c.state) (hsole : SoleSigner a l.1) :
    SameFunds c.state d.state ↔ ¬Draws a l.1 c.state l.2 := by
  constructor
  · intro hsame hdraws
    obtain ⟨t, hok, hne⟩ := hdraws.takes (inv_of_reachable hreach)
    rw [h.2.2, commit_of_ok hok] at hsame
    exact hne hsame
  · intro hnot
    rw [h.2.2]
    rcases commit_cases (exec l.2) l.1 c.state with ⟨u, hok⟩ | heq
    · exact (sameFunds_or_draws hok hs hsole).resolve_right hnot
    · rw [heq]
      exact .refl _

/-- One transition of a stretch in which an address gets no role. -/
lemma Stripped.step (hs : Stripped a c.state) (h : system.Step c l d)
    (hno : ¬Reinstates a ⟨c, l, d⟩) : Stripped a d.state := by
  rcases moves h with ⟨-, heq⟩ | ⟨env, e, hcalled, hok⟩
  · rw [heq]
    exact hs
  · refine (exec_ruled hok).stripped hs (fun hadm => hno (.inl hadm)) ?_ ?_
    · rintro rfl
      exact hno (.inr ⟨env, .inl hcalled⟩)
    · rintro rfl
      exact hno (.inr ⟨env, .inr hcalled⟩)

lemma Stripped.run (hs : Stripped a c.state) (h : system.Run c tr d)
    (hno : ∀ m ∈ tr, ¬Reinstates a m) : Stripped a d.state := by
  induction h with
  | nil => exact hs
  | @snoc e d tr l hrun hstep ih =>
    refine (ih fun m hm => hno m (List.mem_append_left _ hm)).step hstep ?_
    exact hno _ (List.mem_append_right _ (List.mem_singleton_self _))

/-- The outgoing admin is left without any role. -/
lemma stripped_of_rotation {b : Address} {env : Env} (h : system.Step c (env, .acceptAdmin) d)
    (ha : c.state.admin = some a) (hb : d.state.admin = some b) (hne : b ≠ a) :
    Stripped a d.state := by
  have hdadm : d.state.admin ≠ some a := by
    rw [hb]
    exact fun h => hne (Option.some.inj h)
  obtain ⟨-, -, hstate⟩ := h
  rcases commit_cases (exec .acceptAdmin) env c.state with ⟨u, hok⟩ | heq
  · rw [← hstate] at hok
    obtain ⟨-, pending, old, -, -, hold, ht⟩ := run_acceptAdmin.mp hok
    obtain rfl : old = a := Option.some.inj (hold.symm.trans ha)
    have hadm : d.state.admin = some pending := by
      rw [ht]
      exact admin_handOver c.state old pending
    obtain rfl : pending = b := Option.some.inj (hadm.symm.trans hb)
    have hroles := SameRoles.publish (c.state.handOver old pending)
      { action := .admin, account := old, counterparty := pending, amount := 0, flag := true }
    refine ⟨hdadm, ?_, ?_⟩
    · rw [ht, hroles.isMinter, isMinter_handOver, if_neg hne.symm, if_pos rfl]
    · rw [ht, hroles.isAuthorized, isAuthorized_handOver, if_neg hne.symm, if_pos rfl]
  · rw [hstate, heq, ha] at hdadm
    exact absurd rfl hdadm

/-- **A rotated-out admin.** Until it is given a role again, the calls that the former admin alone
authorizes leave all funds where they are if and only if none of them draws on an allowance that
it was given. -/
theorem rotated_out_powerless (a b : Address) (c₀ c d : OnLedger Storage) (env : Env)
    (tr : List (Move (OnLedger Storage) (Env × Entry))) (hreach : system.Reachable c₀)
    (hrotate : system.Step c₀ (env, .acceptAdmin) c) (ha : c₀.state.admin = some a)
    (hb : c.state.admin = some b) (hne : b ≠ a) (h : system.Run c tr d)
    (hno : ∀ m ∈ tr, ¬Reinstates a m) :
    (∀ m ∈ tr, SoleSigner a m.label.1 → SameFunds m.pre.state m.post.state) ↔
      ∀ m ∈ tr, SoleSigner a m.label.1 → ¬Draws a m.label.1 m.pre.state m.label.2 := by
  have hc : system.Reachable c := hreach.step hrotate
  have hstripped := stripped_of_rotation hrotate ha hb hne
  have hiff : ∀ m ∈ tr, SoleSigner a m.label.1 →
      (SameFunds m.pre.state m.post.state ↔ ¬Draws a m.label.1 m.pre.state m.label.2) := by
    intro m hm hsole
    obtain ⟨tr₁, tr₂, rfl, hrun, hstep⟩ := h.split_of_mem hm
    have hpre := hstripped.run hrun fun m hm => hno m (List.mem_append_left _ hm)
    exact sameFunds_iff (hc.run hrun) hstep hpre hsole
  constructor
  · intro hfunds m hm hsole
    exact (hiff m hm hsole).mp (hfunds m hm hsole)
  · intro hdraws m hm hsole
    exact (hiff m hm hsole).mpr (hdraws m hm hsole)

/-! ### Account 7 holds 40 STAR and allows the admin 10 of them; the admin hands the role on -/

/-- Only account 1 signs. -/
def sampleFormer : Env :=
  { ledger := 8, signed := fun a => decide (a = ⟨1⟩), invoker := none, self := ⟨100⟩ }

def sampleProposed : Storage :=
  (exec (.setAdmin ⟨2⟩)).commit (sampleEnv 6)
    ((exec (.approve ⟨7⟩ ⟨1⟩ (.lit 15) 100)).commit (sampleEnv 6) sampleMinted)

def sampleRotated : Storage := (exec .acceptAdmin).commit (sampleEnv 7) sampleProposed

lemma sampleProposed_reachable : system.Reachable ⟨6, sampleProposed⟩ := by
  have h := contract_reachable_call sampleDeployed_reachable (sampleEnv 6) (.mint ⟨7⟩ (.lit 40))
    (by decide)
  have h := contract_reachable_call h (sampleEnv 6) (.approve ⟨7⟩ ⟨1⟩ (.lit 15) 100) (by decide)
  exact contract_reachable_call h (sampleEnv 6) (.setAdmin ⟨2⟩) (by decide)

lemma sampleRotated_step :
    system.Step ⟨6, sampleProposed⟩ (sampleEnv 7, .acceptAdmin) ⟨7, sampleRotated⟩ :=
  ⟨by decide, rfl, rfl⟩

/-- The next call, by the former admin. -/
def sampleCall (e : Entry) : Move (OnLedger Storage) (Env × Entry) :=
  ⟨⟨7, sampleRotated⟩, (sampleFormer, e), ⟨8, (exec e).commit sampleFormer sampleRotated⟩⟩

lemma sampleCall_run (e : Entry) : system.Run ⟨7, sampleRotated⟩ [sampleCall e] (sampleCall e).post :=
  .single ⟨Nat.le_succ 7, rfl, rfl⟩

lemma sampleCall_soleSigner : SoleSigner ⟨1⟩ sampleFormer := by
  intro x hx
  simpa [Env.auth, sampleFormer] using hx

/-- What the former admin mints changes nothing. -/
theorem rotated_out_powerless_of_mint :
    SameFunds sampleRotated (sampleCall (.mint ⟨1⟩ (.lit 5))).post.state := by
  refine (rotated_out_powerless ⟨1⟩ ⟨2⟩ _ _ _ _ _ sampleProposed_reachable sampleRotated_step
    (by decide) (by decide) (by decide) (sampleCall_run (.mint ⟨1⟩ (.lit 5))) ?_).mpr ?_ _
    (List.mem_singleton_self _) sampleCall_soleSigner
  · intro m hm
    obtain rfl := List.mem_singleton.mp hm
    rintro (hadm | ⟨env, hcalled | hcalled⟩)
    · exact absurd hadm (by decide)
    · have hnone : host.called (sampleCall (.mint ⟨1⟩ (.lit 5))) = none := by rfl
      rw [hnone] at hcalled
      cases hcalled
    · have hnone : host.called (sampleCall (.mint ⟨1⟩ (.lit 5))) = none := by rfl
      rw [hnone] at hcalled
      cases hcalled
  · intro m hm _
    obtain rfl := List.mem_singleton.mp hm
    nofun

/-- The former admin burns 5 STAR of account 7, and all funds know it. -/
theorem rotated_out_burns :
    ¬∀ (a b : Address) (c₀ c d : OnLedger Storage) (env : Env)
      (tr : List (Move (OnLedger Storage) (Env × Entry))), system.Reachable c₀ →
      system.Step c₀ (env, .acceptAdmin) c → c₀.state.admin = some a → c.state.admin = some b →
      b ≠ a → system.Run c tr d → (∀ m ∈ tr, ¬Reinstates a m) →
      ∀ m ∈ tr, SoleSigner a m.label.1 → SameFunds m.pre.state m.post.state := by
  intro h
  have hsame := h ⟨1⟩ ⟨2⟩ _ _ _ _ _ sampleProposed_reachable sampleRotated_step (by decide)
    (by decide) (by decide) (sampleCall_run (.burnFrom ⟨1⟩ ⟨7⟩ (.lit 5))) ?_ _
    (List.mem_singleton_self _) sampleCall_soleSigner
  · exact absurd hsame.supply (by decide)
  · intro m hm
    obtain rfl := List.mem_singleton.mp hm
    have hcalled : host.called (sampleCall (.burnFrom ⟨1⟩ ⟨7⟩ (.lit 5))) =
        some (sampleFormer, .burnFrom ⟨1⟩ ⟨7⟩ (.lit 5)) := by rfl
    rintro (hadm | ⟨env, h | h⟩)
    · exact absurd hadm (by decide)
    · rw [hcalled] at h
      cases h
    · rw [hcalled] at h
      cases h

end PayEra.StarToken
