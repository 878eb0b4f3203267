import PayEra.StarToken.Authority

/-!
# What an allowance is worth

Between two approvals of a pair, what its spender draws adds up to at most the approved amount,
and what is left is what `allowance` answers. The contract writes the allowance before it tries the
movement; a movement that fails takes that write with it.
-/

namespace PayEra.StarToken

open Soroban Soroban.Call Transition

variable {env : Env} {s t : Storage} {u : Unit} {f sp : Address} {c d : OnLedger Storage}
  {tr : List (Move (OnLedger Storage) (Env × Entry))}

/-- What a call draws on the allowance of a pair, if it returns. -/
def Entry.draws (f sp : Address) (e : Entry) : Option I128 :=
  e.draw.bind fun p => if p.1 = f ∧ p.2.1 = sp then some p.2.2 else none

/-- What a transition drew on the allowance of a pair. -/
def drawn (f sp : Address) (m : Move (OnLedger Storage) (Env × Entry)) : Option I128 :=
  (host.called m).bind fun p => p.2.draws f sp

/-- What a stretch of a run drew on the allowance of a pair. -/
def totalDrawn (f sp : Address) (tr : List (Move (OnLedger Storage) (Env × Entry))) : ℤ :=
  ((tr.filterMap (drawn f sp)).map I128.val).sum

/-- An approval of the pair that returned. -/
def Approves (f sp : Address) (m : Move (OnLedger Storage) (Env × Entry)) : Prop :=
  ∃ env amount expiration, host.called m = some (env, .approve f sp amount expiration)

/-- What an approval is worth, along a stretch of a run that follows it. -/
structure Worth (f sp : Address) (amount : I128) (expiration : Nat)
    (tr : List (Move (OnLedger Storage) (Env × Entry))) (d : OnLedger Storage) : Prop where
  bounded : totalDrawn f sp tr ≤ amount.val
  unexpired : ∀ m ∈ tr, (drawn f sp m).isSome → m.label.1.ledger ≤ expiration
  reads : ∀ env, ∃ n, (allowance f sp).run env d.state = .ok (n, d.state) ∧
    n.val = if env.ledger ≤ expiration then amount.val - totalDrawn f sp tr else 0
  failed : ∀ m ∈ tr, host.called m = none → m.post.state = m.pre.state
  kept : ∀ m ∈ tr, drawn f sp m = none →
    m.post.state.allowance f sp = m.pre.state.allowance f sp

/-! ### One call -/

lemma allowance_setAllowance (s : Storage) (f' sp' : Address) (v : AllowanceValue) :
    (s.setAllowance f' sp' v).allowance f sp =
      if f' = f ∧ sp' = sp then some v else s.allowance f sp := by
  by_cases hf : f = f'
  · subst hf
    by_cases hsp : sp = sp'
    · simp [Storage.setAllowance, hsp]
    · simp [Storage.setAllowance, hsp, Ne.symm hsp]
  · simp [Storage.setAllowance, hf, Ne.symm hf]

lemma Minted.allowance {a : Address} {n : I128} (h : Minted s a n t) :
    t.allowance = s.allowance := by
  obtain ⟨md, supply, next, -, -, -, -, rfl⟩ := h.written
  rfl

lemma Burned.allowance {a : Address} {n : I128} (h : Burned s a n t) :
    t.allowance = s.allowance := by
  obtain ⟨next, supply, -, -, rfl⟩ := h.written
  rfl

lemma Transferred.allowance {a b : Address} {n : I128} {m : Storage}
    (h : Transferred s a b n m t) : t.allowance = s.allowance := by
  obtain ⟨next, -, rfl⟩ := h.debit
  obtain ⟨next', -, rfl⟩ := h.credit
  rfl

/-- The allowance of a pair goes down by what is drawn on it, before it expires. -/
structure DrawnOn (env : Env) (s t : Storage) (f sp : Address) (n : I128) : Prop where
  written : ∃ v next, s.allowance f sp = some v ∧ env.ledger ≤ v.expirationLedger ∧
    next.val = v.amount.val - n.val ∧ t.allowance f sp = some ⟨next, v.expirationLedger⟩

lemma Spent.drawnOn {n : I128} {r : Storage} (h : Spent env s f sp n r)
    (hr : t.allowance = r.allowance) : DrawnOn env s t f sp n := by
  obtain ⟨v, next, hv, hexp, -, hnext, rfl⟩ := h.written
  refine ⟨v, next, hv, hexp, hnext, ?_⟩
  rw [hr, allowance_setAllowance, if_pos ⟨rfl, rfl⟩]

lemma Spent.allowance_of_ne {f' sp' : Address} {n : I128} {r : Storage}
    (h : Spent env s f' sp' n r) (hr : t.allowance = r.allowance) (hne : ¬(f' = f ∧ sp' = sp)) :
    t.allowance f sp = s.allowance f sp := by
  obtain ⟨v, next, -, -, -, -, rfl⟩ := h.written
  rw [hr, allowance_setAllowance, if_neg hne]

/-- A call that does not approve the pair draws on its allowance, or leaves it. -/
lemma Booked.drawn_or_kept {e : Entry} (h : Booked env s e t)
    (hno : ∀ amount expiration, e ≠ .approve f sp amount expiration) :
    (∃ n, e.draws f sp = some n ∧ DrawnOn env s t f sp n) ∨
      e.draws f sp = none ∧ t.allowance f sp = s.allowance f sp := by
  cases h with
  | still he h => exact .inr ⟨by rw [Entry.draws, he]; rfl, by rw [h.allowance]⟩
  | @approved f' sp' amount expiration _ _ _ _ _ h =>
    have hne : ¬(f' = f ∧ sp' = sp) := by
      rintro ⟨rfl, rfl⟩
      exact hno amount expiration rfl
    refine .inr ⟨rfl, ?_⟩
    rw [h.allowance, allowance_setAllowance, if_neg hne]
  | minted hby hm h =>
    refine .inr ⟨?_, by rw [h.allowance, hm.allowance]⟩
    rcases hby with ⟨rfl, -⟩ | ⟨minter, rfl, -⟩ <;> rfl
  | transferred _ hm h => exact .inr ⟨rfl, by rw [h.allowance, hm.allowance]⟩
  | @transferredFrom sp' f' b n r w m _ _ hr hm h =>
    by_cases heq : f' = f ∧ sp' = sp
    · obtain ⟨rfl, rfl⟩ := heq
      exact .inl ⟨n, if_pos ⟨rfl, rfl⟩, hr.drawnOn (h.allowance.trans hm.allowance)⟩
    · exact .inr ⟨if_neg heq, hr.allowance_of_ne (h.allowance.trans hm.allowance) heq⟩
  | burned hby _ hm h =>
    refine .inr ⟨?_, by rw [h.allowance, hm.allowance]⟩
    rcases hby with rfl | ⟨n, rfl⟩ <;> rfl
  | @burnedFrom sp' f' n r m _ _ hr hm h =>
    by_cases heq : f' = f ∧ sp' = sp
    · obtain ⟨rfl, rfl⟩ := heq
      exact .inl ⟨n, if_pos ⟨rfl, rfl⟩, hr.drawnOn (h.allowance.trans hm.allowance)⟩
    · exact .inr ⟨if_neg heq, hr.allowance_of_ne (h.allowance.trans hm.allowance) heq⟩

/-! ### A stretch of a run -/

lemma totalDrawn_snoc (m : Move (OnLedger Storage) (Env × Entry)) :
    totalDrawn f sp (tr ++ [m]) = totalDrawn f sp tr + ((drawn f sp m).map I128.val).getD 0 := by
  rw [totalDrawn, totalDrawn, List.filterMap_append, List.map_append, List.sum_append]
  cases h : drawn f sp m <;> simp [h]

/-- One transition that does not approve the pair. -/
lemma drawn_or_kept {l : Env × Entry} (h : system.Step c l d) (hno : ¬Approves f sp ⟨c, l, d⟩) :
    (∃ n, drawn f sp ⟨c, l, d⟩ = some n ∧ DrawnOn l.1 c.state d.state f sp n) ∨
      drawn f sp ⟨c, l, d⟩ = none ∧ d.state.allowance f sp = c.state.allowance f sp := by
  rcases moves h with ⟨hnone, heq⟩ | ⟨env, e, hcalled, hok⟩
  · refine .inr ⟨?_, by rw [heq]⟩
    rw [drawn, hnone]
    rfl
  · have hl : l = (env, e) := label_of_called hcalled
    rw [drawn, hcalled, hl]
    refine (exec_booked hok).drawn_or_kept ?_
    rintro amount expiration rfl
    exact hno ⟨env, amount, expiration, hcalled⟩

/-- What is stored of the allowance is what was approved less what was drawn. -/
lemma allowance_of_run {amount : I128} {expiration : Nat}
    (hc : c.state.allowance f sp = some ⟨amount, expiration⟩) (h : system.Run c tr d)
    (hno : ∀ m ∈ tr, ¬Approves f sp m) :
    ∃ left : I128, d.state.allowance f sp = some ⟨left, expiration⟩ ∧
      left.val = amount.val - totalDrawn f sp tr := by
  induction h with
  | nil => exact ⟨amount, hc, by simp [totalDrawn]⟩
  | @snoc e d tr l hrun hstep ih =>
    obtain ⟨left, he, hleft⟩ := ih fun m hm => hno m (List.mem_append_left _ hm)
    have hlast := hno ⟨e, l, d⟩ (List.mem_append_right _ (List.mem_singleton_self _))
    rw [totalDrawn_snoc]
    rcases drawn_or_kept hstep hlast with ⟨n, hn, ⟨v, next, hv, -, hnext, hd⟩⟩ | ⟨hnone, hkept⟩
    · rw [he] at hv
      obtain rfl := Option.some.inj hv
      refine ⟨next, hd, ?_⟩
      rw [hn, hnext, hleft]
      simp
      ring
    · refine ⟨left, hkept.trans he, ?_⟩
      rw [hnone, hleft]
      simp

lemma initialized_of_reachable (h : system.Reachable c) : c.state.isInitialized = true := by
  have hinit : c.state.initialized = some true := by
    refine contract_invariant (P := fun s => s.initialized = some true) ?_ ?_ h
    · rintro env s ⟨adm, name, symbol, cap, hd⟩
      obtain ⟨-, -, rfl⟩ := run_constructor.mp hd
      rfl
    · intro env e s t hs hok
      exact (exec_ruled hok).initialized.trans hs
  rw [Storage.isInitialized, hinit]
  rfl

lemma run_allowance {n : I128} :
    (allowance f sp).run env s = .ok (n, t) ↔
      s.isInitialized = true ∧ n = s.allowanceAt env.ledger f sp ∧ t = s := by
  simp [allowance]
  grind

/-- **Allowance accounting.** What follows a successful approval of a pair, up to the next one. -/
theorem allowance_accounting (f sp : Address) (amount : I128) (expiration : Nat) (env : Env)
    (c₀ c d : OnLedger Storage) (tr : List (Move (OnLedger Storage) (Env × Entry)))
    (hreach : system.Reachable c₀)
    (happrove : system.Step c₀ (env, .approve f sp amount expiration) c)
    (hcalled : host.called ⟨c₀, (env, .approve f sp amount expiration), c⟩ =
      some (env, .approve f sp amount expiration))
    (h : system.Run c tr d) (hno : ∀ m ∈ tr, ¬Approves f sp m) :
    Worth f sp amount expiration tr d := by
  have hc : c.state.allowance f sp = some ⟨amount, expiration⟩ := by
    have hok : (exec (.approve f sp amount expiration)).run env c₀.state = .ok ((), c.state) :=
      Hosted.run_of_called (H := host) happrove hcalled
    obtain ⟨-, -, -, -, -, -, heq⟩ := run_approve.mp hok
    rw [heq, (SameBooks.publish _ _).allowance, allowance_setAllowance, if_pos ⟨rfl, rfl⟩]
  have hd : system.Reachable d := (hreach.step happrove).run h
  obtain ⟨left, hd', hleft⟩ := allowance_of_run hc h hno
  refine ⟨?_, fun m hm hdrawn => ?_, fun env => ?_, fun m hm hnone => ?_, fun m hm hnone => ?_⟩
  · have hnonneg := (inv_of_reachable hd).allowances f sp _ hd'
    have hleft' : (0 : ℤ) ≤ left.val := hnonneg
    omega
  · obtain ⟨tr₁, tr₂, rfl, hrun, hstep⟩ := h.split_of_mem hm
    obtain ⟨left, hpre, -⟩ := allowance_of_run hc hrun fun m hm =>
      hno m (List.mem_append_left _ hm)
    rcases drawn_or_kept hstep (hno m hm) with ⟨n, -, ⟨v, next, hv, hexp, -, -⟩⟩ | ⟨hnone, -⟩
    · rw [hpre] at hv
      obtain rfl := Option.some.inj hv
      exact hexp
    · rw [hnone] at hdrawn
      cases hdrawn
  · refine ⟨_, run_allowance.mpr ⟨initialized_of_reachable hd, rfl, rfl⟩, ?_⟩
    rw [Storage.allowanceAt, hd']
    by_cases hexp : env.ledger ≤ expiration
    · have hnot : ¬expiration < env.ledger := not_lt.mpr hexp
      simp [hexp, hnot, hleft]
    · have hlt : expiration < env.ledger := not_le.mp hexp
      simp [hexp, hlt]
  · obtain ⟨tr₁, tr₂, rfl, hrun, hstep⟩ := h.split_of_mem hm
    rcases moves hstep with ⟨-, heq⟩ | ⟨env, e, hsome, -⟩
    · exact heq
    · rw [hnone] at hsome
      cases hsome
  · obtain ⟨tr₁, tr₂, rfl, hrun, hstep⟩ := h.split_of_mem hm
    rcases drawn_or_kept hstep (hno m hm) with ⟨n, hn, -⟩ | ⟨-, hkept⟩
    · rw [hnone] at hn
      cases hn
    · exact hkept

/-- Account 7 allows account 8 to draw 10 STAR until ledger 100, and 4 of them are transferred. -/
theorem allowance_accounting_of_transfer :
    ∃ tr d, totalDrawn ⟨7⟩ ⟨8⟩ tr = 4 ∧ Worth ⟨7⟩ ⟨8⟩ (.lit 10) 100 tr d := by
  let approved : Storage := (exec (.approve ⟨7⟩ ⟨8⟩ (.lit 10) 100)).commit (sampleEnv 7) sampleMinted
  let e : Entry := .transferFrom ⟨8⟩ ⟨7⟩ ⟨9⟩ (.lit 4)
  have hreach := contract_reachable_call sampleDeployed_reachable (sampleEnv 6)
    (.mint ⟨7⟩ (.lit 40)) (by decide)
  have happrove : system.Step ⟨6, sampleMinted⟩ (sampleEnv 7, .approve ⟨7⟩ ⟨8⟩ (.lit 10) 100)
      ⟨7, approved⟩ := ⟨by decide, rfl, rfl⟩
  have hstep : system.Step ⟨7, approved⟩ (sampleEnv 8, e) ⟨8, (exec e).commit (sampleEnv 8) approved⟩ :=
    ⟨by decide, rfl, rfl⟩
  refine ⟨_, _, ?_, allowance_accounting ⟨7⟩ ⟨8⟩ (.lit 10) 100 _ _ _ _ _ hreach happrove rfl
    (.single hstep) ?_⟩
  · decide
  · intro m hm
    obtain rfl := List.mem_singleton.mp hm
    rintro ⟨env, amount, expiration, hcalled⟩
    have hlabel := label_of_called hcalled
    simp [e] at hlabel

end PayEra.StarToken
