import PayEra.PaymentEngine.Lifecycle
import PayEra.RewardEngine.Accounting

/-!
# Payments, rewards and STAR agree

The payment engine, the reward engine and the STAR tokens, composed. The payment engine asks for a
reward with a `try_` call and goes on without one when it fails, so three storages have to be kept
in step by calls that may or may not have happened. What carries the agreement is a property of
the reward records: one that names the payment engine as its issuer was written by the payment
engine's own call for the payment that it names as its source.
-/

namespace PayEra.PaymentEngine.Rewards

open Soroban Soroban.Call Transition
open RewardEngine (RewardRecord Tokens starBalance)

/-! ### The composed contracts -/

/-- Where the contracts are. -/
structure Deployment where
  paymentEngine : Address
  rewardEngine : Address
  starToken : Address

/-- The payment engine's storage, the reward engine's storage and the STAR tokens. -/
abbrev World := WithPeers Storage RewardEngine.World

/-- The contracts that the payment engine calls: a registry that answers `approved`, and the reward
engine at its address. -/
def clients (D : Deployment) (approved : Option Bool) : Clients RewardEngine.World where
  isApproved _ _ _ w := approved.map fun b => (b, w)
  issueSpendReward called p env w :=
    if called = D.rewardEngine then
      (RewardEngine.issueSpendReward RewardEngine.mintFromMinter p.issuer p.rewardId p.recipient
        p.sourceId p.amountInPaise).reply env w
    else none

/-- A call to the payment engine, or a step of the reward engine and the tokens. -/
inductive Label where
  | payment (env : Env) (approved : Option Bool) (e : Entry)
  | peer (l : RewardEngine.Label)

def Label.env : Label → Env
  | .payment env _ _ => env
  | .peer l => l.env

/-- The payment engine's address authorizes its own direct calls and nothing else. -/
def Step (D : Deployment) (w w' : World) : Label → Prop
  | .payment env approved e =>
    env.self = D.paymentEngine ∧ w' = (exec (clients D approved) e).commit env w
  | .peer l =>
    l.env.auth D.paymentEngine = false ∧ w'.own = w.own ∧
      RewardEngine.Step D.rewardEngine w.peers w'.peers l

/-- The configured addresses are those of the deployment. -/
structure Fixed (D : Deployment) (w : World) : Prop where
  rewardEngine : w.own.rewardEngine = some D.rewardEngine
  starToken : w.peers.own.starToken = some D.starToken

/-- The composed contracts, as long as the configured addresses stay what they are. -/
def system (D : Deployment) : System (OnLedger World) Label where
  Init c := ∃ env env' : Env, Deployed env c.state.own ∧
    RewardEngine.Deployed env' c.state.peers.own ∧ c.ledger = env.ledger ∧ Fixed D c.state
  Step c l d := c.ledger ≤ l.env.ledger ∧ d.ledger = l.env.ledger ∧
    Step D c.state d.state l ∧ Fixed D d.state

/-! ### Rewards of payments, and what is minted for them -/

/-- The reward record behind a payment's `star_reward`. -/
structure Backs (D : Deployment) (p : PaymentRecord) (n : I128) (r : RewardRecord) : Prop where
  rewardId : r.rewardId = p.rewardId
  issuer : r.issuer = D.paymentEngine
  kind : r.kind = .spend
  sourceId : r.sourceId = p.paymentId
  recipient : r.recipient = p.payer
  amountStar : r.amountStar = n

/-- What a transition minted to an account for a reward id: the growth of the balance in the
transition that issues the id. -/
def mintedFor (D : Deployment) (rewardId : Bytes32) (a : Address)
    (m : Move (OnLedger World) Label) : ℤ :=
  if m.pre.state.peers.own.reward rewardId = none ∧
      m.post.state.peers.own.reward rewardId ≠ none then
    starBalance m.post.state.peers D.starToken a - starBalance m.pre.state.peers D.starToken a
  else 0

/-- What a run minted to an account for a reward id. -/
def totalMintedFor (D : Deployment) (rewardId : Bytes32) (a : Address)
    (tr : List (Move (OnLedger World) Label)) : ℤ :=
  (tr.map (mintedFor D rewardId a)).sum

/-! ### One step -/

/-- The statuses before the reward. -/
def Early (s : PaymentStatus) : Prop :=
  s = .created ∨ s = .quoted ∨ s = .converted ∨ s = .settled

/-- A transition of the payments that rewards none of them. -/
inductive PaymentTurn (s t : Storage) : Prop where
  | same (h : t.payment = s.payment)
  | create (r : PaymentRecord) (hnone : s.payment r.paymentId = none) (hzero : r.starReward = 0)
      (h : t.payment = Function.update s.payment r.paymentId (some r))
  | change (r r' : PaymentRecord) (hr : s.payment r.paymentId = some r) (hterms : SameTerms r r')
      (hreward : r'.starReward = r.starReward ∨ Early r.status ∧ r'.starReward = 0)
      (hearly : Early r'.status → Early r.status)
      (h : t.payment = Function.update s.payment r.paymentId (some r'))

/-- One reward is issued and minted. -/
structure Grants (D : Deployment) (w w' : World) (r : RewardRecord) : Prop where
  fresh : w.peers.own.reward r.rewardId = none
  reward : w'.peers.own.reward = Function.update w.peers.own.reward r.rewardId (some r)
  positive : 0 < r.amountStar.val
  balance : ∀ a, starBalance w'.peers D.starToken a =
    starBalance w.peers D.starToken a + if a = r.recipient then r.amountStar.val else 0

/-- What one transition does to payments and rewards. -/
inductive Turn (D : Deployment) (w w' : World) : Prop where
  | quiet (hpay : PaymentTurn w.own w'.own)
      (hreward : w'.peers.own.reward = w.peers.own.reward)
  | direct (r : RewardRecord) (hpay : w'.own.payment = w.own.payment)
      (hissuer : r.issuer ≠ D.paymentEngine) (hgrants : Grants D w w' r)
  | rewarded (p p' : PaymentRecord) (r : RewardRecord) (hp : w.own.payment p.paymentId = some p)
      (hst : p.status = .settled) (hterms : SameTerms p p') (hst' : p'.status = .rewarded)
      (hpay : w'.own.payment = Function.update w.own.payment p.paymentId (some p'))
      (hback : Backs D p p'.starReward r) (hgrants : Grants D w w' r)

variable {D : Deployment} {env : Env} {approved : Option Bool} {w w' : World}

/-- Every call but `issue_reward` rewards no payment. -/
lemma paymentTurn_of_written {s t : Storage} {e : Entry} {id : Bytes32} {r' : PaymentRecord}
    (hkeyed : Keyed s) (hne : ∀ operator paymentId, e ≠ .issueReward operator paymentId)
    (h : Written env s e id r')
    (ht : t.payment = Function.update s.payment r'.paymentId (some r')) : PaymentTurn s t := by
  cases h with
  | created hop hpos hnone => exact .create _ hnone rfl ht
  | @quoted _ _ r _ _ _ hop hpos hr hst =>
    have hkey := hkeyed _ _ hr
    subst hkey
    refine .change r _ hr ?_ ?_ ?_ ht
    · exact ⟨rfl, rfl, rfl, rfl, rfl, rfl, rfl, rfl⟩
    · exact .inl rfl
    · exact fun _ => .inl hst
  | @advanced _ _ r _ status hop hr hst =>
    have hkey := hkeyed _ _ hr
    subst hkey
    refine .change r _ hr ?_ ?_ ?_ ht
    · exact ⟨rfl, rfl, rfl, rfl, rfl, rfl, rfl, rfl⟩
    · exact .inl rfl
    · rcases hst with ⟨h, rfl, -⟩ | ⟨h, rfl, -⟩ | ⟨h, rfl, -⟩
      · exact fun _ => .inr (.inl h)
      · exact fun _ => .inr (.inr (.inl h))
      · simp [Early]
  | rewarded => exact absurd rfl (hne _ _)
  | @cancelled _ r hlive hr hauth hst =>
    have hkey := hkeyed _ _ hr
    subst hkey
    refine .change r _ hr ?_ ?_ ?_ ht
    · exact ⟨rfl, rfl, rfl, rfl, rfl, rfl, rfl, rfl⟩
    · exact .inl rfl
    · simp [Early]
  | @failed _ _ r hop hr hst =>
    have hkey := hkeyed _ _ hr
    subst hkey
    refine .change r _ hr ?_ ?_ ?_ ht
    · exact ⟨rfl, rfl, rfl, rfl, rfl, rfl, rfl, rfl⟩
    · exact .inl rfl
    · simp [Early]

/-- A reward that was issued while the addresses were those of the deployment. -/
lemma grants_of_issued {env : Env} {i : RewardEngine.Issue} {n : I128}
    (hfix : w.peers.own.starToken = some D.starToken)
    (h : RewardEngine.Issued RewardEngine.mintFromMinter env w.peers i n w'.peers) :
    Grants D w w' (i.record n env.ledger) := by
  obtain ⟨token, htok, hbal⟩ := h.balances
  obtain rfl : token = D.starToken := Option.some.inj (htok.symm.trans hfix)
  refine ⟨h.fresh, h.reward, h.positive, fun a => ?_⟩
  rw [hbal D.starToken a]
  simp only [true_and]
  rfl

/-- The reward engine's answer to the payment engine. -/
lemma rewardReply_eq_some {p : PaymentRecord} {n : I128} {ws ws' : RewardEngine.World} :
    rewardReply (clients D approved) env ws D.rewardEngine p = some (n, ws') ↔
      RewardEngine.Issued RewardEngine.mintFromMinter (env.nested D.rewardEngine) ws
        (.spend env.self p.rewardId p.payer p.paymentId p.amountInPaise) n ws' := by
  rw [← RewardEngine.run_execIssue, rewardReply, clients]
  simp only [if_pos]
  rw [reply_eq_some]
  rfl

/-- What `issue_reward` of the payment engine does. -/
lemma turn_of_issueReward {operator : Address} {id : Bytes32} {n : I128} (hkeyed : Keyed w.own)
    (hfix : Fixed D w) (hself : env.self = D.paymentEngine)
    (h : (issueReward (clients D approved) operator id).run env w = .ok (n, w')) :
    Turn D w w' := by
  obtain ⟨hop, p, eng, hp, hst, heng, rfl, rfl⟩ := run_issueReward.mp h
  obtain rfl : eng = D.rewardEngine := Option.some.inj (heng.symm.trans hfix.rewardEngine)
  have hkey := hkeyed _ _ hp
  subst hkey
  cases hreply : rewardReply (clients D approved) env w.peers D.rewardEngine p with
  | none =>
    refine .quiet (.change p _ hp ?_ ?_ ?_ rfl) rfl
    · exact ⟨rfl, rfl, rfl, rfl, rfl, rfl, rfl, rfl⟩
    · exact .inr ⟨.inr (.inr (.inr hst)), rfl⟩
    · simp [Early]
  | some reply =>
    obtain ⟨n, ws'⟩ := reply
    have hissued := rewardReply_eq_some.mp hreply
    rw [hself] at hissued
    refine .rewarded p _ _ hp hst ?_ ?_ rfl ?_ (grants_of_issued hfix.starToken hissued)
    · exact ⟨rfl, rfl, rfl, rfl, rfl, rfl, rfl, rfl⟩
    · rfl
    · exact ⟨rfl, rfl, rfl, rfl, rfl, rfl⟩

/-- A call to the payment engine. -/
lemma turn_of_payment {e : Entry} (hkeyed : Keyed w.own) (hfix : Fixed D w)
    (hself : env.self = D.paymentEngine)
    (hw' : w' = (exec (clients D approved) e).commit env w) : Turn D w w' := by
  rcases commit_cases (exec (clients D approved) e) env w with ⟨u, hok⟩ | heq
  · rw [← hw'] at hok
    by_cases hne : ∀ operator paymentId, e ≠ .issueReward operator paymentId
    · have hpeers : w'.peers = w.peers := by
        refine exec_peers ?_ hne hok
        intro registry merchantId env ws b ws' happ
        obtain ⟨b', -, heq⟩ := Option.map_eq_some_iff.mp happ
        exact (Prod.ext_iff.mp heq).2.symm
      have hreward : w'.peers.own.reward = w.peers.own.reward := by rw [hpeers]
      rcases exec_effect hok with ⟨hsame, -⟩ | ⟨id, r, hwritten, hupd, -⟩
      · exact .quiet (.same hsame) hreward
      · exact .quiet (paymentTurn_of_written hkeyed hne hwritten hupd) hreward
    · push Not at hne
      obtain ⟨operator, id, rfl⟩ := hne
      obtain ⟨n, hn⟩ := run_void.mp hok
      exact turn_of_issueReward hkeyed hfix hself hn
  · rw [heq] at hw'
    rw [hw']
    exact .quiet (.same rfl) rfl

/-- A step of the reward engine and the tokens. -/
lemma turn_of_peer {l : RewardEngine.Label} (hfix : Fixed D w)
    (hauth : l.env.auth D.paymentEngine = false) (hown : w'.own = w.own)
    (h : RewardEngine.Step D.rewardEngine w.peers w'.peers l) : Turn D w w' := by
  have hsame : w'.own.payment = w.own.payment := by rw [hown]
  cases l with
  | engine env e =>
    obtain ⟨-, hd⟩ := h
    rcases commit_cases (RewardEngine.exec RewardEngine.mintFromMinter e) env w.peers with
      ⟨u, hok⟩ | heq
    · rw [← hd] at hok
      rcases RewardEngine.exec_effect hok with hsame' | ⟨i, n, rfl, hissued⟩
      · exact .quiet (.same hsame) hsame'.reward
      · refine .direct _ hsame ?_ (grants_of_issued hfix.starToken hissued)
        -- the issuer authorized this call, which the payment engine did not
        intro hissuer
        have hiss := hissued.auth
        rw [show i.issuer = D.paymentEngine from hissuer] at hiss
        exact Bool.false_ne_true (hauth.symm.trans hiss)
    · rw [heq] at hd
      exact .quiet (.same hsame) (by rw [hd])
  | star token env e =>
    obtain ⟨-, -, s, -, hd⟩ := h
    exact .quiet (.same hsame) (by rw [hd])
  | deploy token env =>
    obtain ⟨-, -, -, s, -, hd⟩ := h
    exact .quiet (.same hsame) (by rw [hd])

/-! ### What every step keeps -/

lemma Backs.congr {p p' : PaymentRecord} {n : I128} {r : RewardRecord} (hterms : SameTerms p p')
    (h : Backs D p n r) : Backs D p' n r where
  rewardId := h.rewardId.trans hterms.rewardId.symm
  issuer := h.issuer
  kind := h.kind
  sourceId := h.sourceId.trans hterms.paymentId.symm
  recipient := h.recipient.trans hterms.payer.symm
  amountStar := h.amountStar

/-- Payments and rewards agree. -/
structure Inv (D : Deployment) (w : World) : Prop where
  keyed : Keyed w.own
  early : ∀ id p, w.own.payment id = some p → Early p.status → p.starReward = 0
  backed : ∀ id p, w.own.payment id = some p → p.starReward ≠ 0 →
    ∃ r, w.peers.own.reward p.rewardId = some r ∧ Backs D p p.starReward r
  /-- A record that names the payment engine was issued for the payment it names. -/
  source : ∀ id r, w.peers.own.reward id = some r → r.issuer = D.paymentEngine →
    ∃ p, w.own.payment r.sourceId = some p ∧ Backs D p p.starReward r
  recorded : ∀ id r, w.peers.own.reward id = some r → r.rewardId = id ∧ 0 < r.amountStar.val

/-- A new payment. -/
lemma Inv.create {r : PaymentRecord} (h : Inv D w) (hnone : w.own.payment r.paymentId = none)
    (hzero : r.starReward = 0)
    (hpay : w'.own.payment = Function.update w.own.payment r.paymentId (some r))
    (hreward : w'.peers.own.reward = w.peers.own.reward) : Inv D w' := by
  refine ⟨?_, ?_, ?_, ?_, by rw [hreward]; exact h.recorded⟩
  · intro id p hp
    rw [hpay, update_eq_some] at hp
    rcases hp with ⟨rfl, rfl⟩ | ⟨-, hp⟩
    · rfl
    · exact h.keyed id p hp
  · intro id p hp hearly
    rw [hpay, update_eq_some] at hp
    rcases hp with ⟨-, rfl⟩ | ⟨-, hp⟩
    · exact hzero
    · exact h.early id p hp hearly
  · intro id p hp hne
    rw [hpay, update_eq_some] at hp
    rw [hreward]
    rcases hp with ⟨-, rfl⟩ | ⟨-, hp⟩
    · exact absurd hzero hne
    · exact h.backed id p hp hne
  · intro id q hq hissuer
    rw [hreward] at hq
    obtain ⟨p, hp, hback⟩ := h.source id q hq hissuer
    exact ⟨p, by rw [hpay]; exact update_of_free hnone hp _, hback⟩

/-- Rewriting one payment whose reward does not change. -/
lemma Inv.change {r r' : PaymentRecord} (h : Inv D w) (hr : w.own.payment r.paymentId = some r)
    (hterms : SameTerms r r') (hstar : r'.starReward = r.starReward)
    (hearly : Early r'.status → Early r.status)
    (hpay : w'.own.payment = Function.update w.own.payment r.paymentId (some r'))
    (hreward : w'.peers.own.reward = w.peers.own.reward) : Inv D w' := by
  refine ⟨?_, ?_, ?_, ?_, by rw [hreward]; exact h.recorded⟩
  · intro id p hp
    rw [hpay, update_eq_some] at hp
    rcases hp with ⟨rfl, rfl⟩ | ⟨-, hp⟩
    · exact hterms.paymentId
    · exact h.keyed id p hp
  · intro id p hp he
    rw [hpay, update_eq_some] at hp
    rcases hp with ⟨-, rfl⟩ | ⟨-, hp⟩
    · rw [hstar]
      exact h.early _ r hr (hearly he)
    · exact h.early id p hp he
  · intro id p hp hne
    rw [hpay, update_eq_some] at hp
    rw [hreward]
    rcases hp with ⟨-, rfl⟩ | ⟨-, hp⟩
    · rw [hstar] at hne ⊢
      obtain ⟨q, hq, hback⟩ := h.backed _ r hr hne
      exact ⟨q, by rw [hterms.rewardId]; exact hq, hback.congr hterms⟩
    · exact h.backed id p hp hne
  · intro id q hq hissuer
    rw [hreward] at hq
    rw [hpay]
    obtain ⟨p, hp, hback⟩ := h.source id q hq hissuer
    by_cases hid : q.sourceId = r.paymentId
    · rw [hid, hr] at hp
      obtain rfl := Option.some.inj hp
      refine ⟨r', by rw [hid, Function.update_self], ?_⟩
      rw [hstar]
      exact hback.congr hterms
    · exact ⟨p, by rw [Function.update_of_ne hid, hp], hback⟩

/-- A reward that another issuer issued. -/
lemma Inv.direct {r : RewardRecord} (h : Inv D w) (hpay : w'.own.payment = w.own.payment)
    (hissuer : r.issuer ≠ D.paymentEngine) (hg : Grants D w w' r) : Inv D w' := by
  refine ⟨?_, ?_, ?_, ?_, ?_⟩
  · intro id p hp
    exact h.keyed id p (hpay ▸ hp)
  · intro id p hp
    exact h.early id p (hpay ▸ hp)
  · intro id p hp hne
    obtain ⟨q, hq, hback⟩ := h.backed id p (hpay ▸ hp) hne
    exact ⟨q, by rw [hg.reward]; exact update_of_free hg.fresh hq _, hback⟩
  · intro id q hq hiss
    rw [hg.reward, update_eq_some] at hq
    rcases hq with ⟨-, rfl⟩ | ⟨-, hq⟩
    · exact absurd hiss hissuer
    · rw [hpay]
      exact h.source id q hq hiss
  · intro id q hq
    rw [hg.reward, update_eq_some] at hq
    rcases hq with ⟨rfl, rfl⟩ | ⟨-, hq⟩
    · exact ⟨rfl, hg.positive⟩
    · exact h.recorded id q hq

/-- The reward of a settled payment. No record named the payment before: it would have a reward
already. -/
lemma Inv.rewarded {p p' : PaymentRecord} {r : RewardRecord} (h : Inv D w)
    (hp : w.own.payment p.paymentId = some p) (hst : p.status = .settled)
    (hterms : SameTerms p p') (hst' : p'.status = .rewarded)
    (hpay : w'.own.payment = Function.update w.own.payment p.paymentId (some p'))
    (hback : Backs D p p'.starReward r) (hg : Grants D w w' r) : Inv D w' := by
  have hunnamed : ∀ id q, w.peers.own.reward id = some q → q.issuer = D.paymentEngine →
      q.sourceId ≠ p.paymentId := by
    intro id q hq hissuer hid
    obtain ⟨p₁, hp₁, hback₁⟩ := h.source id q hq hissuer
    rw [hid, hp] at hp₁
    obtain rfl := Option.some.inj hp₁
    have hzero := h.early _ p hp (.inr (.inr (.inr hst)))
    have hpos := (h.recorded id q hq).2
    rw [hback₁.amountStar, hzero] at hpos
    exact lt_irrefl _ hpos
  refine ⟨?_, ?_, ?_, ?_, ?_⟩
  · intro id q hq
    rw [hpay, update_eq_some] at hq
    rcases hq with ⟨rfl, rfl⟩ | ⟨-, hq⟩
    · exact hterms.paymentId
    · exact h.keyed id q hq
  · intro id q hq he
    rw [hpay, update_eq_some] at hq
    rcases hq with ⟨-, rfl⟩ | ⟨-, hq⟩
    · simp [hst', Early] at he
    · exact h.early id q hq he
  · intro id q hq hne
    rw [hpay, update_eq_some] at hq
    rw [hg.reward]
    rcases hq with ⟨-, rfl⟩ | ⟨-, hq⟩
    · refine ⟨r, ?_, hback.congr hterms⟩
      rw [hterms.rewardId, ← hback.rewardId, Function.update_self]
    · obtain ⟨q', hq', hback'⟩ := h.backed id q hq hne
      exact ⟨q', update_of_free hg.fresh hq' _, hback'⟩
  · intro id q hq hissuer
    rw [hg.reward, update_eq_some] at hq
    rw [hpay]
    rcases hq with ⟨-, rfl⟩ | ⟨-, hq⟩
    · exact ⟨p', by rw [hback.sourceId, Function.update_self], hback.congr hterms⟩
    · obtain ⟨q', hq', hback'⟩ := h.source id q hq hissuer
      exact ⟨q', by rw [Function.update_of_ne (hunnamed id q hq hissuer), hq'], hback'⟩
  · intro id q hq
    rw [hg.reward, update_eq_some] at hq
    rcases hq with ⟨rfl, rfl⟩ | ⟨-, hq⟩
    · exact ⟨rfl, hg.positive⟩
    · exact h.recorded id q hq

lemma Turn.inv (ht : Turn D w w') (h : Inv D w) : Inv D w' := by
  cases ht with
  | quiet hpay hreward =>
    cases hpay with
    | same hpay =>
      refine ⟨?_, ?_, ?_, ?_, ?_⟩ <;> simp only [Keyed, hpay, hreward]
      exacts [h.keyed, h.early, h.backed, h.source, h.recorded]
    | create r hnone hzero hpay => exact h.create hnone hzero hpay hreward
    | change r r' hr hterms hstar hearly hpay =>
      refine h.change hr hterms ?_ hearly hpay hreward
      rcases hstar with hsame | ⟨he, hzero⟩
      · exact hsame
      · rw [hzero, h.early _ r hr he]
  | direct r hpay hissuer hg => exact h.direct hpay hissuer hg
  | rewarded p p' r hp hst hterms hst' hpay hback hg =>
    exact h.rewarded hp hst hterms hst' hpay hback hg

/-! ### Reachable states -/

section Reachable

variable {c : OnLedger World}

lemma fixed_of_reachable (h : (system D).Reachable c) : Fixed D c.state := by
  refine h.invariant (P := fun c => Fixed D c.state) ?_ ?_
  · rintro c ⟨env, env', -, -, -, hfix⟩
    exact hfix
  · rintro c l d - - ⟨-, -, -, hfix⟩
    exact hfix

lemma Step.turn {l : Label} (hkeyed : Keyed w.own) (hfix : Fixed D w) (h : Step D w w' l) :
    Turn D w w' := by
  cases l with
  | payment env approved e =>
    obtain ⟨hself, hw'⟩ := h
    exact turn_of_payment hkeyed hfix hself hw'
  | peer l =>
    obtain ⟨hauth, hown, hstep⟩ := h
    exact turn_of_peer hfix hauth hown hstep

lemma inv_of_reachable (h : (system D).Reachable c) : Inv D c.state := by
  refine h.invariant (P := fun c => Inv D c.state) ?_ ?_
  · rintro c ⟨env, env', ⟨adm, registry, eng, hd⟩, ⟨adm', token, hd'⟩, -, -⟩
    obtain ⟨-, hown⟩ := run_constructor.mp hd
    obtain ⟨-, hown'⟩ := RewardEngine.run_constructor.mp hd'
    have hpay : c.state.own.payment = fun _ => none := by
      rw [hown]
      rfl
    have hreward : c.state.peers.own.reward = fun _ => none := by
      rw [hown']
      rfl
    constructor <;> simp [Keyed, hpay, hreward]
  · rintro c l d hreach hinv ⟨-, -, hstep, -⟩
    exact (hstep.turn hinv.keyed (fixed_of_reachable hreach)).inv hinv

/-- A deployed engine stays initialized. -/
lemma initialized_of_reachable (h : (system D).Reachable c) :
    c.state.own.isInitialized = true := by
  refine h.invariant (P := fun c => c.state.own.isInitialized = true) ?_ ?_
  · rintro c ⟨env, env', ⟨adm, registry, eng, hd⟩, -, -, -⟩
    obtain ⟨-, hown⟩ := run_constructor.mp hd
    rw [hown]
    rfl
  · rintro c l d - hinit ⟨-, -, hstep, -⟩
    cases l with
    | peer l =>
      rw [hstep.2.1]
      exact hinit
    | payment env approved e =>
      rw [hstep.2]
      rcases commit_cases (exec (clients D approved) e) env c.state with ⟨u, hok⟩ | heq
      · rw [Storage.isInitialized, exec_initialized hok]
        exact hinit
      · rw [heq]
        exact hinit

end Reachable

/-! ### What was minted for a reward -/

/-- What should have been minted to an account for a reward. -/
def dueTo (a : Address) : Option RewardRecord → ℤ
  | some r => if a = r.recipient then r.amountStar.val else 0
  | none => 0

lemma Turn.grants (h : Turn D w w') :
    w'.peers.own.reward = w.peers.own.reward ∨ ∃ r, Grants D w w' r := by
  cases h with
  | quiet _ hreward => exact .inl hreward
  | direct r _ _ hg => exact .inr ⟨r, hg⟩
  | rewarded _ _ r _ _ _ _ _ _ hg => exact .inr ⟨r, hg⟩

lemma Turn.mintedFor {c d : OnLedger World} {l : Label} (h : Turn D c.state d.state)
    (rewardId : Bytes32) (a : Address) :
    dueTo a (c.state.peers.own.reward rewardId) + mintedFor D rewardId a ⟨c, l, d⟩ =
      dueTo a (d.state.peers.own.reward rewardId) := by
  rcases h.grants with hsame | ⟨r, hg⟩
  · have hzero : Rewards.mintedFor D rewardId a ⟨c, l, d⟩ = 0 := by
      rw [Rewards.mintedFor, if_neg]
      rintro ⟨hpre, hpost⟩
      rw [hsame] at hpost
      exact hpost hpre
    rw [hzero, add_zero, hsame]
  · by_cases hid : rewardId = r.rewardId
    · subst hid
      have hpost : d.state.peers.own.reward r.rewardId = some r := by
        rw [hg.reward, Function.update_self]
      rw [Rewards.mintedFor, hpost, hg.fresh, if_pos ⟨rfl, Option.some_ne_none r⟩,
        hg.balance a, add_sub_cancel_left]
      exact zero_add _
    · have hpost : d.state.peers.own.reward rewardId = c.state.peers.own.reward rewardId := by
        rw [hg.reward, Function.update_of_ne hid]
      have hzero : Rewards.mintedFor D rewardId a ⟨c, l, d⟩ = 0 := by
        rw [Rewards.mintedFor, if_neg]
        rintro ⟨hpre, hne⟩
        exact hne (hpost.trans hpre)
      rw [hzero, add_zero, hpost]

section Runs

variable {c₀ c : OnLedger World} {tr : List (Move (OnLedger World) Label)}

/-- For every reward, its recipient was minted its amount, and nobody else anything. -/
lemma totalMintedFor_eq (h₀ : (system D).Init c₀) (h : (system D).Run c₀ tr c)
    (rewardId : Bytes32) (a : Address) :
    totalMintedFor D rewardId a tr = dueTo a (c.state.peers.own.reward rewardId) := by
  refine h.invariant (P := fun tr c => totalMintedFor D rewardId a tr =
    dueTo a (c.state.peers.own.reward rewardId)) h₀ ?_ ?_
  · obtain ⟨env, env', -, ⟨adm', token, hd'⟩, -, -⟩ := h₀
    obtain ⟨-, hown'⟩ := RewardEngine.run_constructor.mp hd'
    rw [hown']
    rfl
  · rintro tr t l u hreach ih ⟨-, -, hstep, -⟩
    have hturn := hstep.turn (inv_of_reachable hreach).keyed (fixed_of_reachable hreach)
    rw [totalMintedFor, List.map_append, List.sum_append, List.map_singleton,
      List.sum_singleton, ← hturn.mintedFor rewardId a, ← ih, totalMintedFor]

end Runs

/-! ### Rewards that fail -/

/-- Reasons for the reward of a payment to fail. -/
inductive Blocked (D : Deployment) (w : World) (p : PaymentRecord) : Prop where
  | duplicate (h : (w.peers.own.reward p.rewardId).isSome)
  | paused (h : w.peers.own.isPaused = true)
  | issuer (h : w.peers.own.isAuthorizedIssuer D.paymentEngine = false)
  | frozen (s : StarToken.Storage) (hs : w.peers.peers D.starToken = some s)
      (h : s.isAuthorized p.payer = false)
  | cap (s : StarToken.Storage) (hs : w.peers.peers D.starToken = some s)
      (md : StarToken.TokenMetadata) (hmd : s.metadata = some md)
      (h : md.maxSupply.val < s.readTotalSupply.val + p.amountInPaise.val.tdiv 10000 * 10)
  | small (h : p.amountInPaise.val < 10000)

lemma Blocked.rewardReply {p : PaymentRecord} (hfix : Fixed D w)
    (hself : env.self = D.paymentEngine) (h : Blocked D w p) :
    rewardReply (clients D approved) env w.peers D.rewardEngine p = none := by
  rw [Option.eq_none_iff_forall_ne_some]
  rintro ⟨n, ws'⟩ hreply
  have hissued := rewardReply_eq_some.mp hreply
  rw [hself] at hissued
  have hamount : 0 < p.amountInPaise.val ∧ p.amountInPaise.val.tdiv 10000 * 10 = n.val := by
    have hn := hissued.amount
    rw [RewardEngine.Issue.amountStar] at hn
    split_ifs at hn with hpos
    exact ⟨not_le.mp hpos, (I128.ofInt?_eq_some.mp hn).symm⟩
  obtain ⟨token, ts, htok, hmint, -⟩ := hissued.minted
  obtain rfl : token = D.starToken := Option.some.inj (htok.symm.trans hfix.starToken)
  obtain ⟨s, t, hs, hrun, -⟩ := RewardEngine.mintFromMinter_eq_some.mp hmint
  obtain ⟨-, -, -, m, hm, -⟩ := StarToken.run_mintFromMinter.mp hrun
  cases h with
  | duplicate h =>
    have hfresh : w.peers.own.reward p.rewardId = none := hissued.fresh
    rw [hfresh] at h
    cases h
  | paused h =>
    rw [hissued.live.2] at h
    cases h
  | issuer h => exact Bool.false_ne_true (h.symm.trans hissued.authorized)
  | frozen s' hs' h =>
    obtain rfl := Option.some.inj (hs'.symm.trans hs)
    exact Bool.false_ne_true (h.symm.trans hm.authorized)
  | cap s' hs' md hmd h =>
    obtain rfl := Option.some.inj (hs'.symm.trans hs)
    obtain ⟨md', supply, next, hmd', hsupply, hle, -⟩ := hm.written
    obtain rfl := Option.some.inj (hmd.symm.trans hmd')
    omega
  | small h =>
    have hdiv : p.amountInPaise.val.tdiv 10000 = 0 :=
      Int.tdiv_eq_zero_of_lt hamount.1.le h
    have hpos := hissued.positive
    omega

/-- What `issue_reward` leaves when the reward engine fails. -/
lemma unrewarded_of_reply_none {operator : Address} {id : Bytes32} {n : I128} {p : PaymentRecord}
    (hfix : Fixed D w) (hkeyed : Keyed w.own) (hp : w.own.payment id = some p)
    (h : (issueReward (clients D approved) operator id).run env w = .ok (n, w'))
    (hreply : rewardReply (clients D approved) env w.peers D.rewardEngine p = none) :
    n = 0 ∧ (∃ p', w'.own.payment id = some p' ∧ p'.starReward = 0) ∧ w'.peers = w.peers := by
  obtain ⟨hop, p₁, eng, hp₁, hst, heng, hn, rfl⟩ := run_issueReward.mp h
  obtain rfl := Option.some.inj (hp.symm.trans hp₁)
  obtain rfl : eng = D.rewardEngine := Option.some.inj (heng.symm.trans hfix.rewardEngine)
  rw [hreply] at hn ⊢
  obtain rfl : n = 0 := hn
  have hkey := hkeyed _ _ hp
  subst hkey
  exact ⟨rfl, ⟨_, Function.update_self .., rfl⟩, rfl⟩

/-! ### Progress -/

/-- A settled payment can be rewarded, with or without STAR, and then completed. -/
lemma completes_of_settled {env' : Env} {approved' : Option Bool} {operator : Address}
    {id : Bytes32} {p : PaymentRecord} (hfix : Fixed D w) (hkeyed : Keyed w.own)
    (hlive : w.own.Live) (hp : w.own.payment id = some p) (hst : p.status = .settled)
    (hauth : env.auth operator = true) (hauth' : env'.auth operator = true)
    (hop : w.own.isOperator operator = true) :
    ∃ n v v', (issueReward (clients D approved) operator id).run env w = .ok (n, v) ∧
      (exec (clients D approved') (.completePayment operator id)).run env' v = .ok ((), v') ∧
      ∃ p', v'.own.payment id = some p' ∧ p'.status = .completed := by
  have hkey := hkeyed _ _ hp
  subst hkey
  refine ⟨_, _, _, run_issueReward.mpr
      ⟨⟨hlive, hauth, hop⟩, p, D.rewardEngine, hp, hst, hfix.rewardEngine, rfl, rfl⟩,
    run_own.mpr ⟨_, run_transitionOperator.mpr
      ⟨⟨hlive, hauth', hop⟩, _, Function.update_self .., rfl, rfl⟩, rfl⟩,
    _, Function.update_self .., rfl⟩

/-! ### The agreement -/

/-- What a run of the composed contracts over `tr` to `c` guarantees. -/
structure Agreement (D : Deployment) (tr : List (Move (OnLedger World) Label))
    (c : OnLedger World) : Prop where
  /-- A payment has a reward exactly if the reward engine recorded and minted it. -/
  agrees : ∀ id p, c.state.own.payment id = some p → ∀ n : I128, 0 < n.val →
    (p.starReward = n ↔
      (∃ r, c.state.peers.own.reward p.rewardId = some r ∧ Backs D p n r) ∧
        totalMintedFor D p.rewardId p.payer tr = n.val)
  /-- One record backs one payment, also if several payments carry its id. -/
  unique : ∀ id id' p p' n n' r, c.state.own.payment id = some p →
    c.state.own.payment id' = some p' → Backs D p n r → Backs D p' n' r → id = id'
  /-- A failing reward call rewards nothing and mints nothing. -/
  failing : ∀ m ∈ tr, ∀ env approved operator id n w p,
    m.label = .payment env approved (.issueReward operator id) →
    (issueReward (clients D approved) operator id).run env m.pre.state = .ok (n, w) →
    m.pre.state.own.payment id = some p →
    rewardReply (clients D approved) env m.pre.state.peers D.rewardEngine p = none →
    (∃ p', m.post.state.own.payment id = some p' ∧ p'.starReward = 0) ∧
      m.post.state.peers = m.pre.state.peers
  /-- Each of the listed reasons makes the reward call fail. -/
  blocked : ∀ m ∈ tr, ∀ env approved e p, m.label = .payment env approved e →
    Blocked D m.pre.state p →
    rewardReply (clients D approved) env m.pre.state.peers D.rewardEngine p = none
  /-- Without a pause, a settled payment can be completed. -/
  progress : c.state.own.isPaused = false → ∀ id p, c.state.own.payment id = some p →
    p.status = .settled → ∀ env env' approved approved' operator,
    env.auth operator = true → env'.auth operator = true →
    c.state.own.isOperator operator = true →
    ∃ n w w', (issueReward (clients D approved) operator id).run env c.state = .ok (n, w) ∧
      (exec (clients D approved') (.completePayment operator id)).run env' w = .ok ((), w') ∧
      ∃ p', w'.own.payment id = some p' ∧ p'.status = .completed

/-- **Reward agreement.** Payments, reward records and minted STAR agree in every run. -/
theorem reward_agreement (D : Deployment) (c₀ c : OnLedger World)
    (tr : List (Move (OnLedger World) Label)) (h₀ : (system D).Init c₀)
    (h : (system D).Run c₀ tr c) : Agreement D tr c := by
  have hreach := h.reachable h₀
  have hinv := inv_of_reachable hreach
  refine ⟨?_, ?_, ?_, ?_, ?_⟩
  · intro id p hp n hn
    constructor
    · rintro rfl
      have hne : p.starReward ≠ 0 := by
        intro hzero
        rw [hzero] at hn
        exact lt_irrefl _ hn
      obtain ⟨r, hr, hback⟩ := hinv.backed id p hp hne
      refine ⟨⟨r, hr, hback⟩, ?_⟩
      rw [totalMintedFor_eq h₀ h, hr, dueTo, if_pos hback.recipient.symm, hback.amountStar]
    · rintro ⟨⟨r, hr, hback⟩, -⟩
      obtain ⟨p', hp', hback'⟩ := hinv.source _ r hr hback.issuer
      rw [hback.sourceId, hinv.keyed id p hp, hp] at hp'
      obtain rfl := Option.some.inj hp'
      exact hback'.amountStar.symm.trans hback.amountStar
  · intro id id' p p' n n' r hp hp' hback hback'
    rw [← hinv.keyed id p hp, ← hinv.keyed id' p' hp', ← hback.sourceId, ← hback'.sourceId]
  · rintro ⟨s, l, t⟩ hm env approved operator id n w p rfl hok hp hreply
    obtain ⟨hs, -, -, hstep, -⟩ := h.of_mem h₀ hm
    have hrun : (exec (clients D approved) (.issueReward operator id)).run env s.state =
        .ok ((), w) := run_void.mpr ⟨n, hok⟩
    have ht : t.state = w := hstep.2.trans (commit_of_ok hrun)
    obtain ⟨-, hzero, hpeers⟩ := unrewarded_of_reply_none (fixed_of_reachable hs)
      (inv_of_reachable hs).keyed hp hok hreply
    rw [← ht] at hzero hpeers
    exact ⟨hzero, hpeers⟩
  · rintro ⟨s, l, t⟩ hm env approved e p rfl hblocked
    obtain ⟨hs, -, -, hstep, -⟩ := h.of_mem h₀ hm
    exact hblocked.rewardReply (fixed_of_reachable hs) hstep.1
  · intro hpaused id p hp hst env env' approved approved' operator hauth hauth' hop
    exact completes_of_settled (fixed_of_reachable hreach) hinv.keyed
      ⟨initialized_of_reachable hreach, hpaused⟩ hp hst hauth hauth' hop

/-- Anyone may call the payment engine next, unless the call moves an address. -/
lemma run_payment {c₀ c : OnLedger World} {tr : List (Move (OnLedger World) Label)}
    (h : (system D).Run c₀ tr c) (env : Env) (approved : Option Bool) (e : Entry)
    (hl : c.ledger ≤ env.ledger) (hself : env.self = D.paymentEngine)
    (hfix : Fixed D ((exec (clients D approved) e).commit env c.state)) :
    (system D).Run c₀
      (tr ++ [⟨c, .payment env approved e,
        ⟨env.ledger, (exec (clients D approved) e).commit env c.state⟩⟩])
      ⟨env.ledger, (exec (clients D approved) e).commit env c.state⟩ :=
  h.snoc ⟨hl, rfl, ⟨hself, rfl⟩, hfix⟩

/-! ### A payment of 150 INR that earns 10 STAR -/

def sampleDeployment : Deployment := ⟨⟨40⟩, ⟨50⟩, ⟨60⟩⟩

/-- The admin of all contracts signs. -/
def sampleEnv (self : Address) : Env := ⟨7, fun a => decide (a = ⟨1⟩), none, self⟩

def sampleStart : OnLedger World :=
  ⟨7, (constructor ⟨1⟩ ⟨30⟩ ⟨50⟩).commit (sampleEnv ⟨40⟩) {},
    (RewardEngine.constructor ⟨1⟩ ⟨60⟩).commit (sampleEnv ⟨50⟩) {},
    Function.update (fun _ => none) ⟨60⟩
      (some ((StarToken.setMinter ⟨50⟩ true).commit (sampleEnv ⟨60⟩)
        ((StarToken.constructor ⟨1⟩ "STAR" "STAR" (.lit 2000)).commit (sampleEnv ⟨60⟩) {})))⟩

/-- The payment engine has become an issuer. -/
def sampleIssuer : OnLedger World :=
  ⟨7, sampleStart.state.own,
    (RewardEngine.exec RewardEngine.mintFromMinter (.setIssuer ⟨40⟩ true)).commit
      (sampleEnv ⟨50⟩) sampleStart.state.peers⟩

def sampleCalls : List Entry :=
  [.createPayment ⟨1⟩ ⟨9⟩ (.fill 1) (.fill 2) .XLM (.lit 15000) (.fill 3) (.fill 4),
    .quotePayment ⟨1⟩ (.fill 1) (.lit 20) (.lit 20) (.lit 0), .markConverted ⟨1⟩ (.fill 1),
    .markSettled ⟨1⟩ (.fill 1), .issueReward ⟨1⟩ (.fill 1)]

def sampleRewarded : OnLedger World :=
  ⟨7, sampleCalls.foldl (fun w e => (exec (clients sampleDeployment (some true)) e).commit
    (sampleEnv ⟨40⟩) w) sampleIssuer.state⟩

lemma sampleStart_init : (system sampleDeployment).Init sampleStart :=
  ⟨sampleEnv ⟨40⟩, sampleEnv ⟨50⟩, ⟨⟨1⟩, ⟨30⟩, ⟨50⟩, rfl⟩, ⟨⟨1⟩, ⟨60⟩, rfl⟩, rfl, rfl, rfl⟩

lemma sampleRewarded_run : ∃ tr, (system sampleDeployment).Run sampleStart tr sampleRewarded ∧
    totalMintedFor sampleDeployment (.fill 4) ⟨9⟩ tr = 10 := by
  have h : (system sampleDeployment).Run sampleStart [] sampleStart := .nil sampleStart
  have h := h.snoc (show (system sampleDeployment).Step sampleStart
      (.peer (.engine (sampleEnv ⟨50⟩) (.setIssuer ⟨40⟩ true))) sampleIssuer from
    ⟨le_rfl, rfl, ⟨by decide, rfl, rfl, rfl⟩, by decide +kernel, by decide +kernel⟩)
  have h := run_payment h (sampleEnv ⟨40⟩) (some true) (.createPayment ⟨1⟩ ⟨9⟩ (.fill 1) (.fill 2)
    .XLM (.lit 15000) (.fill 3) (.fill 4)) (by decide +kernel) rfl
    ⟨by decide +kernel, by decide +kernel⟩
  have h := run_payment h (sampleEnv ⟨40⟩) (some true)
    (.quotePayment ⟨1⟩ (.fill 1) (.lit 20) (.lit 20) (.lit 0)) (by decide +kernel) rfl
    ⟨by decide +kernel, by decide +kernel⟩
  have h := run_payment h (sampleEnv ⟨40⟩) (some true) (.markConverted ⟨1⟩ (.fill 1))
    (by decide +kernel) rfl ⟨by decide +kernel, by decide +kernel⟩
  have h := run_payment h (sampleEnv ⟨40⟩) (some true) (.markSettled ⟨1⟩ (.fill 1))
    (by decide +kernel) rfl ⟨by decide +kernel, by decide +kernel⟩
  have h := run_payment h (sampleEnv ⟨40⟩) (some true) (.issueReward ⟨1⟩ (.fill 1))
    (by decide +kernel) rfl ⟨by decide +kernel, by decide +kernel⟩
  exact ⟨_, h, by decide +kernel⟩

theorem reward_agreement_of_rewarded_payment :
    ∃ c₀ tr c, (system ⟨⟨40⟩, ⟨50⟩, ⟨60⟩⟩).Run c₀ tr c ∧
      (c.state.own.payment (.fill 1)).map (·.starReward) = some (.lit 10) ∧
      totalMintedFor ⟨⟨40⟩, ⟨50⟩, ⟨60⟩⟩ (.fill 4) ⟨9⟩ tr = 10 ∧
      Agreement ⟨⟨40⟩, ⟨50⟩, ⟨60⟩⟩ tr c := by
  obtain ⟨tr, h, hminted⟩ := sampleRewarded_run
  exact ⟨_, tr, _, h, by decide +kernel, hminted,
    reward_agreement sampleDeployment _ _ _ sampleStart_init h⟩

end PayEra.PaymentEngine.Rewards
