import Mathlib.Algebra.BigOperators.Group.List.Basic
import PayEra.RewardEngine.Effects
import PayEra.StarToken.Conservation

/-!
# Rewards and the STAR minted for them

The reward engine together with every STAR token it can be pointed at. Minting and record keeping
happen in different contracts, and the record is written after the mint: what ties them together is
that one successful call does both. `turn_of_step` says so once, and the accounts of a whole run are
sums over its transitions.
-/

namespace PayEra.RewardEngine

open Soroban Soroban.Call Transition

/-! ### STAR tokens as the engine's clients -/

/-- The STAR contracts, by address. -/
abbrev Tokens := Address → Option StarToken.Storage

/-- `mint_from_minter` at an address: without a STAR contract there, the call fails. -/
def mintFromMinter : StarTokenClient Tokens := fun starToken minter toAddr amount env w =>
  (w starToken).bind fun s =>
    ((StarToken.mintFromMinter minter toAddr amount).reply env s).map fun r =>
      (r.1, Function.update w starToken (some r.2))

/-- The engine's storage and the STAR contracts. -/
abbrev World := WithPeers Storage Tokens

/-- The balance of an account on one token, zero where there is no token. -/
def starBalance (w : World) (token a : Address) : ℤ :=
  ((w.peers token).map fun s => (s.readBalance a).val).getD 0

/-! ### The two contracts as a system -/

/-- A call to the engine, a direct call to a STAR token, or a new STAR token. -/
inductive Label where
  | engine (env : Env) (e : Entry)
  | star (token : Address) (env : Env) (e : StarToken.Entry)
  | deploy (token : Address) (env : Env)

/-- The environment of a step. -/
def Label.env : Label → Env
  | .engine env _ | .star _ env _ | .deploy _ env => env

/-- The engine at the address `engine`. An address of a contract signs nothing: what calls a token
with the engine's authorization is the engine itself, inside its own call. -/
def Step (engine : Address) (w w' : World) : Label → Prop
  | .engine env e => env.self = engine ∧ w' = (exec mintFromMinter e).commit env w
  | .star token env e =>
    env.self = token ∧ env.auth engine = false ∧ ∃ s, w.peers token = some s ∧
      w' = ⟨w.own, Function.update w.peers token (some ((StarToken.exec e).commit env s))⟩
  | .deploy token env =>
    env.self = token ∧ token ≠ engine ∧ w.peers token = none ∧
      ∃ s, StarToken.Deployed env s ∧ w' = ⟨w.own, Function.update w.peers token (some s)⟩

/-- The engine is deployed among any STAR tokens. -/
def system (engine : Address) : System (OnLedger World) Label where
  Init c := ∃ env : Env, env.self = engine ∧ Deployed env c.state.own ∧ c.ledger = env.ledger ∧
    c.state.peers engine = none
  Step c l d := c.ledger ≤ l.env.ledger ∧ d.ledger = l.env.ledger ∧
    Step engine c.state d.state l

/-! ### What a run issued and minted -/

/-- The reward a transition issued, with the token that was configured then. -/
def issued (m : Move (OnLedger World) Label) : Option (Address × RewardRecord) :=
  match m.label with
  | .engine _ (.issue i) =>
    if m.pre.state.own.reward i.rewardId = none then
      (m.post.state.own.reward i.rewardId).bind fun r =>
        m.pre.state.own.starToken.map fun token => (token, r)
    else none
  | _ => none

/-- The rewards issued along a run. -/
def issues (tr : List (Move (OnLedger World) Label)) : List (Address × RewardRecord) :=
  tr.filterMap issued

/-- What one transition minted on a token to an account with the engine as the minter: the growth
of the balance, in the engine's own calls and in calls of `mint_from_minter` that name it. -/
def minted (engine token a : Address) (m : Move (OnLedger World) Label) : ℤ :=
  let growth := starBalance m.post.state token a - starBalance m.pre.state token a
  match m.label with
  | .engine _ _ => growth
  | .star called _ (.mintFromMinter minter _ _) =>
    if called = token ∧ minter = engine then growth else 0
  | _ => 0

/-- The rewards issued to an account while a token was configured, added up. -/
def rewarded (token a : Address) (ps : List (Address × RewardRecord)) : ℤ :=
  ((ps.filter fun p => p.1 = token ∧ p.2.recipient = a).map fun p => p.2.amountStar.val).sum

variable {engine : Address} {env : Env} {w w' : World}

/-! ### One call -/

lemma mintFromMinter_eq_some {starToken minter toAddr : Address} {amount : I128}
    {ts ts' : Tokens} {u : Unit} :
    mintFromMinter starToken minter toAddr amount env ts = some (u, ts') ↔
      ∃ s t, ts starToken = some s ∧
        (StarToken.mintFromMinter minter toAddr amount).run env s = .ok ((), t) ∧
        ts' = Function.update ts starToken (some t) := by
  simp only [mintFromMinter, Option.bind_eq_some_iff, Option.map_eq_some_iff, Prod.exists,
    reply_eq_some, Prod.mk.injEq]
  constructor
  · rintro ⟨s, hs, v, t, hrun, -, rfl⟩
    exact ⟨s, t, hs, hrun, rfl⟩
  · rintro ⟨s, t, hs, hrun, rfl⟩
    exact ⟨s, hs, (), t, hrun, trivial, rfl⟩

/-- The mint behind a reward: the recipient's balance on the configured token grows by the amount
of the reward, and no other balance changes. -/
lemma Issued.balances {i : Issue} {n : I128} (h : Issued mintFromMinter env w i n w') :
    ∃ token, w.own.starToken = some token ∧ ∀ tk a, starBalance w' tk a =
      starBalance w tk a + if tk = token ∧ a = i.recipient then n.val else 0 := by
  obtain ⟨token, ts, htok, hmint, rfl⟩ := h.minted
  obtain ⟨s, t, hs, hrun, rfl⟩ := mintFromMinter_eq_some.mp hmint
  obtain ⟨-, -, -, m, hm, rfl⟩ := StarToken.run_mintFromMinter.mp hrun
  refine ⟨token, htok, fun tk a => ?_⟩
  by_cases htk : tk = token
  · subst htk
    simp only [starBalance, Function.update_self, hs, Option.map_some,
      Option.getD_some, true_and]
    exact hm.readBalance a
  · simp [starBalance, htk]

lemma Issued.reward {i : Issue} {n : I128} (h : Issued mintFromMinter env w i n w') :
    w'.own.reward =
      Function.update w.own.reward i.rewardId (some (i.record n env.ledger)) := by
  obtain ⟨token, ts, -, -, rfl⟩ := h.minted
  rfl

/-! ### One step -/

/-- What one transition does to the rewards and to the engine's mints. -/
inductive Turn (engine : Address) (m : Move (OnLedger World) Label) : Prop where
  | quiet (hreward : m.post.state.own.reward = m.pre.state.own.reward) (hissued : issued m = none)
      (hminted : ∀ token a, minted engine token a m = 0)
  | issue (token : Address) (r : RewardRecord)
      (hfresh : m.pre.state.own.reward r.rewardId = none)
      (hreward : m.post.state.own.reward =
        Function.update m.pre.state.own.reward r.rewardId (some r))
      (hpos : 0 < r.amountStar.val) (hissued : issued m = some (token, r))
      (hminted : ∀ tk a, minted engine tk a m =
        if tk = token ∧ a = r.recipient then r.amountStar.val else 0)

/-- A call that returned, as a transition. -/
lemma Issued.turn {i : Issue} {n : I128} {c d : OnLedger World}
    (h : Issued mintFromMinter env c.state i n d.state) :
    Turn engine ⟨c, .engine env (.issue i), d⟩ ∧ ∃ token, c.state.own.starToken = some token ∧
      issued ⟨c, .engine env (.issue i), d⟩ = some (token, i.record n env.ledger) := by
  obtain ⟨token, htok, hbal⟩ := h.balances
  have hissued : issued ⟨c, .engine env (.issue i), d⟩ =
      some (token, i.record n env.ledger) := by
    simp [issued, h.fresh, h.reward, htok]
  refine ⟨.issue token (i.record n env.ledger) h.fresh h.reward h.positive hissued ?_, token,
    htok, hissued⟩
  intro tk a
  show starBalance d.state tk a - starBalance c.state tk a = _
  rw [hbal tk a, add_sub_cancel_left]
  rfl

/-- A transition that leaves the rewards and the tokens alone. -/
lemma Turn.of_same {c d : OnLedger World} {e : Entry}
    (hreward : d.state.own.reward = c.state.own.reward)
    (hpeers : d.state.peers = c.state.peers) : Turn engine ⟨c, .engine env e, d⟩ := by
  refine .quiet hreward ?_ ?_
  · cases e with
    | issue i =>
      simp only [issued, hreward]
      split_ifs with hnone
      · rw [hnone]
        rfl
      · rfl
    | _ => rfl
  · intro token a
    simp [minted, starBalance, hpeers]

/-- A direct call to a token mints nothing with the engine as the minter. -/
lemma minted_star_eq_zero {c d : OnLedger World} {called token a : Address} {e : StarToken.Entry}
    {s : StarToken.Storage} (hauth : env.auth engine = false)
    (hs : c.state.peers called = some s)
    (hd : d.state.peers = Function.update c.state.peers called
      (some ((StarToken.exec e).commit env s))) :
    minted engine token a ⟨c, .star called env e, d⟩ = 0 := by
  cases e with
  | mintFromMinter minter toAddr amount =>
    simp only [minted]
    split_ifs with h
    · obtain ⟨rfl, rfl⟩ := h
      -- the engine did not authorize the call, so the host rolled it back
      rcases commit_cases (StarToken.exec (.mintFromMinter minter toAddr amount)) env s with
        ⟨u, hok⟩ | heq
      · have hm := (StarToken.run_mintFromMinter.mp hok).2.1
        simp [hauth] at hm
      · simp [starBalance, hd, heq, hs]
    · rfl
  | _ => rfl

/-- **One step**: it issues one reward and mints its amount, or it does neither. -/
theorem turn_of_step {c d : OnLedger World} {l : Label} (h : (system engine).Step c l d) :
    Turn engine ⟨c, l, d⟩ := by
  obtain ⟨-, -, hstep⟩ := h
  cases l with
  | engine env e =>
    obtain ⟨-, hd⟩ := hstep
    rcases commit_cases (exec mintFromMinter e) env c.state with ⟨u, hok⟩ | heq
    · rw [← hd] at hok
      rcases exec_effect hok with hsame | ⟨i, n, rfl, hissued⟩
      · exact .of_same hsame.reward hsame.peers
      · exact hissued.turn.1
    · rw [heq] at hd
      exact .of_same (by rw [hd]) (by rw [hd])
  | star token env e =>
    obtain ⟨-, hauth, s, hs, hd⟩ := hstep
    exact .quiet (by rw [hd]) rfl fun tk a => minted_star_eq_zero hauth hs (by rw [hd])
  | deploy token env =>
    obtain ⟨-, -, -, s, -, hd⟩ := hstep
    exact .quiet (by rw [hd]) rfl fun _ _ => rfl

/-! ### Runs -/

/-- The accounts of a run from `c₀` over `tr` to `c`. -/
structure Accounts (engine : Address) (tr : List (Move (OnLedger World) Label))
    (c : OnLedger World) : Prop where
  once : ((issues tr).map fun p => p.2.rewardId).Nodup
  recorded : ∀ id r, c.state.own.reward id = some r ↔
    r.rewardId = id ∧ ∃ token, (token, r) ∈ issues tr
  positive : ∀ p ∈ issues tr, 0 < p.2.amountStar.val
  minted : ∀ token a, (tr.map (minted engine token a)).sum = rewarded token a (issues tr)

/-- The accounts, and what every single transition does to the rewards. -/
structure Accounting (engine : Address) (tr : List (Move (OnLedger World) Label))
    (c : OnLedger World) : Prop extends Accounts engine tr c where
  /-- A call that returns issues its reward under the token configured then. -/
  returned : ∀ m ∈ tr, ∀ env i n t, m.label = .engine env (.issue i) →
    (execIssue mintFromMinter i).run env m.pre.state = .ok (n, t) →
    m.pre.state.own.reward i.rewardId = none ∧
      ∃ token, m.pre.state.own.starToken = some token ∧
        issued m = some (token, i.record n env.ledger)
  /-- A call that fails leaves both contracts as they were. -/
  failed : ∀ m ∈ tr, ∀ env i e, m.label = .engine env (.issue i) →
    (execIssue mintFromMinter i).run env m.pre.state = .error e →
    m.post.state = m.pre.state
  /-- A record never changes. -/
  fixed : ∀ m ∈ tr, ∀ id r, m.pre.state.own.reward id = some r →
    m.post.state.own.reward id = some r

section Runs

variable {c₀ c d : OnLedger World} {l : Label} {tr : List (Move (OnLedger World) Label)}

lemma issues_snoc (m : Move (OnLedger World) Label) :
    issues (tr ++ [m]) = issues tr ++ (issued m).toList := by
  rw [issues, List.filterMap_append, issues, List.filterMap_cons]
  cases issued m <;> rfl

lemma rewarded_append (token a : Address) (ps qs : List (Address × RewardRecord)) :
    rewarded token a (ps ++ qs) = rewarded token a ps + rewarded token a qs := by
  rw [rewarded, List.filter_append, List.map_append, List.sum_append]
  rfl

lemma rewarded_singleton (token a tk : Address) (r : RewardRecord) :
    rewarded token a [(tk, r)] =
      if token = tk ∧ a = r.recipient then r.amountStar.val else 0 := by
  by_cases h : token = tk ∧ a = r.recipient
  · obtain ⟨rfl, rfl⟩ := h
    simp [rewarded]
  · rw [if_neg h, rewarded, List.filter_eq_nil_iff.mpr]
    · rfl
    · intro p hp hq
      obtain rfl := List.mem_singleton.mp hp
      obtain ⟨h₁, h₂⟩ := of_decide_eq_true hq
      exact h ⟨h₁.symm, h₂.symm⟩

lemma accounts_init (h : (system engine).Init c₀) : Accounts engine [] c₀ := by
  obtain ⟨env, -, ⟨adm, token, hd⟩, -, -⟩ := h
  obtain ⟨-, hown⟩ := run_constructor.mp hd
  refine ⟨List.nodup_nil, ?_, by simp [issues], fun _ _ => rfl⟩
  intro id r
  rw [hown]
  simp [issues, Storage.publish, Storage.setIssuer]

/-- One step keeps the accounts. -/
lemma Turn.accounts (h : Accounts engine tr c) (ht : Turn engine ⟨c, l, d⟩) :
    Accounts engine (tr ++ [⟨c, l, d⟩]) d := by
  cases ht with
  | quiet hreward hissued hminted =>
    have hi : issues (tr ++ [⟨c, l, d⟩]) = issues tr := by
      rw [issues_snoc, hissued, Option.toList_none, List.append_nil]
    refine ⟨by rw [hi]; exact h.once, ?_, by rw [hi]; exact h.positive, ?_⟩
    · intro id r
      rw [hi, ← h.recorded id r]
      exact Eq.congr_left (congrFun hreward id)
    · intro token a
      rw [hi, List.map_append, List.sum_append, h.minted token a, List.map_singleton,
        List.sum_singleton, hminted token a, add_zero]
  | issue token r hfresh hreward hpos hissued hminted =>
    have hi : issues (tr ++ [⟨c, l, d⟩]) = issues tr ++ [(token, r)] := by
      rw [issues_snoc, hissued, Option.toList_some]
    -- the id was free, so no earlier issue used it
    have hnew : ∀ p ∈ issues tr, p.2.rewardId ≠ r.rewardId := by
      intro p hp heq
      have hrec := (h.recorded r.rewardId p.2).mpr ⟨heq, p.1, hp⟩
      rw [hfresh] at hrec
      cases hrec
    refine ⟨?_, ?_, ?_, ?_⟩
    · rw [hi, List.map_append, List.nodup_append']
      refine ⟨h.once, List.nodup_singleton _, ?_⟩
      intro id hid hid'
      obtain ⟨p, hp, rfl⟩ := List.mem_map.mp hid
      exact hnew p hp (List.mem_singleton.mp hid')
    · intro id r'
      rw [hi, hreward]
      by_cases hid : id = r.rewardId
      · subst hid
        rw [Function.update_self]
        constructor
        · rintro ⟨⟩
          exact ⟨rfl, token, List.mem_append_right _ (List.mem_singleton_self _)⟩
        · rintro ⟨hr', tk, hmem⟩
          rcases List.mem_append.mp hmem with hmem | hmem
          · exact absurd hr' (hnew _ hmem)
          · cases List.mem_singleton.mp hmem
            rfl
      · rw [Function.update_of_ne hid, h.recorded id r']
        refine and_congr_right fun hr' => exists_congr fun tk => ?_
        rw [List.mem_append, List.mem_singleton]
        refine (or_iff_left ?_).symm
        rintro ⟨⟩
        exact hid hr'.symm
    · intro p hp
      rw [hi] at hp
      rcases List.mem_append.mp hp with hp | hp
      · exact h.positive p hp
      · obtain rfl := List.mem_singleton.mp hp
        exact hpos
    · intro tk a
      rw [hi, rewarded_append, rewarded_singleton, List.map_append, List.sum_append,
        h.minted tk a, List.map_singleton, List.sum_singleton, hminted tk a]

lemma Turn.fixed {m : Move (OnLedger World) Label} (h : Turn engine m) {id : Bytes32}
    {r : RewardRecord} (hr : m.pre.state.own.reward id = some r) :
    m.post.state.own.reward id = some r := by
  cases h with
  | quiet hreward _ _ => rw [hreward, hr]
  | issue token r' hfresh hreward _ _ _ =>
    have hne : id ≠ r'.rewardId := by
      rintro rfl
      rw [hfresh] at hr
      cases hr
    rw [hreward, Function.update_of_ne hne, hr]

/-- **Accounting.** In every run of the reward engine and the STAR tokens, each reward id is issued
at most once, and on every token and for every account the engine minted what it recorded. -/
theorem reward_accounting (engine : Address) (c₀ c : OnLedger World)
    (tr : List (Move (OnLedger World) Label)) (h₀ : (system engine).Init c₀)
    (h : (system engine).Run c₀ tr c) : Accounting engine tr c := by
  have hturn : ∀ m ∈ tr, Turn engine m := fun m hm => turn_of_step (h.of_mem h₀ hm).2
  refine ⟨?_, ?_, ?_, fun m hm id r hr => (hturn m hm).fixed hr⟩
  · exact h.invariant h₀ (accounts_init h₀) fun tr t l u _ ih hstep =>
      (turn_of_step hstep).accounts ih
  · rintro ⟨s, l, t⟩ hm env i n t' rfl hok
    obtain ⟨-, -, -, ht⟩ := (h.of_mem h₀ hm).2
    have hrun : (exec mintFromMinter (.issue i)).run env s.state = .ok ((), t') :=
      run_void.mpr ⟨n, hok⟩
    rw [commit_of_ok hrun] at ht
    rw [← ht] at hok
    have hissued := run_execIssue.mp hok
    have hturn : Turn engine _ ∧ _ := hissued.turn
    exact ⟨hissued.fresh, hturn.2⟩
  · rintro ⟨s, l, t⟩ hm env i e rfl herr
    obtain ⟨-, -, -, ht⟩ := (h.of_mem h₀ hm).2
    rcases commit_cases (exec mintFromMinter (.issue i)) env s.state with ⟨u, hok⟩ | heq
    · obtain ⟨n, hn⟩ := run_void.mp hok
      rw [herr] at hn
      cases hn
    · exact ht.trans heq

/-- Anyone may call the engine next. -/
lemma run_engine (h : (system engine).Run c₀ tr c) (env : Env) (e : Entry)
    (hl : c.ledger ≤ env.ledger) (hself : env.self = engine) :
    (system engine).Run c₀
      (tr ++ [⟨c, .engine env e, ⟨env.ledger, (exec mintFromMinter e).commit env c.state⟩⟩])
      ⟨env.ledger, (exec mintFromMinter e).commit env c.state⟩ := h.snoc ⟨hl, rfl, hself, rfl⟩

end Runs

/-- A campaign reward of 10 STAR on a token where the engine is a minter; a second reward with the
same id fails. -/
theorem reward_accounting_of_campaign_reward :
    ∃ c₀ tr c, (system ⟨50⟩).Run c₀ tr c ∧ tr.length = 2 ∧
      rewarded ⟨60⟩ ⟨9⟩ (issues tr) = 10 ∧ Accounting ⟨50⟩ tr c := by
  let adm : Address := ⟨1⟩
  let env : Env := ⟨7, fun a => decide (a = adm), none, ⟨50⟩⟩
  let token : StarToken.Storage := (StarToken.setMinter ⟨50⟩ true).commit env
    ((StarToken.constructor adm "STAR" "STAR" (.lit 1000)).commit env {})
  let c₀ : OnLedger World :=
    ⟨7, ⟨(constructor adm ⟨60⟩).commit env {}, Function.update (fun _ => none) ⟨60⟩ (some token)⟩⟩
  have h₀ : (system ⟨50⟩).Init c₀ := ⟨env, rfl, ⟨adm, ⟨60⟩, rfl⟩, rfl, rfl⟩
  have h : (system ⟨50⟩).Run c₀ [] c₀ := .nil c₀
  have h := run_engine h env (.issue (.campaign adm (.fill 1) ⟨9⟩ (.fill 2) (.lit 10))) le_rfl rfl
  have h := run_engine h env (.issue (.referral adm (.fill 1) ⟨9⟩ (.fill 2))) le_rfl rfl
  exact ⟨c₀, _, _, h, rfl, by decide, reward_accounting ⟨50⟩ c₀ _ _ h₀ h⟩

end PayEra.RewardEngine
