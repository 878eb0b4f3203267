import PayEra.MerchantRegistry.Lifecycle
import PayEra.PaymentEngine.Effects

/-!
# How a payment is refused

The payment engine together with every merchant registry it can be pointed at. The engine asks the
registry with a plain client call: what the registry answers decides between a payment and
`MerchantNotApproved`, and where the registry fails the host stops the engine as well. The registry
fails for a merchant that it has no record of.
-/

namespace PayEra.PaymentEngine.Approval

open Soroban Soroban.Call Transition
open MerchantRegistry (MerchantRecord MerchantStatus)

/-! ### Merchant registries as the engine's clients -/

/-- The merchant registries, by address. -/
abbrev Registries := Address → Option MerchantRegistry.Storage

/-- The engine's storage and the merchant registries. -/
abbrev World := WithPeers Storage Registries

/-- `is_approved` at an address: without a registry there, the call fails. -/
def isApproved (registry : Address) (merchantId : Bytes32) : Reply Registries Bool := fun env w =>
  (w registry).bind fun s =>
    ((MerchantRegistry.isApproved merchantId).reply env s).map fun r =>
      (r.1, Function.update w registry (some r.2))

/-- The registries, and a reward engine that answers `reward`. -/
def clients (reward : Option I128) : Clients Registries where
  isApproved := isApproved
  issueSpendReward _ _ _ w := reward.map fun n => (n, w)

/-! ### The contracts as a system -/

/-- A call to the engine, a direct call to a registry, or a new registry. -/
inductive Label where
  | engine (env : Env) (reward : Option I128) (e : Entry)
  | registry (registry : Address) (env : Env) (e : MerchantRegistry.Entry)
  | deploy (registry : Address) (env : Env)

/-- The environment of a step. -/
def Label.env : Label → Env
  | .engine env _ _ | .registry _ env _ | .deploy _ env => env

/-- The engine at the address `engine`, which signs nothing. -/
def Step (engine : Address) (w w' : World) : Label → Prop
  | .engine env reward e => env.self = engine ∧ w' = (exec (clients reward) e).commit env w
  | .registry registry env e =>
    env.self = registry ∧ env.auth engine = false ∧ ∃ s, w.peers registry = some s ∧
      w' = ⟨w.own,
        Function.update w.peers registry (some ((MerchantRegistry.exec e).commit env s))⟩
  | .deploy registry env =>
    env.self = registry ∧ registry ≠ engine ∧ w.peers registry = none ∧
      ∃ s, MerchantRegistry.Deployed env s ∧
        w' = ⟨w.own, Function.update w.peers registry (some s)⟩

/-- The engine is deployed among any registries that are there already. -/
def system (engine : Address) : System (OnLedger World) Label where
  Init c := ∃ env : Env, env.self = engine ∧ Deployed env c.state.own ∧ c.ledger = env.ledger ∧
    c.state.peers engine = none ∧ ∀ registry s, c.state.peers registry = some s →
      ∃ n ≤ env.ledger, MerchantRegistry.system.Reachable ⟨n, s⟩
  Step c l d := c.ledger ≤ l.env.ledger ∧ d.ledger = l.env.ledger ∧
    Step engine c.state d.state l

/-! ### Requests for payments -/

/-- The arguments of `create_payment`. -/
structure Request where
  operator : Address
  payer : Address
  paymentId : Bytes32
  merchantId : Bytes32
  asset : AssetCode
  amountInPaise : I128
  qrHash : Bytes32
  rewardId : Bytes32

/-- The call that a request makes. -/
def Request.call (q : Request) (reward : Option I128) : Call PaymentEngineError World Unit :=
  createPayment (clients reward) q.operator q.payer q.paymentId q.merchantId q.asset
    q.amountInPaise q.qrHash q.rewardId

/-- The conditions that the engine checks by itself. -/
structure Ready (s : Storage) (q : Request) : Prop where
  unpaused : s.isPaused = false
  enabled : s.isOperator q.operator = true
  positive : 0 < q.amountInPaise.val
  unused : s.payment q.paymentId = none

/-- The merchant's record in the registry that the engine is pointed at. -/
def recordOf (w : World) (merchantId : Bytes32) : Option MerchantRecord :=
  w.own.merchantRegistry.bind fun registry => (w.peers registry).bind fun s => s.merchant merchantId

/-- The merchant's registry record is approved. -/
def Approved (w : World) (merchantId : Bytes32) : Prop :=
  ∃ r, recordOf w merchantId = some r ∧ r.status = .approved

/-- What `create_payment` promises: it returns exactly when it should, and its refusals are errors
of its own that leave every storage as it was. -/
structure Raises (env : Env) (w : World) (q : Request) (reward : Option I128) : Prop where
  returns : (∃ w', (q.call reward).run env w = .ok ((), w')) ↔
    Ready w.own q ∧ Approved w q.merchantId
  typed : ¬(Ready w.own q ∧ Approved w q.merchantId) →
    ∃ e, (q.call reward).run env w = .error (.err e)
  unchanged : ¬(Ready w.own q ∧ Approved w q.merchantId) → (q.call reward).commit env w = w
  notApproved : Ready w.own q → ¬Approved w q.merchantId →
    (q.call reward).run env w = .error (.err .merchantNotApproved)

variable {engine : Address} {env : Env} {w w' : World} {q : Request} {reward : Option I128}
  {registry : Address} {merchantId : Bytes32} {r : MerchantRecord}

/-! ### What the registry answers -/

/-- The contracts are set up: the engine is pointed at some address, and what is deployed is
initialized. -/
structure SetUp (w : World) : Prop where
  initialized : w.own.isInitialized = true
  registry : ∃ registry, w.own.merchantRegistry = some registry
  registries : ∀ registry s, w.peers registry = some s → s.isInitialized = true

lemma recordOf_of_registry (h : w.own.merchantRegistry = some registry) :
    recordOf w merchantId = (w.peers registry).bind fun s => s.merchant merchantId := by
  rw [recordOf, h, Option.bind_some]

/-- For a merchant it has a record of, a registry says whether the merchant is approved. -/
lemma isApproved_of_record (hw : SetUp w) (hreg : w.own.merchantRegistry = some registry)
    (hr : recordOf w merchantId = some r) :
    isApproved registry merchantId env w.peers = some (decide (r.status = .approved), w.peers) := by
  rw [recordOf_of_registry hreg, Option.bind_eq_some_iff] at hr
  obtain ⟨s, hs, hr⟩ := hr
  have hanswer : (MerchantRegistry.isApproved merchantId).reply env s =
      some (decide (r.status = .approved), s) := by
    rw [reply_eq_some, MerchantRegistry.run_isApproved]
    exact ⟨hw.registries _ _ hs, r, hr, rfl, rfl⟩
  simp only [isApproved, hs, hanswer, Option.bind_some, Option.map_some]
  rw [Function.update_eq_self_iff.mpr hs.symm]

/-- Without a record the question fails. -/
lemma isApproved_of_none (hreg : w.own.merchantRegistry = some registry)
    (hr : recordOf w merchantId = none) : isApproved registry merchantId env w.peers = none := by
  rw [recordOf_of_registry hreg, Option.bind_eq_none_iff] at hr
  rw [isApproved, Option.bind_eq_none_iff]
  intro s hs
  rw [Option.map_eq_none_iff, reply_eq_none]
  intro b t hrun
  obtain ⟨-, r, hsome, -⟩ := MerchantRegistry.run_isApproved.mp hrun
  rw [hr s hs] at hsome
  cases hsome

/-! ### The engine's own checks -/

lemma requireNotPaused_paused {s : Storage} (hinit : s.isInitialized = true)
    (hp : s.isPaused = true) : requireNotPaused.run env s = .error (.err .paused) := by
  have hi : requireInitialized.run env s = .ok ((), s) := run_requireInitialized.mpr ⟨hinit, rfl⟩
  rw [requireNotPaused, run_bind_of_ok hi, run_bind_of_ok (run_get.mpr ⟨rfl, rfl⟩),
    run_failIf_of hp]

lemma requireOperator_disabled {s : Storage} {operator : Address} (hlive : s.Live)
    (hauth : env.auth operator = true) (hop : s.isOperator operator = false) :
    (requireOperator operator).run env s = .error (.err .unauthorized) := by
  have hl : requireNotPaused.run env s = .ok ((), s) := run_requireNotPaused.mpr ⟨hlive, rfl⟩
  have ha : (requireAuth operator : Engine Unit).run env s = .ok ((), s) :=
    run_requireAuth.mpr ⟨hauth, rfl⟩
  rw [requireOperator, run_bind_of_ok hl, run_bind_of_ok ha,
    run_bind_of_ok (run_get.mpr ⟨rfl, rfl⟩), run_failIf_of (by simp [hop])]

/-- What is left of a call once the engine has read its registry's address. -/
def Request.asked (q : Request) (registry : Address) : Call PaymentEngineError World Unit := do
  let approved ← invoke registry (isApproved registry q.merchantId)
  failIf (¬approved) .merchantNotApproved
  let ledger ← sequence
  own (writePayment (freshPayment ledger q.payer q.paymentId q.merchantId q.asset
    q.amountInPaise q.qrHash q.rewardId))
  own (publish (.payment .created q.paymentId q.payer .created q.amountInPaise))

/-- What is left of a call once the engine has checked its operator. -/
def Request.checked (q : Request) : Call PaymentEngineError World Unit := do
  failIf (q.amountInPaise.val ≤ 0) .invalidAmount
  failIf (← own (hasPayment q.paymentId)) .paymentAlreadyExists
  let registry ← own readMerchantRegistry
  q.asked registry

lemma call_of_operates (h : Operates env w.own q.operator) :
    (q.call reward).run env w = q.checked.run env w := by
  have hl : (own requireNotPaused : Call PaymentEngineError World Unit).run env w = .ok ((), w) :=
    run_own.mpr ⟨w.own, run_requireNotPaused.mpr ⟨h.live, rfl⟩, rfl⟩
  have ho : (own (requireOperator q.operator) : Call PaymentEngineError World Unit).run env w =
      .ok ((), w) :=
    run_own.mpr ⟨w.own, run_requireOperator.mpr ⟨h, rfl⟩, rfl⟩
  rw [Request.call, createPayment, run_bind_of_ok hl, run_bind_of_ok ho]
  rfl

/-- An engine whose operator flag or pause is in the way refuses with an error of its own. -/
lemma call_of_not_operates (hinit : w.own.isInitialized = true)
    (hauth : env.auth q.operator = true) (h : ¬Operates env w.own q.operator) :
    ∃ e, (q.call reward).run env w = .error (.err e) := by
  cases hp : w.own.isPaused with
  | true =>
    refine ⟨.paused, ?_⟩
    rw [Request.call, createPayment,
      run_bind_of_error (run_own_of_error (requireNotPaused_paused hinit hp))]
  | false =>
    have hlive : w.own.Live := ⟨hinit, hp⟩
    have hop : w.own.isOperator q.operator = false := by
      rw [← Bool.not_eq_true]
      exact fun henabled => h ⟨hlive, hauth, henabled⟩
    have hl : (own requireNotPaused : Call PaymentEngineError World Unit).run env w =
        .ok ((), w) :=
      run_own.mpr ⟨w.own, run_requireNotPaused.mpr ⟨hlive, rfl⟩, rfl⟩
    refine ⟨.unauthorized, ?_⟩
    rw [Request.call, createPayment, run_bind_of_ok hl,
      run_bind_of_error (run_own_of_error (requireOperator_disabled hlive hauth hop))]

lemma Ready.operates (h : Ready w.own q) (hinit : w.own.isInitialized = true)
    (hauth : env.auth q.operator = true) : Operates env w.own q.operator :=
  ⟨⟨hinit, h.unpaused⟩, hauth, h.enabled⟩

lemma own_hasPayment (id : Bytes32) : (own (hasPayment id) : Call PaymentEngineError World Bool).run
    env w = .ok ((w.own.payment id).isSome, w) :=
  run_own.mpr ⟨w.own, run_hasPayment.mpr ⟨rfl, rfl⟩, rfl⟩

/-- An initialized engine refuses what is not `Ready` with an error of its own. -/
lemma call_of_not_ready (hinit : w.own.isInitialized = true) (hauth : env.auth q.operator = true)
    (h : ¬Ready w.own q) : ∃ e, (q.call reward).run env w = .error (.err e) := by
  by_cases hop : Operates env w.own q.operator
  · rw [call_of_operates hop]
    by_cases hpos : q.amountInPaise.val ≤ 0
    · exact ⟨.invalidAmount, run_bind_of_error (run_failIf_of hpos)⟩
    · have hamount : (failIf (q.amountInPaise.val ≤ 0) .invalidAmount :
          Call PaymentEngineError World Unit).run env w = .ok ((), w) :=
        run_failIf.mpr ⟨hpos, rfl⟩
      have hused : (w.own.payment q.paymentId).isSome = true := by
        rw [Option.isSome_iff_ne_none]
        exact fun hnone => h ⟨hop.live.2, hop.enabled, not_le.mp hpos, hnone⟩
      refine ⟨.paymentAlreadyExists, ?_⟩
      rw [Request.checked, run_bind_of_ok hamount, run_bind_of_ok (own_hasPayment _),
        run_bind_of_error (run_failIf_of hused)]
  · exact call_of_not_operates hinit hauth hop

/-- Past its own checks, the engine asks the registry. -/
lemma call_of_ready (hinit : w.own.isInitialized = true) (hauth : env.auth q.operator = true)
    (hreg : w.own.merchantRegistry = some registry) (h : Ready w.own q) :
    (q.call reward).run env w = (q.asked registry).run env w := by
  have hamount : (failIf (q.amountInPaise.val ≤ 0) .invalidAmount :
      Call PaymentEngineError World Unit).run env w = .ok ((), w) :=
    run_failIf.mpr ⟨not_le.mpr h.positive, rfl⟩
  have hused : ¬(w.own.payment q.paymentId).isSome = true := by
    rw [h.unused]
    exact Bool.false_ne_true
  have hunused : (failIf ((w.own.payment q.paymentId).isSome = true) .paymentAlreadyExists :
      Call PaymentEngineError World Unit).run env w = .ok ((), w) :=
    run_failIf.mpr ⟨hused, rfl⟩
  have hread : (own readMerchantRegistry : Call PaymentEngineError World Address).run env w =
      .ok (registry, w) :=
    run_own.mpr ⟨w.own, run_readMerchantRegistry.mpr ⟨hreg, rfl⟩, rfl⟩
  rw [call_of_operates (h.operates hinit hauth), Request.checked, run_bind_of_ok hamount,
    run_bind_of_ok (own_hasPayment _), run_bind_of_ok hunused, run_bind_of_ok hread]

/-- **Without a record** the host stops the engine. -/
lemma call_of_none (hw : SetUp w) (hauth : env.auth q.operator = true) (h : Ready w.own q)
    (hr : recordOf w q.merchantId = none) : (q.call reward).run env w = .error .trap := by
  obtain ⟨registry, hreg⟩ := hw.registry
  rw [call_of_ready hw.initialized hauth hreg h, Request.asked,
    run_bind_of_error (run_invoke_of_none (isApproved_of_none hreg hr))]

/-- A merchant with a record that is not approved. -/
lemma call_of_unapproved (hw : SetUp w) (hauth : env.auth q.operator = true) (h : Ready w.own q)
    (hr : recordOf w q.merchantId = some r) (hst : r.status ≠ .approved) :
    (q.call reward).run env w = .error (.err .merchantNotApproved) := by
  obtain ⟨registry, hreg⟩ := hw.registry
  have hanswer : isApproved registry q.merchantId (env.nested registry) w.peers = _ :=
    isApproved_of_record hw hreg hr
  rw [decide_eq_false hst] at hanswer
  have hinvoke : (invoke registry (isApproved registry q.merchantId) :
      Call PaymentEngineError World Bool).run env w = .ok (false, w) :=
    run_invoke.mpr ⟨w.peers, hanswer, rfl⟩
  rw [call_of_ready hw.initialized hauth hreg h, Request.asked, run_bind_of_ok hinvoke,
    run_bind_of_error (run_failIf_of Bool.false_ne_true)]

/-- Exactly when the call returns. -/
lemma call_returns_iff (hw : SetUp w) (hauth : env.auth q.operator = true) :
    (∃ w', (q.call reward).run env w = .ok ((), w')) ↔ Ready w.own q ∧ Approved w q.merchantId := by
  obtain ⟨registry, hreg⟩ := hw.registry
  constructor
  · rintro ⟨w', hok⟩
    obtain ⟨hop, hpos, hnone, registry', u, hreg', happ, -⟩ := run_createPayment.mp hok
    refine ⟨⟨hop.live.2, hop.enabled, hpos, hnone⟩, ?_⟩
    have happ' : isApproved registry' q.merchantId (env.nested registry') w.peers =
        some (true, u) := happ
    cases hr : recordOf w q.merchantId with
    | none =>
      rw [isApproved_of_none hreg' hr] at happ'
      cases happ'
    | some r =>
      rw [isApproved_of_record hw hreg' hr, Option.some.injEq, Prod.mk.injEq] at happ'
      exact ⟨r, hr, of_decide_eq_true happ'.1⟩
  · rintro ⟨hready, r, hr, hst⟩
    refine ⟨_, run_createPayment.mpr ⟨hready.operates hw.initialized hauth, hready.positive,
      hready.unused, registry, w.peers, hreg, ?_, rfl⟩⟩
    have hanswer : isApproved registry q.merchantId (env.nested registry) w.peers = _ :=
      isApproved_of_record hw hreg hr
    rw [decide_eq_true hst] at hanswer
    exact hanswer

/-! ### Reachable states -/

section Reachable

variable {c : OnLedger World}

/-- Only `set_contracts` points the engine at another registry. -/
lemma exec_registry {e : Entry} (h : (exec (clients reward) e).run env w = .ok ((), w')) :
    w'.own.merchantRegistry = w.own.merchantRegistry ∨
      ∃ registry, w'.own.merchantRegistry = some registry := by
  cases e with
  | admin | heartbeat | paused | getPayment =>
    left
    rw [eq_of_isRead rfl h]
  | setContracts registry rewardEngine =>
    right
    obtain ⟨_, hrun, rfl⟩ := run_own.mp h
    obtain ⟨-, adm, -, -, rfl⟩ := run_setContracts.mp hrun
    exact ⟨registry, rfl⟩
  | acceptAdmin =>
    left
    obtain ⟨_, hrun, rfl⟩ := run_own.mp h
    obtain ⟨-, pending, old, -, -, -, rfl⟩ := run_acceptAdmin.mp hrun
    show (w.own.handOver old pending).merchantRegistry = w.own.merchantRegistry
    unfold Storage.handOver
    split_ifs <;> rfl
  | setAdmin newAdmin =>
    left
    obtain ⟨_, hrun, rfl⟩ := run_own.mp h
    obtain ⟨-, adm, -, -, rfl⟩ := run_setAdmin.mp hrun
    rfl
  | pause =>
    left
    obtain ⟨_, hrun, rfl⟩ := run_own.mp h
    obtain ⟨adm, -, -, rfl⟩ := run_pause.mp hrun
    rfl
  | unpause =>
    left
    obtain ⟨_, hrun, rfl⟩ := run_own.mp h
    obtain ⟨adm, -, -, rfl⟩ := run_unpause.mp hrun
    rfl
  | setOperator operator enabled =>
    left
    obtain ⟨_, hrun, rfl⟩ := run_own.mp h
    obtain ⟨-, adm, -, -, rfl⟩ := run_setOperator.mp hrun
    rfl
  | createPayment =>
    left
    obtain ⟨-, -, -, registry, u, -, -, rfl⟩ := run_createPayment.mp h
    rfl
  | issueReward =>
    left
    obtain ⟨amount, h⟩ := run_void.mp h
    obtain ⟨-, r, eng, -, -, -, -, rfl⟩ := run_issueReward.mp h
    rfl
  | quotePayment =>
    left
    obtain ⟨_, hrun, rfl⟩ := run_own.mp h
    obtain ⟨-, -, r, -, -, rfl⟩ := run_quotePayment.mp hrun
    rfl
  | markConverted | markSettled | completePayment =>
    left
    obtain ⟨_, hrun, rfl⟩ := run_own.mp h
    obtain ⟨-, r, -, -, rfl⟩ := run_transitionOperator.mp hrun
    rfl
  | cancelPayment =>
    left
    obtain ⟨_, hrun, rfl⟩ := run_own.mp h
    obtain ⟨-, -, r, -, -, -, rfl⟩ := run_cancelPayment.mp hrun
    rfl
  | failPayment =>
    left
    obtain ⟨_, hrun, rfl⟩ := run_own.mp h
    obtain ⟨-, r, -, -, rfl⟩ := run_failPayment.mp hrun
    rfl

/-- The engine leaves the registries alone. -/
lemma exec_registries {e : Entry} (h : (exec (clients reward) e).run env w = .ok ((), w')) :
    w'.peers = w.peers := by
  by_cases hne : ∀ operator paymentId, e ≠ .issueReward operator paymentId
  · refine exec_peers ?_ hne h
    intro registry merchantId env u b u' happ
    obtain ⟨s, hs, hmap⟩ := Option.bind_eq_some_iff.mp happ
    obtain ⟨⟨b', t⟩, hreply, heq⟩ := Option.map_eq_some_iff.mp hmap
    obtain ⟨-, r, -, -, rfl⟩ := MerchantRegistry.run_isApproved.mp (reply_eq_some.mp hreply)
    have hsame : Function.update u registry (some t) = u' := (Prod.ext_iff.mp heq).2
    rw [← hsame]
    exact Function.update_eq_self_iff.mpr hs.symm
  · push Not at hne
    obtain ⟨operator, paymentId, rfl⟩ := hne
    obtain ⟨n, hn⟩ := run_void.mp h
    obtain ⟨-, r, eng, -, -, -, -, rfl⟩ := run_issueReward.mp hn
    cases reward with
    | none => rfl
    | some n => rfl

lemma setUp_of_reachable (h : (system engine).Reachable c) : SetUp c.state := by
  refine h.invariant (P := fun c => SetUp c.state) ?_ ?_
  · rintro c ⟨env, -, ⟨adm, registry, eng, hd⟩, -, -, hpeers⟩
    obtain ⟨-, hown⟩ := run_constructor.mp hd
    refine ⟨by rw [hown]; rfl, ⟨registry, by rw [hown]; rfl⟩, fun a s hs => ?_⟩
    obtain ⟨n, -, hreach⟩ := hpeers a s hs
    exact MerchantRegistry.initialized_of_reachable hreach
  · rintro c l d - hc ⟨-, -, hstep⟩
    cases l with
    | engine env reward e =>
      rw [hstep.2]
      rcases commit_cases (exec (clients reward) e) env c.state with ⟨u, hok⟩ | heq
      · refine ⟨?_, ?_, ?_⟩
        · rw [Storage.isInitialized, exec_initialized hok]
          exact hc.initialized
        · rcases exec_registry hok with hsame | hset
          · rw [hsame]
            exact hc.registry
          · exact hset
        · rw [exec_registries hok]
          exact hc.registries
      · rw [heq]
        exact hc
    | registry registry env e =>
      obtain ⟨-, -, s, hs, hd⟩ := hstep
      rw [hd]
      refine ⟨hc.initialized, hc.registry, fun a t ht => ?_⟩
      rcases update_eq_some.mp ht with ⟨-, rfl⟩ | ⟨-, hold⟩
      · have hinit := hc.registries registry s hs
        rcases commit_cases (MerchantRegistry.exec e) env s with ⟨u, hok⟩ | heq
        · rw [MerchantRegistry.Storage.isInitialized, MerchantRegistry.exec_initialized hok]
          exact hinit
        · rw [heq]
          exact hinit
      · exact hc.registries a t hold
    | deploy registry env =>
      obtain ⟨-, -, -, s, ⟨adm, hdeploy⟩, hd⟩ := hstep
      obtain ⟨-, rfl⟩ := MerchantRegistry.run_constructor.mp hdeploy
      rw [hd]
      refine ⟨hc.initialized, hc.registry, fun a t ht => ?_⟩
      rcases update_eq_some.mp ht with ⟨-, rfl⟩ | ⟨-, hold⟩
      · rfl
      · exact hc.registries a t hold

/-- **`create_payment` keeps its promise** exactly where a request that is fine otherwise names a
merchant the registry has a record of. -/
theorem raises_iff (h : (system engine).Reachable c) (hauth : env.auth q.operator = true) :
    Raises env c.state q reward ↔
      (Ready c.state.own q → (recordOf c.state q.merchantId).isSome = true) := by
  have hw := setUp_of_reachable h
  constructor
  · intro hraises hready
    rw [Option.isSome_iff_ne_none]
    intro hnone
    have happ : ¬Approved c.state q.merchantId := by
      rintro ⟨r, hr, -⟩
      rw [hnone] at hr
      cases hr
    have htrap : (q.call reward).run env c.state = .error .trap :=
      call_of_none hw hauth hready hnone
    rw [hraises.notApproved hready happ] at htrap
    cases htrap
  · intro hrecord
    have hunapproved : Ready c.state.own q → ¬Approved c.state q.merchantId →
        (q.call reward).run env c.state = .error (.err .merchantNotApproved) := by
      intro hready happ
      obtain ⟨r, hr⟩ := Option.isSome_iff_exists.mp (hrecord hready)
      exact call_of_unapproved hw hauth hready hr fun hst => happ ⟨r, hr, hst⟩
    have htyped : ¬(Ready c.state.own q ∧ Approved c.state q.merchantId) →
        ∃ e, (q.call reward).run env c.state = .error (.err e) := by
      intro hnot
      by_cases hready : Ready c.state.own q
      · exact ⟨_, hunapproved hready fun happ => hnot ⟨hready, happ⟩⟩
      · exact call_of_not_ready hw.initialized hauth hready
    refine ⟨call_returns_iff hw hauth, htyped, fun hnot => ?_, hunapproved⟩
    obtain ⟨e, he⟩ := htyped hnot
    exact commit_of_error he

end Reachable

/-! ### A merchant with a record and one without -/

/-- Every call of the sample is made by the address 1 at ledger 7. -/
def sampleCall (self : Address) : Env := ⟨7, fun a => decide (a = ⟨1⟩), none, self⟩

/-- The registry at 30, just deployed. -/
def sampleRegistry : MerchantRegistry.Storage :=
  (MerchantRegistry.constructor ⟨1⟩).commit (sampleCall ⟨30⟩) {}

/-- The engine at 40 and its registry. -/
def sampleDeployed : OnLedger World :=
  ⟨7, (constructor ⟨1⟩ ⟨30⟩ ⟨50⟩).commit (sampleCall ⟨40⟩) {},
    Function.update (fun _ => none) ⟨30⟩ (some sampleRegistry)⟩

/-- A payment of the operator 1 to the merchant 9. -/
def samplePayment : Request where
  operator := ⟨1⟩
  payer := ⟨2⟩
  paymentId := .fill 1
  merchantId := .fill 9
  asset := .USDC
  amountInPaise := .lit 50000
  qrHash := .fill 3
  rewardId := .fill 4

/-- The registration of the merchant 9. -/
def sampleRegistration : MerchantRegistry.Entry :=
  .registerMerchant (.fill 9) ⟨5⟩ (.fill 6) (.fill 7)

/-- The merchant 9 is registered and waits for its review. -/
def sampleRegistered : OnLedger World :=
  ⟨7, sampleDeployed.state.own, Function.update sampleDeployed.state.peers ⟨30⟩
    (some ((MerchantRegistry.exec sampleRegistration).commit (sampleCall ⟨30⟩) sampleRegistry))⟩

lemma sampleDeployed_reachable : (system ⟨40⟩).Reachable sampleDeployed := by
  refine .init ⟨sampleCall ⟨40⟩, rfl, ⟨⟨1⟩, ⟨30⟩, ⟨50⟩, rfl⟩, rfl, rfl, fun a s hs => ?_⟩
  change Function.update (fun _ => none) ⟨30⟩ (some sampleRegistry) a = some s at hs
  rcases update_eq_some.mp hs with ⟨-, rfl⟩ | ⟨-, hnone⟩
  · exact ⟨7, le_rfl, .init ⟨sampleCall ⟨30⟩, ⟨⟨1⟩, rfl⟩, rfl⟩⟩
  · cases hnone

lemma sampleRegistered_reachable : (system ⟨40⟩).Reachable sampleRegistered :=
  sampleDeployed_reachable.step (l := .registry ⟨30⟩ (sampleCall ⟨30⟩) sampleRegistration)
    ⟨le_rfl, rfl, rfl, rfl, sampleRegistry, rfl, rfl⟩

/-- A payment to a merchant that nobody registered is a trap. -/
theorem unregistered_merchant_traps : (system ⟨40⟩).Reachable sampleDeployed ∧
    (sampleCall ⟨40⟩).auth samplePayment.operator = true ∧
    Ready sampleDeployed.state.own samplePayment ∧
    (samplePayment.call none).run (sampleCall ⟨40⟩) sampleDeployed.state = .error .trap ∧
    ¬Raises (sampleCall ⟨40⟩) sampleDeployed.state samplePayment none := by
  have hready : Ready sampleDeployed.state.own samplePayment :=
    ⟨rfl, by decide, by decide, rfl⟩
  have htrap : (samplePayment.call none).run (sampleCall ⟨40⟩) sampleDeployed.state =
      .error .trap := rfl
  refine ⟨sampleDeployed_reachable, by decide, hready, htrap, fun hraises => ?_⟩
  have happ : ¬Approved sampleDeployed.state samplePayment.merchantId := by
    rintro ⟨r, hr, -⟩
    cases hr
  have herr := hraises.notApproved hready happ
  rw [htrap] at herr
  cases herr

theorem raises_of_registered :
    Raises (sampleCall ⟨40⟩) sampleRegistered.state samplePayment none :=
  (raises_iff sampleRegistered_reachable (by decide)).mpr fun _ => by decide

end PayEra.PaymentEngine.Approval
