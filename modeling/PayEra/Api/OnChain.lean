import PayEra.Api.Abi
import PayEra.Api.Answers
import PayEra.Api.Playback

/-!
# The processor against the contract

Here the calls of `PaymentEngine` reach the contract's own code, one run at a time: a call returns
exactly if the contract accepts it in the state that the earlier calls left. The arguments reach the
contract as they are meant, with the platform's account as the operator.
-/

namespace PayEra.Api

open Soroban (Address Bytes32 I128 Env WithPeers)
open PaymentEngine (Clients Storage Entry Operates)
open Async (Program Ends upon ends_pure ends_bind ends_attempt ends_perform ends_all)
open Async.Program

/-! ### Calls of the contract -/

/-- What the calls of one run meet: the network with the contracts that the engine calls, and how
identifiers and addresses are read. What varies from call to call depends on its number. -/
structure Chain (ω : Type) where
  clients : Clients ω
  platform : Address
  engine : Address
  ledger : ℕ → ℕ
  bytes32 : String → Bytes32
  address : String → Option Address
  issueStarReward : IssueStarReward → ω → Option ω
  oracle : ℕ → Oracle

/-- The API's tables next to the contract's storage. -/
structure Chained (ω : Type) where
  api : Backend
  engine : WithPeers Storage ω

abbrev ChainedWorld (ω : Type) := Async.Logged (Chained ω) Request Request.Res String

namespace Chain

variable {ω : Type} (chain : Chain ω)

/-- The platform's account signs every call. -/
def env (n : ℕ) : Env where
  ledger := chain.ledger n
  signed a := a = chain.platform
  invoker := none
  self := chain.engine

def createPayment (p : CreatePayment) : Option Entry := do
  let payer ← chain.address p.payer
  let asset ← p.asset.onChain
  let amountInPaise ← I128.ofInt? p.amountInPaise
  pure (.createPayment chain.platform payer (chain.bytes32 p.paymentId)
    (chain.bytes32 p.merchantId) asset amountInPaise (chain.bytes32 p.qrHash)
    (chain.bytes32 p.rewardId))

def quotePayment (p : QuotePayment) : Option Entry := do
  let assetAmount ← I128.ofInt? p.assetAmount
  let usdcAmount ← I128.ofInt? p.usdcAmount
  let networkFeePaise ← I128.ofInt? p.networkFeePaise
  pure (.quotePayment chain.platform (chain.bytes32 p.paymentId) assetAmount usdcAmount
    networkFeePaise)

/-- The contract's answer to a call. -/
def submit (n : ℕ) (e : Entry) (s : Chained ω) : Option (String × Chained ω) :=
  ((PaymentEngine.exec chain.clients e).reply (chain.env n) s.engine).map fun r =>
    ((chain.oracle n).hash, { s with engine := r.2 })

/-- What the `n`-th call does when it returns. -/
def answer (n : ℕ) : (op : Op) → Chained ω → Option (op.Res × Chained ω)
  | .createPayment p, s => (chain.createPayment p).bind fun e => chain.submit n e s
  | .quotePayment p, s => (chain.quotePayment p).bind fun e => chain.submit n e s
  | .markConverted id, s => chain.submit n (.markConverted chain.platform (chain.bytes32 id)) s
  | .markSettled id, s => chain.submit n (.markSettled chain.platform (chain.bytes32 id)) s
  | .completePayment id, s => chain.submit n (.completePayment chain.platform (chain.bytes32 id)) s
  | .issueStarReward p, s => (chain.issueStarReward p s.engine.peers).map fun peers =>
    ((chain.oracle n).hash, { s with engine := { s.engine with peers } })
  | op, s => (Backend.answer (chain.oracle n) op s.api).map fun r => (r.1, { s with api := r.2 })

/-- A call returns whenever it can. -/
def respond (c : Request) (w : ChainedWorld ω) : Except String c.Res × ChainedWorld ω :=
  match chain.answer w.calls.length c.op w.state with
  | some (v, s) => (.ok v, { state := s, calls := w.calls ++ [⟨c, .ok v⟩] })
  | none => (.error "refused", { state := w.state, calls := w.calls ++ [⟨c, .error "refused"⟩] })

/-- `processTransaction` on its own. -/
def processTransaction (js : Js) (tx : Transaction) (attempt : ℕ) (s : Chained ω) :
    ChainedWorld ω :=
  ((Processor.processTransaction js tx attempt).run chain.respond { state := s }).2

end Chain

/-- The calls of the payment engine. -/
def Op.ofEngine : Op → Bool
  | .createPayment _ | .quotePayment _ | .markConverted _ | .markSettled _ | .completePayment _ =>
    true
  | _ => false

/-- The success path: every call of the engine was accepted, the row is `COMPLETED` and the record
is completed. -/
structure Succeeded {ω : Type} (chain : Chain ω) (id : String) (w : ChainedWorld ω) : Prop where
  accepted : ∀ c ∈ w.calls, c.1.op.ofEngine → ∃ v, c.2 = .ok v
  row : ∃ t, w.state.api.transaction id = some t ∧ t.status = .COMPLETED
  record : ∃ r, w.state.engine.own.payment (chain.bytes32 id) = some r ∧ r.status = .completed

/-! ### A record that nobody rewards -/

section Record

variable {ω : Type} {chain : Chain ω} {k : Bytes32} {n : ℕ} {s s' : Chained ω} {hash : String}

/-- The payment is on chain, but neither rewarded nor completed. -/
def Unrewarded (k : Bytes32) (s : Storage) : Prop :=
  ∃ r, s.payment k = some r ∧ r.paymentId = k ∧ r.status ≠ .rewarded ∧ r.status ≠ .completed

lemma unrewarded_write {s : Storage} {r : PaymentEngine.PaymentRecord} {e : PaymentEngine.Event}
    (status : PaymentEngine.PaymentStatus) (hid : r.paymentId = k) (hst : r.status = status)
    (hr : status ≠ .rewarded) (hc : status ≠ .completed) :
    Unrewarded k ((s.writePayment r).publish e) := by
  subst hst
  refine ⟨r, ?_, hid, hr, hc⟩
  show Function.update s.payment r.paymentId (some r) k = some r
  rw [hid, Function.update_self]

lemma Chain.submit_eq_some {e : Entry} : chain.submit n e s = some (hash, s') ↔
    hash = (chain.oracle n).hash ∧ s'.api = s.api ∧
      (PaymentEngine.exec chain.clients e).run (chain.env n) s.engine = .ok ((), s'.engine) := by
  rw [Chain.submit, Option.map_eq_some_iff]
  constructor
  · rintro ⟨r, hr, heq⟩
    cases heq
    exact ⟨rfl, rfl, Soroban.Call.reply_eq_some.mp hr⟩
  · rintro ⟨rfl, hapi, hrun⟩
    refine ⟨((), s'.engine), Soroban.Call.reply_eq_some.mpr hrun, ?_⟩
    cases s'
    subst hapi
    rfl

/-- `create_payment` writes a record that nobody has rewarded yet. -/
lemma unrewarded_createPayment {p : CreatePayment}
    (h : chain.answer n (.createPayment p) s = some (hash, s')) :
    Unrewarded (chain.bytes32 p.paymentId) s'.engine.own ∧ s'.api = s.api := by
  obtain ⟨e, he, h⟩ := Option.bind_eq_some_iff.mp h
  obtain ⟨-, hapi, hrun⟩ := Chain.submit_eq_some.mp h
  simp only [Chain.createPayment, Option.bind_eq_bind, Option.bind_eq_some_iff] at he
  obtain ⟨payer, -, asset, -, amount, -, heq⟩ := he
  cases heq
  obtain ⟨-, -, -, registry, peers, -, -, hs'⟩ := PaymentEngine.run_createPayment.mp hrun
  rw [hs']
  exact ⟨unrewarded_write .created rfl rfl (by decide) (by decide), hapi⟩

lemma unrewarded_quotePayment {p : QuotePayment} (hk : Unrewarded k s.engine.own)
    (hid : chain.bytes32 p.paymentId = k)
    (h : chain.answer n (.quotePayment p) s = some (hash, s')) :
    Unrewarded k s'.engine.own ∧ s'.api = s.api := by
  obtain ⟨e, he, h⟩ := Option.bind_eq_some_iff.mp h
  obtain ⟨-, hapi, hrun⟩ := Chain.submit_eq_some.mp h
  simp only [Chain.quotePayment, Option.bind_eq_bind, Option.bind_eq_some_iff] at he
  obtain ⟨assetAmount, -, usdcAmount, -, networkFee, -, heq⟩ := he
  cases heq
  obtain ⟨own, hown, hs'⟩ := Soroban.Call.run_own.mp hrun
  obtain ⟨-, -, r, hr, -, rfl⟩ := PaymentEngine.run_quotePayment.mp hown
  obtain ⟨r₀, hr₀, hkey, -, -⟩ := hk
  rw [hid, hr₀] at hr
  obtain rfl := Option.some.inj hr
  rw [hs']
  exact ⟨unrewarded_write .quoted hkey rfl (by decide) (by decide), hapi⟩

/-- A transition other than to `Rewarded` or `Completed`. -/
lemma unrewarded_transition {e : Entry} {id : Bytes32} {source target : PaymentEngine.PaymentStatus}
    {action : PaymentEngine.Action} (hk : Unrewarded k s.engine.own) (hid : id = k)
    (he : PaymentEngine.exec chain.clients e = Soroban.Call.own
      (PaymentEngine.transitionOperator chain.platform id source target action))
    (hr : target ≠ .rewarded) (hc : target ≠ .completed) (h : chain.submit n e s = some (hash, s')) :
    Unrewarded k s'.engine.own ∧ s'.api = s.api := by
  obtain ⟨-, hapi, hrun⟩ := Chain.submit_eq_some.mp h
  rw [he] at hrun
  obtain ⟨own, hown, hs'⟩ := Soroban.Call.run_own.mp hrun
  obtain ⟨-, r, hrec, -, rfl⟩ := PaymentEngine.run_transitionOperator.mp hown
  obtain ⟨r₀, hr₀, hkey, -, -⟩ := hk
  rw [hid, hr₀] at hrec
  obtain rfl := Option.some.inj hrec
  rw [hs']
  exact ⟨unrewarded_write target hkey rfl hr hc, hapi⟩

/-- `complete_payment` needs a reward. -/
lemma completePayment_refused {id : String} (hk : Unrewarded (chain.bytes32 id) s.engine.own) :
    chain.answer n (.completePayment id) s = none := by
  rw [← Option.not_isSome_iff_eq_none, Option.isSome_iff_exists]
  rintro ⟨⟨v, s'⟩, h⟩
  obtain ⟨-, -, hrun⟩ := Chain.submit_eq_some.mp h
  obtain ⟨own, hown, -⟩ := Soroban.Call.run_own.mp hrun
  obtain ⟨-, r, hrec, hst, -⟩ := PaymentEngine.run_transitionOperator.mp hown
  obtain ⟨r₀, hr₀, -, hne, -⟩ := hk
  rw [hr₀] at hrec
  obtain rfl := Option.some.inj hrec
  exact hne hst

end Record

/-! ### Calls that complete nothing -/

section Calls

variable {ω : Type} {chain : Chain ω} {id : String} {c : Request} {w : ChainedWorld ω} {n : ℕ}
  {s s' : Chained ω}

/-- Calls of a run other than creating the payment and writing `COMPLETED`. -/
def Op.unfinal (id : String) : Op → Prop
  | .createPayment _ | .createTransaction _ => False
  | .updateTransaction _ data => data.status ≠ some .COMPLETED
  | .quotePayment p => p.paymentId = id
  | .markConverted i | .markSettled i | .completePayment i => i = id
  | _ => True

lemma Op.plain.unfinal {op : Op} (h : op.plain id) : op.unfinal id := by
  cases op with
  | updateTransaction i data => exact h.2.1
  | quotePayment p => exact h
  | markConverted i | markSettled i | completePayment i => exact h
  | createPayment p => exact h.elim
  | createTransaction t => exact h.elim
  | _ => trivial

lemma Op.failing.unfinal {op : Op} (h : op.failing id) : op.unfinal id := by
  cases op with
  | updateTransaction i data =>
    intro hd
    rcases h.2 with h | h
    · rw [h] at hd
      cases hd
    · rw [h] at hd
      cases hd
  | quotePayment p => exact h.elim
  | markConverted i | markSettled i | completePayment i => exact h.elim
  | createPayment p => exact h.elim
  | createTransaction t => exact h.elim
  | _ => trivial

/-- The calls of other services leave the engine's storage alone. -/
lemma answer_other {op : Op} {v : op.Res} (hop : op.ofEngine = false)
    (h : chain.answer n op s = some (v, s')) : s'.engine.own = s.engine.own ∧
      (s'.api = s.api ∨ ∃ o v, Backend.answer o op s.api = some (v, s'.api)) := by
  cases op with
  | createPayment _ | quotePayment _ | markConverted _ | markSettled _ | completePayment _ =>
    cases hop
  | issueStarReward p =>
    obtain ⟨peers, -, heq⟩ := Option.map_eq_some_iff.mp h
    cases heq
    exact ⟨rfl, .inl rfl⟩
  | _ =>
    simp only [Chain.answer, Option.map_eq_some_iff] at h
    obtain ⟨r, hr, heq⟩ := h
    cases heq
    exact ⟨rfl, .inr ⟨_, _, hr⟩⟩

/-- A record stays unrewarded, whatever a run calls after it was made. -/
lemma unrewarded_answer {op : Op} {v : op.Res} (hop : op.unfinal id)
    (hk : Unrewarded (chain.bytes32 id) s.engine.own) (h : chain.answer n op s = some (v, s')) :
    Unrewarded (chain.bytes32 id) s'.engine.own := by
  cases op with
  | createPayment p => exact hop.elim
  | quotePayment p => exact (unrewarded_quotePayment hk (by rw [show p.paymentId = id from hop]) h).1
  | markConverted i =>
    exact (unrewarded_transition hk (by rw [show i = id from hop]) rfl (by decide) (by decide) h).1
  | markSettled i =>
    exact (unrewarded_transition hk (by rw [show i = id from hop]) rfl (by decide) (by decide) h).1
  | completePayment i =>
    obtain rfl : i = id := hop
    rw [completePayment_refused hk] at h
    cases h
  | _ =>
    rw [(answer_other rfl h).1]
    exact hk

/-- The tables change as the calls of the other modules change them. -/
lemma answer_api {op : Op} {v : op.Res} (h : chain.answer n op s = some (v, s')) :
    s'.api = s.api ∨ ∃ o v, Backend.answer o op s.api = some (v, s'.api) := by
  cases op with
  | createPayment p => exact .inl (unrewarded_createPayment h).2
  | quotePayment p =>
    obtain ⟨e, -, h⟩ := Option.bind_eq_some_iff.mp h
    exact .inl (Chain.submit_eq_some.mp h).2.1
  | markConverted i | markSettled i | completePayment i =>
    exact .inl (Chain.submit_eq_some.mp h).2.1
  | _ => exact (answer_other rfl h).2

end Calls

/-! ### The run -/

section Run

variable {ω α : Type} {chain : Chain ω} {js : Js} {tx : Transaction} {c : Request}
  {w : ChainedWorld ω} {p : Service α}

/-- No row of the transaction is `COMPLETED`. -/
def Open (tx : Transaction) (w : ChainedWorld ω) : Prop :=
  ∀ t ∈ w.state.api.transactions, t.id = tx.id → t.status ≠ .COMPLETED

/-- The payment is on chain, and nothing is complete. -/
def Midway (chain : Chain ω) (tx : Transaction) (w : ChainedWorld ω) : Prop :=
  Open tx w ∧ Unrewarded (chain.bytes32 tx.id) w.state.engine.own

lemma respond_of_some {v : c.Res} {s : Chained ω}
    (h : chain.answer w.calls.length c.op w.state = some (v, s)) :
    chain.respond c w = (.ok v, { state := s, calls := w.calls ++ [⟨c, .ok v⟩] }) := by
  simp only [Chain.respond, h]

lemma respond_of_none (h : chain.answer w.calls.length c.op w.state = none) :
    chain.respond c w =
      (.error "refused", { state := w.state, calls := w.calls ++ [⟨c, .error "refused"⟩] }) := by
  simp only [Chain.respond, h]

lemma Open.respond (h : Open tx w) (hop : ¬c.op.completes tx.id) (hfresh : c.op.createsFresh) :
    Open tx (chain.respond c w).2 := by
  cases hans : chain.answer w.calls.length c.op w.state with
  | none =>
    rw [respond_of_none hans]
    exact h
  | some vs =>
    rw [respond_of_some hans]
    intro t' ht' hid hst
    rcases answer_api hans with heq | ⟨o, v, hapi⟩
    · rw [heq] at ht'
      exact h t' ht' hid hst
    · rcases (answer_rowsKept hfresh hapi).backward t' ht' with ⟨hcreated, -⟩ | ⟨t, ht, hsame, hdone⟩
      · rw [hcreated] at hst
        cases hst
      · rw [hsame.id] at hid
        rcases hdone hst with hst | hcomp
        · exact h t ht hid hst
        · rw [hid] at hcomp
          exact hop hcomp

/-- The calls of a run that neither create the payment nor write `COMPLETED`. -/
abbrev Unfinal (tx : Transaction) (c : Request) : Prop := c.op.unfinal tx.id

lemma Op.unfinal.not_completes {id : String} {op : Op} (h : op.unfinal id) : ¬op.completes id := by
  cases op with
  | updateTransaction i data => exact fun hc => h hc.2
  | _ => exact not_false

lemma Op.unfinal.createsFresh {id : String} {op : Op} (h : op.unfinal id) : op.createsFresh := by
  cases op with
  | createTransaction t => exact h.elim
  | _ => trivial

lemma Midway.respond (h : Midway chain tx w) (hc : Unfinal tx c) :
    Midway chain tx (chain.respond c w).2 := by
  refine ⟨h.1.respond hc.not_completes hc.createsFresh, ?_⟩
  cases hans : chain.answer w.calls.length c.op w.state with
  | none =>
    rw [respond_of_none hans]
    exact h.2
  | some vs =>
    rw [respond_of_some hans]
    exact unrewarded_answer hc h.2 hans

/-- What the worlds of a run have in common, from whichever property on. -/
abbrev Staying (J : ChainedWorld ω → Prop) : Except String α → ChainedWorld ω → Prop :=
  upon (fun _ => J) J

lemma staying {J : ChainedWorld ω → Prop} (h : Ends chain.respond p w fun _ => J) :
    Ends chain.respond p w (Staying J) := by
  refine h.mono fun r w hw => ?_
  cases r with
  | ok a => exact hw
  | error e => exact hw

lemma open_of_unfinal (hp : p.All (Unfinal tx)) (hw : Open tx w) :
    Ends chain.respond p w (Staying (Open tx)) := by
  refine staying (ends_all hp hw fun c w hc h => ?_)
  exact h.respond hc.not_completes hc.createsFresh

lemma midway_of_unfinal (hp : p.All (Unfinal tx)) (hw : Midway chain tx w) :
    Ends chain.respond p w (Staying (Midway chain tx)) :=
  staying (ends_all hp hw fun _ _ hc h => h.respond hc)

/-- Failing leaves the row open. -/
lemma midway_open (hp : p.All (Unfinal tx)) (hw : Midway chain tx w) :
    Ends chain.respond p w (upon (fun _ => Midway chain tx) (Open tx)) :=
  (midway_of_unfinal hp hw).weaken (fun _ _ h => h) fun _ h => h.1

lemma unfinal_of_plain (hp : p.All (Plain tx.id)) : p.All (Unfinal tx) :=
  hp.mono fun _ hc => hc.2.unfinal

lemma unfinal_call {op : Op} (h : op.unfinal tx.id) : (call (.run tx.id) op).All (Unfinal tx) :=
  all_perform h

namespace Processor

/-- The first write takes the row out of `COMPLETED`, if there is a row at all. -/
lemma ends_authorize {data : TransactionData} (hd : data.status = some .AUTHORIZED) :
    Ends chain.respond (call (.run tx.id) (.updateTransaction tx.id data)) w
      (Staying (Open tx)) := by
  refine staying (ends_perform ?_)
  cases hans : chain.answer w.calls.length (.updateTransaction tx.id data) w.state with
  | none =>
    rw [respond_of_none hans]
    simp only [Chain.answer, Option.map_eq_none_iff, Backend.answer, Backend.transaction] at hans
    intro t ht hid
    have hne := List.find?_eq_none.mp hans t ht
    exact absurd (decide_eq_true hid) hne
  | some vs =>
    rw [respond_of_some hans]
    simp only [Chain.answer, Option.map_eq_some_iff, Backend.answer] at hans
    obtain ⟨r, ⟨t₀, -, hr⟩, hvs⟩ := hans
    subst hvs
    subst hr
    intro t' ht' hid hst
    obtain ⟨t, -, rfl⟩ := List.mem_map.mp ht'
    by_cases ht : t.id = tx.id
    · rw [if_pos (decide_eq_true ht)] at hst
      have hstatus : (t.update data).status = .AUTHORIZED := by rw [Transaction.update, hd]; rfl
      rw [hstatus] at hst
      cases hst
    · rw [if_neg (by simpa using ht)] at hid
      exact ht hid

lemma ends_prepare : Ends chain.respond (prepare tx) w (Staying (Open tx)) := by
  have hstatus : Ends chain.respond (updateStatus tx.id .AUTHORIZED none) w
      (Staying (Open tx)) := by
    rw [updateStatus, completionDate_of_ne (by decide)]
    refine ends_bind (R := fun _ _ => True) (ends_pure trivial) fun _ w _ => ?_
    refine ends_bind (ends_authorize rfl) fun _ w hw => ?_
    exact open_of_unfinal (unfinal_of_plain plain_logEvent) hw
  refine ends_bind hstatus fun _ w hw => ?_
  refine ends_bind (open_of_unfinal (unfinal_call trivial) hw) fun reward w hw => ?_
  cases reward with
  | none => exact hw
  | some reward =>
    refine open_of_unfinal ?_ hw
    refine all_bind (all_ifPresent fun _ => unfinal_call trivial) fun _ => ?_
    exact all_bind (all_ifPresent fun _ => unfinal_call trivial) fun _ => all_pure _

lemma ends_createPayment {l : Lookup} (hw : Open tx w) :
    Ends chain.respond (call (.run tx.id) (.createPayment (paymentParams tx l))) w
      (upon (fun _ => Midway chain tx) (Open tx)) := by
  have hopen : Open tx (chain.respond ⟨.run tx.id, .createPayment (paymentParams tx l)⟩ w).2 :=
    hw.respond not_false trivial
  refine ends_perform ?_
  cases hans : chain.answer w.calls.length (.createPayment (paymentParams tx l)) w.state with
  | none =>
    rw [respond_of_none hans] at hopen ⊢
    exact hopen
  | some vs =>
    rw [respond_of_some hans] at hopen ⊢
    exact ⟨hopen, (unrewarded_createPayment hans).1⟩

lemma ends_route :
    Ends chain.respond (route js tx) w (upon (fun _ => Midway chain tx) (Open tx)) := by
  refine ends_bind ends_prepare fun lookup w hw => ?_
  refine ends_bind (ends_createPayment hw) fun hash w hw => ?_
  refine ends_bind (midway_open (unfinal_of_plain plain_quote) hw) fun _ w hw => ?_
  exact midway_open (unfinal_of_plain plain_convert) hw

lemma unfinal_payMerchant : (payMerchant tx).All (Unfinal tx) := by
  refine all_bind (unfinal_call trivial) fun merchant => ?_
  cases merchant with
  | none => exact all_pure _
  | some merchant =>
    dsimp only
    cases truthy merchant.defaultUpiVpa with
    | none => exact all_pure _
    | some vpa =>
      refine all_bind (unfinal_call trivial) fun result => ?_
      exact all_bind (unfinal_call trivial) fun _ => all_pure _

/-- Step 7 gets stuck: nobody has rewarded the payment. -/
lemma ends_complete {stellar : StellarResult} {attempt : ℕ} {rewardResult : RewardResult}
    (hw : Midway chain tx w) : Ends chain.respond (complete tx stellar attempt rewardResult) w
      (upon (fun _ _ => False) (Open tx)) := by
  refine ends_bind (midway_open (unfinal_of_plain (plain_updateStatus (by decide) (by decide))) hw)
    fun _ w hw => ?_
  refine ends_bind (R := fun _ _ => False) (ends_perform ?_) fun _ _ h => h.elim
  have hopen : Open tx (chain.respond ⟨.run tx.id, .completePayment tx.id⟩ w).2 :=
    hw.1.respond not_false trivial
  rw [respond_of_none (completePayment_refused hw.2)] at hopen ⊢
  exact hopen

lemma ends_settle {stellar : StellarResult} {attempt : ℕ} (hw : Midway chain tx w) :
    Ends chain.respond (settle tx stellar attempt) w (upon (fun _ _ => False) (Open tx)) := by
  refine ends_bind (midway_open (unfinal_of_plain plain_markSettled) hw) fun _ w hw => ?_
  refine ends_bind (midway_open unfinal_payMerchant hw) fun _ w hw => ?_
  refine ends_bind (midway_open (unfinal_of_plain plain_issueStarRewards) hw) fun _ w hw => ?_
  exact ends_complete hw

lemma ends_abort {hash : Option String} {message : String} (hw : Open tx w) :
    Ends chain.respond (abort tx hash message) w fun _ => Open tx := by
  refine ends_all (failing_abort.mono fun _ hc => hc.2.unfinal) hw fun c w hc h => ?_
  exact h.respond (Op.unfinal.not_completes hc) (Op.unfinal.createsFresh hc)

/-- Whatever the world is, the run leaves the row open. -/
lemma ends_processTransaction {attempt : ℕ} :
    Ends chain.respond (processTransaction js tx attempt) w fun _ => Open tx := by
  refine ends_attempt ends_route (fun stellar w hw => ?_) fun message w hw => ends_abort hw
  refine ends_attempt (ends_settle hw) (fun _ w hw => hw.elim) fun message w hw => ?_
  exact ends_abort hw

end Processor

/-- **The success path is never taken.** The processor does not ask the engine to issue the reward,
so the contract refuses to complete the payment: no run ends with every call accepted, the row
`COMPLETED` and the record completed. -/
theorem success_path_unreachable (chain : Chain ω) (js : Js) (tx : Transaction) (attempt : ℕ)
    (s : Chained ω) :
    ¬Succeeded chain tx.id (chain.processTransaction js tx attempt s) := by
  intro h
  obtain ⟨t, ht, hst⟩ := h.row
  have hopen : Open tx (chain.processTransaction js tx attempt s) :=
    Processor.ends_processTransaction
  rw [Backend.transaction] at ht
  exact hopen t (List.mem_of_find?_eq_some ht) (by simpa using List.find?_some ht) hst

end Run

/-! ### An order that gets stuck -/

/-- What the success path assumes of a claimed transaction. -/
structure Favourable {ω : Type} (chain : Chain ω) (js : Js) (tx : Transaction) (s : Chained ω) :
    Prop where
  claimed : s.api.transaction tx.id = some tx ∧ tx.status = .AUTHORIZED
  reward : ∃ r ∈ s.api.rewards, r.transactionId = some tx.id ∧ r.reason = .SPEND
  approved : ∀ n, ∃ registry peers, s.engine.own.merchantRegistry = some registry ∧
    chain.clients.isApproved registry (chain.bytes32 tx.merchantId) ((chain.env n).nested registry)
      s.engine.peers = some (true, peers)
  wallet : ∃ wallet ∈ s.api.wallets, tx.walletId = some wallet.id ∧
    ∃ payer, chain.address wallet.address = some payer
  operator : ∀ n, Operates (chain.env n) s.engine.own chain.platform
  unused : s.engine.own.payment (chain.bytes32 tx.id) = none
  quote : ∀ rate, ∃ usdcAmount assetAmount, js.usdcUnits tx.amountInPaise rate = .ok usdcAmount ∧
    js.assetUnits tx.amountInPaise tx.quoteRateInrPerAsset = .ok assetAmount ∧
      (0 < usdcAmount ∧ usdcAmount < 2 ^ 127) ∧ 0 < assetAmount ∧ assetAmount < 2 ^ 127

namespace OneOrder

/-- A network on which everybody is approved. -/
def chain : Chain Unit where
  clients := PaymentEngine.approving
  platform := oneAddress.platform
  engine := ⟨3⟩
  ledger n := n
  bytes32 := SorobanService.uuidToBytes32
  address := oneAddress.address
  issueStarReward _ peers := some peers
  oracle _ := oracle

def claimed : Transaction where
  id := "6f1c2d3e-0000-4000-8000-000000000001"
  publicId := "6f1c2d3e-0000-4000-8000-000000000002"
  userId := "customer"
  walletId := some "wallet"
  merchantId := "6f1c2d3e-0000-4000-8000-000000000003"
  merchantQrCodeId := none
  campaignId := none
  status := .AUTHORIZED
  assetIn := .XLM
  amountInCrypto := some 1
  amountInPaise := 10000
  quoteRateInrPerAsset := some 100
  usdcAmount := some 1
  networkFeePaise := 0
  merchantSettlementPaise := 10000
  merchantUpiVpa := "shop@upi"
  qrPayloadHash := none
  expiresAt := some 30000

/-- The order with its reward, next to a deployed engine. -/
def stocked : Chained Unit where
  api :=
    { transactions := [claimed]
      rewards :=
        [{ id := "6f1c2d3e-0000-4000-8000-000000000004", userId := "customer"
           transactionId := some claimed.id, reason := .SPEND, status := .PENDING, starAmount := 10
           formulaVersion := "STAR_SPEND_V1" }]
      merchants := [{ merchant with id := claimed.merchantId }]
      wallets :=
        [{ id := "wallet", userId := "customer"
           address := "GA6MPSEDZWDYVFN2CLITDXSM2WI545AQATWRPJAA4QKBJKHSLUI5JAE6", active := true
           isPrimary := true }] }
  engine :=
    { own :=
        { admin := some chain.platform, initialized := some true, merchantRegistry := some ⟨1⟩
          operator := Function.update (fun _ => none) chain.platform (some true)
          paused := some false, rewardEngine := some ⟨2⟩ }
      peers := () }

/-- The order's run. -/
abbrev played : ChainedWorld Unit := chain.processTransaction js claimed 0 stocked

lemma favourable : Favourable chain js claimed stocked where
  claimed := by decide +kernel
  reward := ⟨_, List.mem_singleton_self _, rfl, rfl⟩
  approved n := ⟨⟨1⟩, (), rfl, rfl⟩
  wallet := ⟨_, List.mem_singleton_self _, rfl, ⟨1⟩, rfl⟩
  operator n := ⟨⟨rfl, rfl⟩, by simp [Env.auth, Chain.env], by simp [stocked, Storage.isOperator]⟩
  unused := rfl
  quote rate := ⟨10000, 10000, rfl, rfl, by decide, by decide⟩

end OneOrder

/-- Everything is favourable, four calls of the engine are accepted, and the fifth is refused: the
record stays settled and the row ends `FAILED`. -/
theorem favourable_order_fails : Favourable OneOrder.chain OneOrder.js OneOrder.claimed OneOrder.stocked ∧
    (OneOrder.played.calls.filter (·.1.op.ofEngine)).map (fun c => decide (c.2.toOption.isSome)) =
      [true, true, true, true, false] ∧
    ¬Succeeded OneOrder.chain OneOrder.claimed.id OneOrder.played := by
  have hrow : (OneOrder.played.state.api.transaction OneOrder.claimed.id).map (·.status) =
      some .FAILED := by decide +kernel
  refine ⟨OneOrder.favourable, by decide +kernel, fun h => ?_⟩
  obtain ⟨t, ht, hst⟩ := h.row
  rw [ht, Option.map_some, hst] at hrow
  cases hrow

end PayEra.Api
