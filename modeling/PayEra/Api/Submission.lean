import PayEra.Api.Soroban
import PayEra.Lib.Execution
import PayEra.Lib.Timed

/-!
# Submitting a Soroban transaction

The write calls of `apps/api/src/stellar/soroban.service.ts`: a transaction that is valid for 30
seconds is built, simulated and sent, and up to 20 times, two seconds apart, the node is asked what
became of it. Whatever the outcome, a call that does not see its transaction succeed throws. The
processor takes a throw for a transaction without effect.

The node is asked by the transaction's hash, for which the transaction itself stands. The node may
be behind: that it has not found a transaction says nothing about the ledger.
-/

namespace PayEra.Api.Submission

open Async (Program Attempt Executes)
open Async.Program
open Sequenced (Terms Timed)

/-! ### Transactions and the node -/

structure Transaction where
  source : String
  sequence : ℕ
  fee : ℕ
  networkPassphrase : String
  operation : Invocation
  maxTime : ℕ
  /-- What `assembleTransaction` took from the simulation. -/
  resources : Option String := none
  signedBy : Option String := none
  deriving DecidableEq

structure Account where
  accountId : String
  sequence : ℕ

inductive Simulation where
  | error (error : String)
  | success (resources : String)

inductive SendStatus where
  | PENDING | DUPLICATE | TRY_AGAIN_LATER | ERROR
  deriving DecidableEq

/-- The answer of `sendTransaction`, with its `errorResult` as JSON. -/
structure SendResponse where
  status : SendStatus
  errorResult : String := ""

inductive GetStatus where
  | SUCCESS | FAILED | NOT_FOUND
  deriving DecidableEq

structure GetResponse where
  status : GetStatus
  returnValue : Option ScVal := none

/-- A transaction that reached the node, and what the node made of it. -/
structure Received where
  tx : Transaction
  status : SendStatus
  deriving DecidableEq

/-- A transaction is applied if the node holds it, no later than its `maxTime`. -/
def terms : Terms String Received where
  source r := r.tx.source
  number r := r.tx.sequence
  held r := r.status = .PENDING ∨ r.status = .DUPLICATE
  deadline r := 1000 * r.tx.maxTime

/-- The ledger, and the time in milliseconds. -/
abbrev Network := Timed String Received

abbrev Later : Network → Network → Prop := Timed.Later terms

inductive RpcOp where
  | getAccount (id : String)
  /-- The clock that `setTimeout` of the builder reads. -/
  | now
  | simulateTransaction (tx : Transaction)
  | sendTransaction (tx : Transaction)
  | sleep (ms : ℕ)
  | getTransaction (tx : Transaction)

abbrev RpcOp.Res : RpcOp → Type
  | .getAccount _ => Account
  | .now => ℕ
  | .simulateTransaction _ => Simulation
  | .sendTransaction _ => SendResponse
  | .sleep _ => Unit
  | .getTransaction _ => GetResponse

abbrev Rpc (α : Type) := Program RpcOp RpcOp.Res String α

def request (op : RpcOp) : Rpc op.Res := perform op

/-- Some of the positions hold the transaction. -/
def Network.Has (s : Network) (tx : Transaction) (positions : List ℕ) : Prop :=
  ∃ i ∈ positions, ∃ r, s.ledger.submitted[i]? = some r ∧ r.tx = tx

/-- What the node says of a transaction. -/
def Network.Reports (s : Network) (tx : Transaction) : GetStatus → Prop
  | .SUCCESS => s.Has tx s.ledger.applied
  | .FAILED => s.Has tx s.failed ∧ ¬s.Has tx s.ledger.applied
  | .NOT_FOUND => True

/-- What a request does when it returns. -/
def Returns : (op : RpcOp) → Network → op.Res → Network → Prop
  | .getAccount id, s, v, s' => v = ⟨id, s.ledger.sequence id⟩ ∧ s' = s
  | .now, s, v, s' => v = s.time ∧ s' = s
  | .simulateTransaction _, s, _, s' => s' = s
  | .sendTransaction tx, s, v, s' => s' = { s with ledger := s.ledger.submit ⟨tx, v.status⟩ }
  | .sleep ms, s, _, s' => s.time + ms ≤ s'.time ∧ s' = { s with time := s'.time }
  | .getTransaction tx, s, v, s' => s.Reports tx v.status ∧ s' = s

/-- The clock and the timer do not fail. -/
def Total : RpcOp → Prop
  | .now | .sleep _ => True
  | _ => False

/-! ### The service -/

/-- The service's configuration, and what it takes from the SDK. -/
structure SorobanService where
  sdk : Sdk
  platformPublicKey : String
  networkPassphrase : String
  hash : Transaction → String
  /-- `BigInt(scValToNative(v).toString())` -/
  toBigInt : ScVal → Option ℤ

def BASE_FEE : ℕ := 100

/-- What a call throws at the three places behind `sendTransaction`. -/
structure Messages where
  rejected : String
  failed : String
  timedOut : String

def Messages.of (name : String) : Messages where
  rejected := name ++ " failed: "
  failed := name ++ " failed on-chain: "
  timedOut := name ++ " timed out: "

/-- The answer of a write call. -/
structure Answer where
  hash : String
  starAmount : Option ℤ := none
  deriving DecidableEq

namespace SorobanService

variable (service : SorobanService)

/-- `setTimeout(30)` -/
def maxTime : Rpc ℕ := do
  let now : ℕ ← request .now
  pure (now / 1000 + 30)

/-- The `for` loop, with `n` rounds left. -/
def poll (m : Messages) (tx : Transaction) : ℕ → Rpc GetResponse
  | 0 => throw (m.timedOut ++ service.hash tx)
  | n + 1 => do
    let _ : Unit ← request (.sleep 2000)
    let txResult : GetResponse ← request (.getTransaction tx)
    if txResult.status = .SUCCESS then pure txResult
    else if txResult.status = .FAILED then throw (m.failed ++ service.hash tx)
    else poll m tx n

/-- From `sendTransaction` on. -/
def submit (m : Messages) (assembled : Transaction) : Rpc GetResponse := do
  let result : SendResponse ← request (.sendTransaction assembled)
  if result.status = .ERROR then throw (m.rejected ++ result.errorResult)
  else service.poll m assembled 20

/-- The body of every write call. Converting its arguments may throw. -/
def write (m : Messages) (invocation : Option Invocation) : Rpc (Transaction × GetResponse) := do
  let account : Account ← request (.getAccount service.platformPublicKey)
  match invocation with
  | none => throw "Unsupported address type"
  | some operation =>
    let maxTime ← maxTime
    let tx : Transaction :=
      { source := account.accountId, sequence := account.sequence + 1, fee := BASE_FEE
        networkPassphrase := service.networkPassphrase, operation, maxTime }
    let sim : Simulation ← request (.simulateTransaction tx)
    match sim with
    | .error error => throw ("Soroban simulation failed: " ++ error)
    | .success resources =>
      let assembled : Transaction :=
        { tx with resources := some resources, signedBy := some service.platformPublicKey }
      let txResult ← service.submit m assembled
      pure (assembled, txResult)

/-- A write call that answers with the hash. -/
def confirm (m : Messages) (invocation : Option Invocation) : Rpc Answer := do
  let r ← service.write m invocation
  pure { hash := service.hash r.1 }

def issueStarReward (p : IssueStarReward) : Rpc Answer :=
  service.confirm ⟨"Soroban submit failed: ", "STAR mint failed on-chain: ", "STAR mint timed out: "⟩
    (Api.SorobanService.issueStarReward service.sdk p)

def createPayment (p : CreatePayment) : Rpc Answer :=
  service.confirm (.of "PaymentEngine create_payment")
    (Api.SorobanService.createPayment service.sdk p)

def quotePayment (p : QuotePayment) : Rpc Answer :=
  service.confirm (.of "PaymentEngine quote_payment") (Api.SorobanService.quotePayment p)

def markConverted (paymentId : String) : Rpc Answer :=
  service.confirm (.of "PaymentEngine mark_converted")
    (some (Api.SorobanService.markConverted paymentId))

def markSettled (paymentId : String) : Rpc Answer :=
  service.confirm (.of "PaymentEngine mark_settled")
    (some (Api.SorobanService.markSettled paymentId))

def completePayment (paymentId : String) : Rpc Answer :=
  service.confirm (.of "PaymentEngine complete_payment")
    (some (Api.SorobanService.completePayment paymentId))

/-- `issueRewardOnChain`: the amount is 0 where the return value cannot be read. -/
def issueReward (paymentId : String) : Rpc Answer := do
  let r ← service.write (.of "PaymentEngine issue_reward")
    (some (Api.SorobanService.issueReward paymentId))
  pure { hash := service.hash r.1
         starAmount := some ((r.2.returnValue.bind service.toBigInt).getD 0) }

def registerMerchant (p : RegisterMerchant) : Rpc Answer :=
  service.confirm (.of "MerchantRegistry register_merchant")
    (Api.SorobanService.registerMerchant service.sdk p)

def approveMerchant (merchantId : String) : Rpc Answer :=
  service.confirm (.of "MerchantRegistry approve_merchant")
    (some (Api.SorobanService.approveMerchant merchantId))

def suspendMerchant (merchantId : String) : Rpc Answer :=
  service.confirm (.of "MerchantRegistry suspend_merchant")
    (some (Api.SorobanService.suspendMerchant merchantId))

def rejectMerchant (merchantId : String) : Rpc Answer :=
  service.confirm (.of "MerchantRegistry reject_merchant")
    (some (Api.SorobanService.rejectMerchant merchantId))

end SorobanService

/-- The write calls of the service. -/
inductive WriteCall where
  | issueStarReward (p : IssueStarReward)
  | createPayment (p : CreatePayment)
  | quotePayment (p : QuotePayment)
  | markConverted (paymentId : String)
  | markSettled (paymentId : String)
  | issueReward (paymentId : String)
  | completePayment (paymentId : String)
  | registerMerchant (p : RegisterMerchant)
  | approveMerchant (merchantId : String)
  | suspendMerchant (merchantId : String)
  | rejectMerchant (merchantId : String)

def SorobanService.call (service : SorobanService) : WriteCall → Rpc Answer
  | .issueStarReward p => service.issueStarReward p
  | .createPayment p => service.createPayment p
  | .quotePayment p => service.quotePayment p
  | .markConverted paymentId => service.markConverted paymentId
  | .markSettled paymentId => service.markSettled paymentId
  | .issueReward paymentId => service.issueReward paymentId
  | .completePayment paymentId => service.completePayment paymentId
  | .registerMerchant p => service.registerMerchant p
  | .approveMerchant merchantId => service.approveMerchant merchantId
  | .suspendMerchant merchantId => service.suspendMerchant merchantId
  | .rejectMerchant merchantId => service.rejectMerchant merchantId

/-! ### What a call submits, and what throws -/

abbrev Request := Attempt Network RpcOp RpcOp.Res String

/-- The position of the transaction that a request brought to the node. -/
def submission : Request → Option ℕ
  | ⟨.sendTransaction _, _, true, found, _⟩ => some found.ledger.submitted.length
  | _ => none

/-- The request threw. -/
def threw (b : Request) : Bool := !b.answer.isOk

/-- What a `getTransaction` that returned said. -/
def reported : Request → Option GetStatus
  | ⟨.getTransaction _, .ok v, _, _, _⟩ => some v.status
  | _ => none

/-- The network when the last of the requests was over. -/
def ending (s : Network) (tr : List Request) : Network := (tr.getLast?.map Attempt.left).getD s

/-- The positions of what the requests submitted. -/
def submitted (tr : List Request) : List ℕ := tr.filterMap submission

/-- Nothing that was submitted is applied, now or later. -/
def WithoutEffect (s : Network) (tr : List Request) : Prop :=
  ∀ i ∈ submitted tr, ∀ s', Later (ending s tr) s' → i ∉ s'.ledger.applied

/-- No answer is missing or out of date while the transaction may have an effect. -/
def Conclusive (tr : List Request) : Prop :=
  ∀ i ∈ submitted tr, ∀ b ∈ tr.getLast?,
    (threw b = true → b.left.Hopeless terms i) ∧
    (reported b = some .NOT_FOUND → i ∉ b.left.ledger.applied)

variable {service : SorobanService} {m : Messages} {tx : Transaction} {s s' : Network}
  {tr : List Request} {a b : Request}

/-! ### The network goes on -/

/-- What a request does, the network could have done by itself. -/
lemma later_of_returns {op : RpcOp} {v : op.Res} (h : Returns op s v s') : Later s s' := by
  cases op with
  | getAccount id =>
    obtain ⟨-, rfl⟩ := h
    exact .refl
  | now =>
    obtain ⟨-, rfl⟩ := h
    exact .refl
  | simulateTransaction tx =>
    obtain rfl : s' = s := h
    exact .refl
  | sendTransaction tx =>
    rw [show s' = _ from h]
    exact .single (.submit s _)
  | sleep ms =>
    obtain ⟨hle, hs'⟩ := h
    rw [hs']
    exact .single (.pass s ((Nat.le_add_right _ _).trans hle))
  | getTransaction tx =>
    obtain ⟨-, rfl⟩ := h
    exact .refl

lemma later_of_goes (h : a.Goes Returns Total) : Later a.found a.left := by
  rcases h.left with heq | ⟨-, v, hv⟩
  · rw [heq]
  · exact later_of_returns hv

/-! ### How a call throws -/

/-- The last answer that a call waited for: none, that the transaction failed, or for the 20th time
that it was not found. -/
inductive Verdict (tx : Transaction) (b : Request) : Prop
  | missing (h : threw b = true) (hreported : reported b = none)
  | failed (h : threw b = false) (hreported : reported b = some .FAILED)
      (hreports : b.left.Reports tx .FAILED)
  | notFound (h : threw b = false) (hreported : reported b = some .NOT_FOUND)
      (hlate : 1000 * tx.maxTime < b.left.time)

/-- The requests of a call that throws. -/
inductive Throws (tr : List Request) : Prop
  /-- The call did not come to `sendTransaction`. -/
  | unsent (h : submitted tr = [])
  /-- No answer to `sendTransaction`, or one that rejects the transaction. -/
  | sent (tr₁ : List Request) (b : Request) (tx : Transaction) (htr : tr = tr₁ ++ [b])
      (h : submitted tr₁ = []) (hgoes : b.Goes Returns Total) (hop : b.op = .sendTransaction tx)
      (hrejected : threw b = false → b.left.ledger =
        b.found.ledger.submit ⟨tx, .ERROR⟩)
  /-- The transaction was sent and asked for. -/
  | asked (tr₁ tr₂ : List Request) (a b : Request) (tx : Transaction) (v : SendResponse)
      (htr : tr = tr₁ ++ a :: (tr₂ ++ [b])) (h₁ : submitted tr₁ = [])
      (h₂ : submitted (tr₂ ++ [b]) = []) (ha : submission a = some a.found.ledger.submitted.length)
      (hsent : Returns (.sendTransaction tx) a.found v a.left) (hlater : Later a.left b.left)
      (hverdict : Verdict tx b)

/-- A request to `getTransaction` leaves the network alone. -/
lemma left_of_getTransaction {r : Except String GetResponse} {took : Bool}
    (h : Attempt.Goes Returns Total ⟨.getTransaction tx, r, took, s, s'⟩) : s' = s := by
  rcases h.left with heq | ⟨-, v, -, heq⟩
  · exact heq
  · exact heq

/-- The loop throws at its last request to `getTransaction`. Its `n` rounds last `2 n` seconds. -/
lemma poll_throws {n : ℕ} {e : String} (hn : 1000 * tx.maxTime < s.time + 2000 * n)
    (h : Executes Returns Total Later (service.poll m tx n) s tr (.error e) s') :
    submitted tr = [] ∧ (n = 0 ∧ tr = [] ∨
      ∃ tr' b, tr = tr' ++ [b] ∧ Later s b.left ∧ Verdict tx b) := by
  induction n generalizing s tr with
  | zero =>
    obtain ⟨rfl, -, -⟩ := h.of_done
    exact ⟨rfl, .inl ⟨rfl, rfl⟩⟩
  | succ n ih =>
    rcases h.of_perform_bind with ⟨_, s₁, s₂, tr₁, rfl, ⟨htime, hs₁⟩, hlater, hrest⟩ |
      ⟨_, _, _, -, -, hgoes, -⟩
    · have hsleep : Returns (.sleep 2000) s () s₁ := ⟨htime, hs₁⟩
      have hs : Later s s₁ := later_of_returns hsleep
      have htime₂ := Timed.Later.time_le hlater
      rcases hrest.of_perform_bind with ⟨v, s₃, s₄, tr₂, rfl, hget, hlater', hnext⟩ |
        ⟨err, took, s₃, -, rfl, hgoes, -⟩
      · obtain ⟨hreports, rfl⟩ := hget
        have htime₃ := Timed.Later.time_le hlater'
        split_ifs at hnext with hsuccess hfailed
        · cases hnext.of_done.2.1
        · obtain ⟨rfl, -, -⟩ := hnext.of_done
          rw [hfailed] at hreports
          refine ⟨rfl, .inr ⟨[_], _, rfl, hs.trans hlater, .failed rfl ?_ hreports⟩⟩
          rw [reported, hfailed]
        · have hstatus : v.status = .NOT_FOUND := by
            cases hv : v.status with
            | SUCCESS => exact absurd hv hsuccess
            | FAILED => exact absurd hv hfailed
            | NOT_FOUND => rfl
          obtain ⟨hnone, ⟨rfl, rfl⟩ | ⟨tr', b, rfl, hb, hverdict⟩⟩ := ih (by omega) hnext
          · refine ⟨rfl, .inr ⟨[_], _, rfl, hs.trans hlater, .notFound rfl ?_ ?_⟩⟩
            · rw [reported, hstatus]
            · show _ < s₃.time
              omega
          · refine ⟨hnone, .inr ⟨_ :: _ :: tr', b, rfl, ?_, hverdict⟩⟩
            exact (hs.trans hlater).trans (hlater'.trans hb)
      · have hleft := left_of_getTransaction hgoes
        refine ⟨rfl, .inr ⟨[_], _, rfl, ?_, .missing rfl rfl⟩⟩
        show Later s s₃
        rw [hleft]
        exact hs.trans hlater
    · exact absurd trivial hgoes.1

lemma submitted_append (tr₁ tr₂ : List Request) :
    submitted (tr₁ ++ tr₂) = submitted tr₁ ++ submitted tr₂ := List.filterMap_append

lemma submitted_cons_of_none (h : submission a = none) : submitted (a :: tr) = submitted tr :=
  List.filterMap_cons_none h

/-- A request that sends nothing comes first. -/
lemma Throws.cons (ha : submission a = none) (h : Throws tr) : Throws (a :: tr) := by
  cases h with
  | unsent h => exact .unsent (by rw [submitted_cons_of_none ha, h])
  | sent tr₁ b tx htr h hgoes hop hrejected =>
    subst htr
    exact .sent (a :: tr₁) b tx rfl (by rw [submitted_cons_of_none ha, h]) hgoes hop hrejected
  | asked tr₁ tr₂ a' b tx v htr h₁ h₂ ha' hsent hlater hverdict =>
    subst htr
    exact .asked (a :: tr₁) tr₂ a' b tx v rfl (by rw [submitted_cons_of_none ha, h₁]) h₂ ha' hsent
      hlater hverdict

/-- From `sendTransaction` on, within the 30 seconds that the transaction is built for. -/
lemma submit_throws {e : String} (htx : 1000 * tx.maxTime ≤ s.time + 30000)
    (h : Executes Returns Total Later (service.submit m tx) s tr (.error e) s') : Throws tr := by
  rcases h.of_perform_bind with ⟨v, s₁, s₂, tr₁, rfl, hsent, hlater, h⟩ |
    ⟨err, took, s₁, -, rfl, hgoes, -⟩
  · split_ifs at h with hstatus
    · obtain ⟨rfl, -, -⟩ := h.of_done
      refine .sent [] _ tx rfl rfl ⟨rfl, hsent⟩ rfl fun _ => ?_
      show s₁.ledger = _
      rw [show s₁ = _ from hsent, hstatus]
    · have htime := Timed.Later.time_le (later_of_returns hsent)
      have htime' := Timed.Later.time_le hlater
      obtain ⟨hnone, ⟨hzero, -⟩ | ⟨tr', b, rfl, hb, hverdict⟩⟩ := poll_throws (by omega) h
      · cases hzero
      · exact .asked [] tr' _ b tx v rfl rfl hnone rfl hsent (hlater.trans hb) hverdict
  · refine .sent [] _ tx rfl rfl hgoes rfl fun hthrew => ?_
    cases hthrew

lemma write_throws {invocation : Option Invocation} {e : String}
    (h : Executes Returns Total Later (service.write m invocation) s tr (.error e) s') :
    Throws tr := by
  rcases h.of_perform_bind with ⟨account, s₁, s₂, tr₁, rfl, -, -, hloaded⟩ | ⟨-, -, -, -, rfl, -, -⟩
  · refine .cons rfl ?_
    cases invocation with
    | none =>
      obtain ⟨rfl, -, -⟩ := hloaded.of_done
      exact .unsent rfl
    | some operation =>
      dsimp only at hloaded
      rcases hloaded.of_bind with ⟨maxTime, s₃, tr₂, tr₃, rfl, hclock, hbuilt⟩ | ⟨_, -, hclock⟩
      · rcases hclock.of_perform_bind with ⟨now, s₄, s₅, tr₄, rfl, ⟨hnow, hs₄⟩, hlater, hdone⟩ |
          ⟨_, _, _, heq, -⟩
        · obtain ⟨rfl, hmax, hs₅⟩ := hdone.of_done
          have hmax : maxTime = s₂.time / 1000 + 30 := by
            rw [← hnow]
            exact Except.ok.inj hmax
          refine .cons rfl ?_
          rcases hbuilt.of_perform_bind with ⟨sim, s₆, s₇, tr₅, rfl, hsim, hlater', hsimulated⟩ |
            ⟨-, -, -, -, rfl, -, -⟩
          · refine .cons rfl ?_
            cases sim with
            | error error =>
              obtain ⟨rfl, -, -⟩ := hsimulated.of_done
              exact .unsent rfl
            | success resources =>
              rcases hsimulated.of_bind with ⟨_, _, _, _, rfl, -, hdone⟩ | ⟨_, -, hsubmit⟩
              · cases hdone.of_done.2.1
              · refine submit_throws ?_ hsubmit
                have h₁ := Timed.Later.time_le hlater
                have h₂ := Timed.Later.time_le (later_of_returns hsim)
                have h₃ := Timed.Later.time_le hlater'
                rw [hs₄] at h₁
                rw [hs₅] at h₂
                show 1000 * maxTime ≤ _
                omega
          · exact .unsent rfl
        · cases heq
      · rcases hclock.of_perform_bind with ⟨now, s₄, s₅, tr₄, rfl, -, -, hdone⟩ |
          ⟨_, _, _, -, -, hgoes, -⟩
        · cases hdone.of_done.2.1
        · exact absurd trivial hgoes.1
  · exact .unsent rfl

/-- Every write call throws in one of these ways. -/
lemma call_throws {c : WriteCall} {e : String}
    (h : Executes Returns Total Later (service.call c) s tr (.error e) s') : Throws tr := by
  have hwrite : ∃ m invocation, Executes Returns Total Later (service.write m invocation) s tr
      (.error e) s' := by
    cases c
    all_goals
      rcases h.of_bind with ⟨_, _, _, _, -, -, hdone⟩ | ⟨_, heq, hwrite⟩
      · cases hdone.of_done.2.1
      · cases heq
        exact ⟨_, _, hwrite⟩
  obtain ⟨m, invocation, hwrite⟩ := hwrite
  exact write_throws hwrite

/-! ### What a throw is worth -/

lemma ending_append (s : Network) (tr : List Request) (b : Request) :
    ending s (tr ++ [b]) = b.left := by
  rw [ending, List.getLast?_append]
  rfl

lemma forall_last (tr : List Request) {b : Request} {P : Request → Prop} :
    (∀ c ∈ (tr ++ [b]).getLast?, P c) ↔ P b := by
  rw [List.getLast?_append]
  simp

/-- A transaction that a node has received. -/
lemma received_of_sent {v : SendResponse} (h : Returns (.sendTransaction tx) s v s') :
    s'.ledger.submitted[s.ledger.submitted.length]? = some ⟨tx, v.status⟩ := by
  rw [show s' = _ from h]
  exact List.getElem?_concat_length

/-- Nothing is applied before it was submitted. -/
lemma not_applied_of_sent {v : SendResponse} (hs : s.Sound terms)
    (h : Returns (.sendTransaction tx) s v s') :
    s.ledger.submitted.length ∉ s'.ledger.applied := by
  rw [show s' = _ from h]
  exact fun hmem => lt_irrefl _ (hs.past _ hmem)

/-- A report of a failure that is true leaves no way for the transaction to be applied. -/
lemma hopeless_of_failed {i : ℕ} {r : Received} (hs : s.Sound terms)
    (hi : s.ledger.submitted[i]? = some r) (h : s.Reports r.tx .FAILED) : s.Hopeless terms i := by
  obtain ⟨⟨j, hj, r', hr', htx⟩, hnot⟩ := h
  refine ⟨r, hi, fun hmem => hnot ⟨i, hmem, r, hi, rfl⟩, .inr (.inl ?_)⟩
  obtain ⟨r'', hr'', hle⟩ := hs.failed j hj
  obtain rfl := Option.some.inj (hr'.symm.trans hr'')
  show r.tx.sequence ≤ s.ledger.sequence r.tx.source
  rw [← htx]
  exact hle

/-- One submitted transaction and the last request. -/
lemma never_iff_of_verdict {i : ℕ} {status : SendStatus} (hs : b.left.Sound terms)
    (hi : b.left.ledger.submitted[i]? = some ⟨tx, status⟩) (h : Verdict tx b) :
    (∀ s', Later b.left s' → i ∉ s'.ledger.applied) ↔
      (threw b = true → b.left.Hopeless terms i) ∧
        (reported b = some .NOT_FOUND → i ∉ b.left.ledger.applied) := by
  rw [Timed.never_applied_iff hi]
  cases h with
  | missing h hreported => simp [h, hreported]
  | failed h hreported hreports =>
    have hopeless : b.left.Hopeless terms i := hopeless_of_failed hs hi hreports
    simp [hreported, hopeless]
  | notFound h hreported hlate =>
    have hiff : b.left.Hopeless terms i ↔ i ∉ b.left.ledger.applied := by
      constructor
      · rintro ⟨-, -, hnot, -⟩
        exact hnot
      · intro hnot
        exact ⟨_, hi, hnot, .inr (.inr hlate)⟩
    simp [h, hreported, hiff]

/-- The network that an execution found at one of its requests. -/
lemma later_found {α : Type} {p : Rpc α} {r : Except String α}
    (h : Executes Returns Total Later p s tr r s') : ∀ a ∈ tr, Later s a.found := by
  induction h with
  | done r s =>
    intro a ha
    cases ha
  | await hgoes hother hrest ih =>
    intro a ha
    rcases List.mem_cons.mp ha with rfl | ha
    · exact .refl
    · exact (later_of_goes hgoes).trans (hother.trans (ih a ha))

/-- The network grew from one where nothing had been submitted. -/
def Grown (s : Network) : Prop :=
  ∃ s₀ : Network, s₀.ledger.submitted = [] ∧ s₀.ledger.applied = [] ∧ s₀.failed = [] ∧ Later s₀ s

lemma Grown.sound (h : Grown s) : s.Sound terms := by
  obtain ⟨s₀, -, happlied, hfailed, hlater⟩ := h
  refine hlater.sound ⟨fun i hi => ?_, fun i hi => ?_⟩
  · rw [happlied] at hi
    cases hi
  · rw [hfailed] at hi
    cases hi

/-- The last request is `sendTransaction`. -/
lemma never_iff_of_sent {i : ℕ} (hs : b.found.Sound terms) (hgoes : b.Goes Returns Total)
    (hop : b.op = .sendTransaction tx)
    (hrejected : threw b = false → b.left.ledger = b.found.ledger.submit ⟨tx, .ERROR⟩)
    (hi : submission b = some i) :
    (∀ s', Later b.left s' → i ∉ s'.ledger.applied) ↔
      (threw b = true → b.left.Hopeless terms i) ∧
        (reported b = some .NOT_FOUND → i ∉ b.left.ledger.applied) := by
  obtain ⟨op, answer, took, found, left⟩ := b
  obtain rfl : op = .sendTransaction tx := hop
  cases took with
  | false => cases hi
  | true =>
    obtain rfl : found.ledger.submitted.length = i := Option.some.inj hi
    cases answer with
    | ok v =>
      have hreceived := received_of_sent hgoes.2
      have hstatus : v.status = .ERROR := by
        have hledger : left.ledger = _ := hrejected rfl
        rw [hledger] at hreceived
        have hlast : (found.ledger.submit ⟨tx, .ERROR⟩).submitted[found.ledger.submitted.length]? =
            some ⟨tx, .ERROR⟩ := List.getElem?_concat_length
        rw [hlast, Option.some.injEq, Received.mk.injEq] at hreceived
        exact hreceived.2.symm
      rw [hstatus] at hreceived
      have hopeless : left.Hopeless terms found.ledger.submitted.length :=
        ⟨_, hreceived, not_applied_of_sent hs hgoes.2, .inl (by simp [terms])⟩
      rw [Timed.never_applied_iff hreceived]
      simp [threw, reported, hopeless, Except.isOk, Except.toBool]
    | error e =>
      obtain ⟨-, ⟨htook, -⟩ | ⟨-, v, hv⟩⟩ := hgoes
      · cases htook
      · rw [Timed.never_applied_iff (received_of_sent hv)]
        simp [threw, reported, Except.isOk, Except.toBool]

/-- **A throw means no effect**, now or later, exactly where no answer is missing or out of date
while the transaction may have an effect. -/
theorem throws_without_effect_iff {c : WriteCall} {e : String} (hs : Grown s)
    (h : Executes Returns Total Later (service.call c) s tr (.error e) s') :
    WithoutEffect s tr ↔ Conclusive tr := by
  have hfound : ∀ a ∈ tr, a.found.Sound terms := fun a ha => (later_found h a ha).sound hs.sound
  have hleft : ∀ a ∈ tr, a.left.Sound terms := fun a ha =>
    (later_of_goes (h.goes a ha)).sound (hfound a ha)
  cases call_throws h with
  | unsent hnone => simp [WithoutEffect, Conclusive, hnone]
  | sent tr₁ b tx htr hnone hgoes hop hrejected =>
    subst htr
    have hb := hfound b (by simp)
    rw [WithoutEffect, Conclusive, ending_append, submitted_append, hnone, List.nil_append]
    refine forall₂_congr fun i hi => ?_
    have hi : submission b = some i := by
      cases hsub : submission b with
      | none => simp [submitted, hsub] at hi
      | some j => simpa [submitted, hsub, eq_comm] using hi
    rw [never_iff_of_sent hb hgoes hop hrejected hi, forall_last]
  | asked tr₁ tr₂ a b tx v htr h₁ h₂ ha hsent hlater hverdict =>
    subst htr
    have hb := hleft b (by simp)
    have hsplit : tr₁ ++ a :: (tr₂ ++ [b]) = (tr₁ ++ a :: tr₂) ++ [b] := by simp
    have honly : submitted (tr₁ ++ a :: (tr₂ ++ [b])) = [a.found.ledger.submitted.length] := by
      rw [submitted_append, h₁, submitted, List.filterMap_cons_some ha]
      exact congrArg (List.cons _) h₂
    rw [WithoutEffect, Conclusive, honly, hsplit, ending_append]
    refine forall₂_congr fun i hi => ?_
    obtain rfl := List.mem_singleton.mp hi
    rw [never_iff_of_verdict hb (hlater.getElem? (received_of_sent hsent)) hverdict, forall_last]

/-! ### The creation of a payment -/

namespace CreatingPayment

def soroban : SorobanService where
  sdk := { address := fun s => if s = "GUSER" then some ⟨2⟩ else none, platform := ⟨1⟩ }
  platformPublicKey := "GPLATFORM"
  networkPassphrase := "Test SDF Network ; September 2015"
  hash _ := "hash"
  toBigInt _ := none

def creation : WriteCall :=
  .createPayment
    { paymentId := "7", payer := "GUSER", merchantId := "8", asset := .XLM, amountInPaise := 83000
      qrHash := "9", rewardId := "10" }

def newNetwork : Network where
  ledger := { sequence := fun _ => 0 }

/-- The node takes the transaction and does not get to see it included; its answer to
`sendTransaction` is lost or not. -/
def node (lost : Bool) : (op : RpcOp) → Network → Except String op.Res × Bool × Network
  | .getAccount id, s => (.ok ⟨id, s.ledger.sequence id⟩, true, s)
  | .now, s => (.ok s.time, true, s)
  | .simulateTransaction _, s => (.ok (.success "resources"), true, s)
  | .sendTransaction tx, s =>
    (if lost then .error "socket hang up" else .ok { status := .PENDING }, true,
      { s with ledger := s.ledger.submit ⟨tx, .PENDING⟩ })
  | .sleep ms, s => (.ok (), true, { s with time := s.time + ms })
  | .getTransaction _, s => (.ok { status := .NOT_FOUND }, true, s)

lemma node_goes (lost : Bool) (op : RpcOp) (s : Network) : Attempt.Goes Returns Total
    ⟨op, (node lost op s).1, (node lost op s).2.1, s, (node lost op s).2.2⟩ := by
  cases op with
  | getAccount id => exact ⟨rfl, rfl, rfl⟩
  | now => exact ⟨rfl, rfl, rfl⟩
  | simulateTransaction tx => exact ⟨rfl, rfl⟩
  | sendTransaction tx =>
    cases lost with
    | false => exact ⟨rfl, rfl⟩
    | true => exact ⟨id, .inr ⟨rfl, { status := .PENDING }, rfl⟩⟩
  | sleep ms => exact ⟨rfl, le_refl _, rfl⟩
  | getTransaction tx => exact ⟨rfl, trivial, rfl⟩

/-- What becomes of the creation. -/
def played (lost : Bool) : List Request × Except String Answer × Network :=
  (soroban.call creation).play (node lost) newNetwork

lemma executes_played (lost : Bool) : Executes Returns Total Later (soroban.call creation) newNetwork
    (played lost).1 (played lost).2.1 (played lost).2.2 :=
  Async.executes_play (node lost) _ _ (node_goes lost) fun _ => .refl

lemma inRange : -2 ^ 127 ≤ (83000 : ℤ) ∧ (83000 : ℤ) < 2 ^ 127 := by decide

/-- The transaction that is sent. -/
def creating : Transaction where
  source := "GPLATFORM"
  sequence := 1
  fee := BASE_FEE
  networkPassphrase := soroban.networkPassphrase
  operation := { contract := .paymentEngine, method := .createPayment
                 args := [.address ⟨1⟩, .address ⟨2⟩, Api.SorobanService.idBytes "7",
                   Api.SorobanService.idBytes "8", Api.SorobanService.assetMap .XLM,
                   .i128 (.lit 83000 inRange), Api.SorobanService.idBytes "9",
                   Api.SorobanService.idBytes "10"] }
  maxTime := 30
  resources := some "resources"
  signedBy := some "GPLATFORM"

end CreatingPayment

open CreatingPayment

/-- The answer to `sendTransaction` is lost, the call throws, and the payment is created. -/
theorem payment_created_after_throw : ∃ tr s' s'',
    Executes Returns Total Later (soroban.call creation) newNetwork tr
      (.error "socket hang up") s' ∧
    0 ∈ submitted tr ∧ Later (ending newNetwork tr) s'' ∧ 0 ∈ s''.ledger.applied ∧
    ¬WithoutEffect newNetwork tr := by
  have hthrows : (played true).2.1 = .error "socket hang up" := by decide +kernel
  have hexec := executes_played true
  rw [hthrows] at hexec
  have hsent : 0 ∈ submitted (played true).1 := by decide +kernel
  have hheld : (ending newNetwork (played true).1).ledger.submitted[0]? =
      some ⟨creating, .PENDING⟩ := by decide +kernel
  obtain ⟨s'', hlater, happlied⟩ := Timed.exists_applied (T := terms) hheld (.inl rfl)
    (by decide +kernel) (by decide +kernel)
  exact ⟨_, _, s'', hexec, hsent, hlater, happlied,
    fun hwithout => hwithout 0 hsent s'' hlater happlied⟩

/-- Of a call that gives up after 40 seconds nothing is applied. -/
theorem throws_without_effect_of_timeout :
    (played false).2.1 = .error "PaymentEngine create_payment timed out: hash" ∧
      submitted (played false).1 = [0] ∧
      WithoutEffect newNetwork (played false).1 := by
  have hthrows : (played false).2.1 = .error "PaymentEngine create_payment timed out: hash" := by
    decide +kernel
  have hexec := executes_played false
  rw [hthrows] at hexec
  have hlast : ∀ b ∈ (played false).1.getLast?,
      threw b = false ∧ b.left.ledger.applied = [] := by decide +kernel
  refine ⟨hthrows, by decide +kernel, (throws_without_effect_iff
    ⟨newNetwork, rfl, rfl, rfl, .refl⟩ hexec).mpr fun i _ b hb => ?_⟩
  obtain ⟨hthrew, happlied⟩ := hlast b hb
  rw [hthrew, happlied]
  simp

end PayEra.Api.Submission
