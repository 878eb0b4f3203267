import PayEra.Lib.Retry
import PayEra.Lib.Sequenced
import PayEra.Lib.Sessions
import PayEra.Api.Database

/-!
# Submitting a Stellar payment

`submitPayment` of `apps/api/src/stellar/stellar.service.ts`, with the policy that
`common/circuit-breaker/circuit-breaker.service.ts` makes for it. Everything up to the response is
inside of the retry: the account is loaded again and a new envelope is built and signed.

The calls go to the circuit breaker, the clock and Horizon. A transaction that was sent is applied
later or not at all, and its response is awaited apart from it, so a call that failed may be of a
payment that was made, or that will be.
-/

namespace PayEra.Api.Stellar

open Async (Program Event Journal Discipline Safe)
open Async.Program
open Sequenced (Ledger)

/-! ### Transactions and the network -/

inductive Asset where
  | native
  | credit (code issuer : String)
  deriving DecidableEq

/-- A signed transaction with one payment. -/
structure Envelope where
  source : String
  sequence : ℕ
  fee : ℕ
  networkPassphrase : String
  destination : String
  asset : Asset
  amount : String
  memo : String
  maxTime : ℕ
  signedBy : String
  deriving DecidableEq

structure Account where
  accountId : String
  sequence : ℕ

/-- The ledger, and the time in milliseconds. -/
structure Network where
  ledger : Ledger String Envelope
  time : ℕ := 0

inductive HorizonOp where
  /-- The circuit breaker lets a call through. -/
  | enter
  | now
  | loadAccount (id : String)
  /-- The request of `submitTransaction`. -/
  | send (tx : Envelope)
  /-- The response of `submitTransaction`. -/
  | receive (tx : Envelope)

abbrev HorizonOp.Res : HorizonOp → Type
  | .enter | .send _ => Unit
  | .now => ℕ
  | .loadAccount _ => Account
  | .receive _ => StellarResult

abbrev Horizon (α : Type) := Program HorizonOp HorizonOp.Res String α

def request (op : HorizonOp) : Horizon op.Res := perform op

/-- What a call does when it returns. A transaction gets its response when it has been applied. -/
def Returns : (op : HorizonOp) → Network → op.Res → Network → Prop
  | .enter, s, _, s' => s' = s
  | .now, s, v, s' => v = s.time ∧ s' = s
  | .loadAccount id, s, v, s' => v = ⟨id, s.ledger.sequence id⟩ ∧ s' = s
  | .send tx, s, _, s' => s' = { s with ledger := s.ledger.submit tx }
  | .receive tx, s, _, s' => (∃ i ∈ s.ledger.applied, s.ledger.submitted[i]? = some tx) ∧ s' = s

/-- The next ledger is closed: a transaction that has not expired is applied, or something else
moves a sequence number. -/
def Closes (s s' : Network) : Prop :=
  s.time ≤ s'.time ∧ Ledger.Moves Envelope.source Envelope.sequence
    (fun tx => s'.time ≤ 1000 * tx.maxTime) s.ledger s'.ledger

/-! ### The service -/

/-- What the service takes from JavaScript and from the SDK. -/
structure Sdk where
  /-- `parseFloat(s) > 0 ? Math.max(parseFloat(s), 0.0000001).toFixed(7) : '0.0000001'` -/
  amount : String → String
  isValidAmount : String → Bool

structure StellarService where
  platformPublicKey : String
  networkPassphrase : String

def BASE_FEE : ℕ := 100

namespace StellarService

variable (service : StellarService) (sdk : Sdk) (params : SubmitPayment)

def asset : Asset :=
  if params.assetCode = .XLM then .native
  else .credit "USDC" "GBBD47IF6LWK7P7MDEVSCWR7DPUWV3NY3DTQEVFL4NAT4AQH3ZLLFLA5"

/-- `Operation.payment` checks the amount. -/
def amount : Except String String :=
  if sdk.isValidAmount (sdk.amount params.amountCrypto) then .ok (sdk.amount params.amountCrypto)
  else .error "amount argument must be of type String, represent a positive number and have at most 7 digits after the decimal"

/-- `Memo.text(params.transactionPublicId.substring(0, 28))` -/
def memo : Except String String :=
  let text := String.ofList (params.transactionPublicId.toList.take 28)
  if text.utf8ByteSize ≤ 28 then .ok text
  else .error "Expects string, array or buffer, max 28 bytes"

/-- `setTimeout(30)` -/
def maxTime : Horizon ℕ := do
  let now : ℕ ← request .now
  pure (now / 1000 + 30)

def submitTransaction (tx : Envelope) : Horizon StellarResult := do
  request (.send tx)
  request (.receive tx)

/-- The callback that the policy executes. -/
def submission : Horizon StellarResult := do
  let account : Account ← request (.loadAccount service.platformPublicKey)
  let amount ← Program.done (amount sdk params)
  let memo ← Program.done (memo params)
  let maxTime ← maxTime
  let result ← submitTransaction
    { source := account.accountId, sequence := account.sequence + 1, fee := BASE_FEE
      networkPassphrase := service.networkPassphrase, destination := service.platformPublicKey
      asset := asset params, amount, memo, maxTime, signedBy := service.platformPublicKey }
  pure { hash := result.hash, ledger := result.ledger }

/-- `getPolicy`: three more attempts, each through the circuit breaker. -/
def policy {α : Type} (callback : Horizon α) : Horizon α :=
  Program.retry 3 do
    request .enter
    callback

def submitPayment : Horizon StellarResult :=
  tryCatch (policy (submission service sdk params)) throw

end StellarService

/-! ### Calls of the service -/

/-- The network, with the calls of the service and what they did. -/
abbrev Record := Journal Network SubmitPayment HorizonOp HorizonOp.Res String StellarResult

abbrev Occurrence := Event SubmitPayment HorizonOp (Except String StellarResult)

/-- A condition on what happens. -/
abbrev Condition := (e : Occurrence) → Record → Except String (e.Res HorizonOp.Res) → Prop

/-- Any number of calls of the service, on a network where nothing was submitted before. Every call
to the network may fail, before or after it took effect. -/
abbrev calling (service : StellarService) (sdk : Sdk) (cond : Condition) :=
  Async.sessions Returns (fun _ => False) (fun _ => False) (service.submitPayment sdk)
    (fun s => s.ledger.submitted = [] ∧ s.ledger.applied = []) Closes fun _ => cond

abbrev calls (service : StellarService) (sdk : Sdk) (cond : Condition) :=
  Async.system (calling service sdk cond)

/-- The position of what a call submitted. -/
def sentBy (n : ℕ) (e : Async.Effect Network HorizonOp) : Option ℕ :=
  match e.op with
  | .send _ => if e.session = n then some e.found.ledger.submitted.length else none
  | _ => none

/-- What the call `n` of the service has submitted. -/
def sent (w : Record) (n : ℕ) : List ℕ := w.effects.filterMap (sentBy n)

/-- The payments of the call `n` that were applied. -/
def payments (w : Record) (n : ℕ) : ℕ := w.state.ledger.applied.countP (· ∈ sent w n)

/-- The account is not loaded again once a payment of the same call was applied. -/
def UnlessApplied : Condition
  | .call n (.loadAccount _), w, .ok _ => ¬w.state.ledger.Spent (sent w n)
  | _, _, _ => True

/-! ### One step -/

variable {n : ℕ} {op : HorizonOp} {w w' : Record} {e : Occurrence}

lemma sent_snoc (w : Record) (op : HorizonOp) (n m : ℕ)
    (heff : w'.effects = w.effects ++ [⟨n, op, w.state⟩]) :
    sent w' m = sent w m ++ (sentBy m ⟨n, op, w.state⟩).toList := by
  rw [sent, heff, List.filterMap_append]
  congr 1

/-- What happens in a call leaves the network, unless a transaction is sent. -/
lemma happens_cases {r : Except String (e.Res HorizonOp.Res)}
    (h : Async.happens Returns (fun _ => False) (fun _ => False) e w r w') :
    (w'.state = w.state ∧ ∀ m, sent w' m = sent w m) ∨
      ∃ n tx, e = .call n (.send tx) ∧ w'.state = { w.state with ledger := w.state.ledger.submit tx } ∧
        sent w' n = sent w n ++ [w.state.ledger.submitted.length] ∧
          ∀ m, m ≠ n → sent w' m = sent w m := by
  cases e with
  | begin n q =>
    obtain ⟨-, -, rfl⟩ := h
    exact .inl ⟨rfl, fun _ => rfl⟩
  | finish n a =>
    obtain ⟨-, rfl⟩ := h
    exact .inl ⟨rfl, fun _ => rfl⟩
  | call n op =>
    rcases Async.happens_call h with ⟨hstate, heff⟩ | ⟨⟨v, hv⟩, heff⟩
    · exact .inl ⟨hstate, fun m => by rw [sent, heff]; rfl⟩
    · have hsent := fun m => sent_snoc w op n m heff
      cases op with
      | send tx =>
        refine .inr ⟨n, tx, rfl, hv, ?_, fun m hm => ?_⟩
        · rw [hsent]
          simp [sentBy]
        · rw [hsent]
          simp [sentBy, hm.symm]
      | enter => exact .inl ⟨hv, fun m => by rw [hsent]; exact List.append_nil _⟩
      | now => exact .inl ⟨hv.2, fun m => by rw [hsent]; exact List.append_nil _⟩
      | loadAccount id => exact .inl ⟨hv.2, fun m => by rw [hsent]; exact List.append_nil _⟩
      | receive tx => exact .inl ⟨hv.2, fun m => by rw [hsent]; exact List.append_nil _⟩

/-! ### Calls keep their payments single -/

/-- Where a call is: its number, and the sequence number that it loaded last. -/
structure Progress where
  call : ℕ
  loaded : Option ℕ := none

structure Inv (key : String) (w : Record) (f : Multiset Progress) : Prop where
  past : w.state.ledger.Past
  single : ∀ n, w.state.ledger.Single Envelope.source Envelope.sequence key (sent w n)
  usable : ∀ ℓ ∈ f, ∀ q, ℓ.loaded = some q → w.state.ledger.Usable key (sent w ℓ.call) q

/-- What a call does next, after the sequence number that it loaded last. -/
def Builds (key : String) (ℓ : Progress) : HorizonOp → Prop
  | .send tx => ∃ q, ℓ.loaded = some q ∧ tx.source = key ∧ tx.sequence = q + 1
  | _ => True

/-- The call keeps to its number. -/
def Keeps (key : String) (ℓ : Progress) : Occurrence → Prop
  | .call n op => n = ℓ.call ∧ Builds key ℓ op
  | _ => True

def discipline (key : String) :
    Discipline Record Occurrence (Event.Res HorizonOp.Res) String Progress where
  env := Async.happens Returns (fun _ => False) fun _ => False
  inv := Inv key
  link := Keeps key
  allowed _ := UnlessApplied
  halt _ := True

variable {key : String} {ℓ : Progress} {f : Multiset Progress}

lemma Inv.happens (h : Inv key w (ℓ ::ₘ f)) {r : Except String (e.Res HorizonOp.Res)}
    (hkeeps : Keeps key ℓ e)
    (hw : Async.happens Returns (fun _ => False) (fun _ => False) e w r w') :
    Inv key w' (ℓ ::ₘ f) := by
  rcases happens_cases hw with ⟨hstate, hsent⟩ | ⟨n, tx, rfl, hstate, hown, hother⟩
  · refine ⟨?_, fun m => ?_, fun ℓ' hℓ' q hq => ?_⟩
    · rw [hstate]
      exact h.past
    · rw [hstate, hsent]
      exact h.single m
    · rw [hstate, hsent]
      exact h.usable ℓ' hℓ' q hq
  · obtain ⟨rfl, q, hq, hsource, hnumber⟩ := hkeeps
    have husable := h.usable ℓ (Multiset.mem_cons_self ..) q hq
    refine ⟨?_, fun m => ?_, fun ℓ' hℓ' q' hq' => ?_⟩
    · rw [hstate]
      exact h.past.submit
    · rw [hstate]
      by_cases hm : m = ℓ.call
      · subst hm
        rw [hown]
        exact (h.single _).submit_own h.past husable hsource hnumber
      · rw [hother m hm]
        exact (h.single m).submit
    · rw [hstate]
      by_cases hm : ℓ'.call = ℓ.call
      · rw [hm, hown, ← hm]
        exact (h.usable ℓ' hℓ' q' hq').submit_own h.past
      · rw [hother _ hm]
        exact (h.usable ℓ' hℓ' q' hq').submit

/-- A sequence number that was loaded while no payment of the call was applied. -/
lemma Inv.load {q : ℕ} (h : Inv key w (ℓ ::ₘ f)) (hq : w.state.ledger.Usable key (sent w ℓ.call) q) :
    Inv key w ({ ℓ with loaded := some q } ::ₘ f) where
  past := h.past
  single := h.single
  usable ℓ' hℓ' q' hq' := by
    rcases Multiset.mem_cons.mp hℓ' with rfl | hℓ'
    · obtain rfl := Option.some.inj hq'
      exact hq
    · exact h.usable ℓ' (Multiset.mem_cons_of_mem hℓ') q' hq'

lemma Inv.closes (h : Inv key w f) (heff : w'.effects = w.effects) (hw : Closes w.state w'.state) :
    Inv key w' f := by
  have hsent : ∀ m, sent w' m = sent w m := fun m => by rw [sent, heff]; rfl
  refine ⟨h.past.moves hw.2, fun m => ?_, fun ℓ hℓ q hq => ?_⟩
  · rw [hsent]
    exact (h.single m).moves hw.2
  · rw [hsent]
    exact (h.usable ℓ hℓ q hq).moves (h.single _) hw.2

/-! ### The programs -/

/-- A call that keeps the ghost state. -/
lemma safe_request {Q : Except String op.Res → Progress → Prop} (hbuilds : Builds key ℓ op)
    (hQ : ∀ r, Q r ℓ) : Safe ((discipline key).at ℓ.call) (request op) ℓ Q := by
  refine Async.safe_perform ⟨rfl, hbuilds⟩ fun w f r w' hinv _ hw => ⟨ℓ, ?_, hQ r⟩
  have hkeeps : Keeps key ℓ (.call ℓ.call op) := ⟨rfl, hbuilds⟩
  exact Inv.happens hinv hkeeps hw

/-- Only the account may be out of date when it has been loaded. -/
lemma safe_load :
    Safe ((discipline key).at ℓ.call) (request (.loadAccount key)) ℓ
      (Async.upon (fun a ℓ' => ℓ'.call = ℓ.call ∧ a.accountId = key ∧ ℓ'.loaded = some a.sequence)
        fun ℓ' => ℓ'.call = ℓ.call) := by
  refine Async.safe_perform ⟨rfl, trivial⟩ fun w f r w' hinv hallowed hw => ?_
  have hkeeps : Keeps key ℓ (.call ℓ.call (.loadAccount key)) := ⟨rfl, trivial⟩
  have hkept : Inv key w' (ℓ ::ₘ f) := Inv.happens hinv hkeeps hw
  cases r with
  | error err => exact ⟨ℓ, hkept, rfl⟩
  | ok a =>
    obtain ⟨-, ⟨ha, hstate⟩, heff⟩ := hw
    have hsent : sent w' ℓ.call = sent w ℓ.call := by
      rw [sent_snoc w _ _ _ heff]
      exact List.append_nil _
    refine ⟨{ ℓ with loaded := some a.sequence }, hkept.load ?_, rfl, ?_, rfl⟩
    · rw [hsent, hstate, ha]
      exact Ledger.usable_sequence hallowed
    · rw [ha]

section Service

variable {sdk : Sdk} {service : StellarService} {params : SubmitPayment}

lemma safe_submitTransaction {tx : Envelope} (h : Builds key ℓ (.send tx)) :
    Safe ((discipline key).at ℓ.call) (StellarService.submitTransaction tx) ℓ
      (Async.upon (fun _ ℓ' => ℓ'.call = ℓ.call) fun ℓ' => ℓ'.call = ℓ.call) := by
  have hsend : Safe ((discipline key).at ℓ.call) (request (.send tx)) ℓ
      (Async.upon (fun _ ℓ' => ℓ' = ℓ) fun ℓ' => ℓ'.call = ℓ.call) := by
    refine safe_request h fun r => ?_
    cases r <;> rfl
  apply Async.safe_bind hsend
  rintro - ℓ rfl
  refine safe_request (show Builds key ℓ (.receive tx) from trivial) fun r => ?_
  cases r <;> rfl

/-- A payment is built on the sequence number that was loaded last. -/
lemma safe_submission :
    Safe ((discipline service.platformPublicKey).at ℓ.call) (service.submission sdk params) ℓ
      (Async.upon (fun _ ℓ' => ℓ'.call = ℓ.call) fun ℓ' => ℓ'.call = ℓ.call) := by
  apply Async.safe_bind safe_load
  rintro account ℓ' ⟨hcall, hid, hloaded⟩
  rw [← hcall]
  cases StellarService.amount sdk params with
  | error err => exact Async.safe_throw rfl
  | ok amount =>
    cases StellarService.memo params with
    | error err => exact Async.safe_throw rfl
    | ok memo =>
      have hkeep : ∀ {α : Type} (r : Except String α),
          Async.upon (fun _ ℓ => ℓ = ℓ') (fun ℓ => ℓ.call = ℓ'.call) r ℓ' := by
        intro α r
        cases r <;> rfl
      have htime : Safe ((discipline service.platformPublicKey).at ℓ'.call) StellarService.maxTime ℓ'
          (Async.upon (fun _ ℓ => ℓ = ℓ') fun ℓ => ℓ.call = ℓ'.call) := by
        apply Async.safe_bind (safe_request (show Builds _ ℓ' .now from trivial) hkeep)
        rintro now ℓ rfl
        exact Async.safe_pure rfl
      apply Async.safe_bind htime
      rintro maxTime ℓ rfl
      exact safe_submitTransaction ⟨account.sequence, hloaded, hid, rfl⟩

lemma safe_submitPayment :
    Safe ((discipline service.platformPublicKey).at ℓ.call) (service.submitPayment sdk params) ℓ
      fun _ _ => True := by
  have hpolicy : Safe ((discipline service.platformPublicKey).at ℓ.call)
      (StellarService.policy (service.submission sdk params)) ℓ
      (Async.upon (fun _ ℓ' => ℓ'.call = ℓ.call) fun ℓ' => ℓ'.call = ℓ.call) := by
    refine safe_retry 3 rfl fun ℓ' hℓ' => ?_
    rw [← hℓ']
    have henter : Safe ((discipline service.platformPublicKey).at ℓ'.call) (request .enter) ℓ'
        (Async.upon (fun _ ℓ => ℓ = ℓ') fun ℓ => ℓ.call = ℓ'.call) := by
      refine safe_request (show Builds _ ℓ' .enter from trivial) fun r => ?_
      cases r <;> rfl
    apply Async.safe_bind henter
    rintro - ℓ rfl
    exact safe_submission
  refine Async.safe_attempt hpolicy ?_ ?_
  · intro a ℓ' _
    trivial
  · intro e ℓ' _
    trivial

lemma safely_call (n : ℕ) (q : SubmitPayment) :
    Async.Safely (discipline service.platformPublicKey)
      (Async.session n q (service.submitPayment sdk q)) ⟨n, none⟩ := by
  refine Async.safe_session trivial fun w f r w' hinv _ hw => ⟨⟨n, none⟩, ?_, ?_⟩
  · have hkeeps : Keeps service.platformPublicKey ⟨n, none⟩ (.begin n q) := trivial
    exact Inv.happens hinv hkeeps hw
  · refine safe_submitPayment.mono fun a ℓ _ => ⟨trivial, fun w f r w' hinv _ hw => ⟨ℓ, ?_, trivial⟩⟩
    have hkeeps : Keeps service.platformPublicKey ℓ (.finish n a) := trivial
    exact Inv.happens hinv hkeeps hw

lemma governs : Async.Governs (discipline service.platformPublicKey)
    (calling service sdk UnlessApplied) where
  env _ _ _ _ h := h
  init w h := by
    obtain ⟨⟨hsubmitted, happlied⟩, -, heff⟩ := h
    refine ⟨?_, fun n => ?_, fun ℓ hℓ => ?_⟩
    · intro i hi
      rw [happlied] at hi
      cases hi
    · rw [sent, heff]
      exact Ledger.single_nil
    · cases hℓ
  start w p h := by
    obtain ⟨n, q, rfl⟩ := h
    refine ⟨⟨n, none⟩, safely_call n q, fun f hf => ⟨hf.past, hf.single, fun ℓ hℓ q hq => ?_⟩⟩
    rcases Multiset.mem_cons.mp hℓ with rfl | hℓ
    · cases hq
    · exact hf.usable ℓ hℓ q hq
  world w w' f h hinv := hinv.closes h.2.1 h.2.2
  cond _ _ _ _ _ _ h := h

/-- **Single submission.** However many calls of the service are in progress, whatever becomes of
their requests and responses and whenever their transactions are applied, at most one payment of a
call is applied, if the account is never loaded after a payment of the same call was. -/
theorem single_submission {s : Async.Pool Record Occurrence (Event.Res HorizonOp.Res) String}
    (h : (calls service sdk UnlessApplied).Reachable s) (n : ℕ) : payments s.world n ≤ 1 := by
  obtain ⟨f, -, hinv⟩ := Async.reachable_sound governs h
  exact (hinv.single n).single

end Service

/-! ### A lost response -/

namespace OneOrder

def service : StellarService where
  platformPublicKey := "GPLATFORM"
  networkPassphrase := "Test SDF Network ; September 2015"

def sdk : Sdk where
  amount s := s
  isValidAmount _ := true

def payment : SubmitPayment where
  transactionPublicId := "order"
  assetCode := .XLM
  amountCrypto := "0.5000000"

/-- Every request gets through, and no response to a payment arrives. -/
def silent : (op : HorizonOp) → Network → Except String op.Res × Network
  | .enter, s => (.ok (), s)
  | .now, s => (.ok s.time, s)
  | .loadAccount id, s => (.ok ⟨id, s.ledger.sequence id⟩, s)
  | .send tx, s => (.ok (), { s with ledger := s.ledger.submit tx })
  | .receive _, s => (.error "timeout", s)

lemma silent_returns (op : HorizonOp) (s : Network) :
    Async.Played Returns (fun _ => False) op s (silent op s) := by
  cases op with
  | enter => rfl
  | now => exact ⟨rfl, rfl⟩
  | loadAccount id => exact ⟨rfl, rfl⟩
  | send tx => rfl
  | receive tx => exact not_false

def quiet : Record where
  state := { ledger := { sequence := fun _ => 0 } }

abbrev Running := Program Occurrence (Event.Res HorizonOp.Res) String Unit

/-- The call submits its payment and waits for the response. -/
def submitted : Running × Record :=
  (Async.session 0 payment (service.submitPayment sdk payment)).runFor (Async.journalled silent) 5 quiet

/-- The payment at the position `i` is applied. -/
def applied (i : ℕ) (w : Record) : Record :=
  match w.state.ledger.submitted[i]? with
  | none => w
  | some tx => { w with state := { w.state with
      ledger := w.state.ledger.apply tx.source tx.sequence i } }

/-- The response is given up, and the payment submitted again. -/
def resubmitted : Running × Record :=
  submitted.1.runFor (Async.journalled silent) 5 (applied 0 submitted.2)

section

variable {cond : Condition} {w : Record} {threads : Multiset Running}

lemma quiet_reachable : (calls service sdk cond).Reachable ⟨quiet, 0⟩ :=
  .init ⟨⟨⟨rfl, rfl⟩, rfl, rfl⟩, rfl⟩

lemma applied_reachable {i : ℕ} {tx : Envelope} (h : (calls service sdk cond).Reachable ⟨w, threads⟩)
    (htx : w.state.ledger.submitted[i]? = some tx)
    (hnumber : tx.sequence = w.state.ledger.sequence tx.source + 1)
    (htime : w.state.time ≤ 1000 * tx.maxTime) :
    (calls service sdk cond).Reachable ⟨applied i w, threads⟩ := by
  apply Async.reachable_world h
  rw [applied, htx]
  exact ⟨rfl, rfl, le_refl _, .apply _ i tx htx hnumber htime⟩

/-- While no payment was applied, nothing is asked for. -/
def idle (e : Occurrence) (w : Record) (_ : Except String (e.Res HorizonOp.Res)) : Bool :=
  Async.unused e w && w.state.ledger.applied.isEmpty

lemma idle_unlessApplied {e : Occurrence} {r : Except String (e.Res HorizonOp.Res)}
    (h : idle e w r) : Async.unused e w ∧ UnlessApplied e w r := by
  rw [idle, Bool.and_eq_true, List.isEmpty_iff] at h
  obtain ⟨hunused, happlied⟩ := h
  refine ⟨hunused, ?_⟩
  unfold UnlessApplied
  split
  · rintro ⟨i, -, hi⟩
    rw [happlied] at hi
    cases hi
  · trivial

lemma submitted_reachable (hcond : ∀ e w r, idle e w r → Async.unused e w ∧ cond e w r) :
    (calls service sdk cond).Reachable ⟨submitted.2, {submitted.1}⟩ :=
  Async.reachable_journalled silent_returns hcond (by decide +kernel)
    (Async.reachable_start quiet_reachable ⟨0, payment, rfl⟩)

end

end OneOrder

/-- The response to a payment that was made is awaited. -/
theorem single_submission_of_call : payments (OneOrder.applied 0 OneOrder.submitted.2) 0 ≤ 1 :=
  single_submission (OneOrder.applied_reachable
    (OneOrder.submitted_reachable fun _ _ _ => OneOrder.idle_unlessApplied) rfl rfl (by decide)) 0

/-- The response to a payment is lost after it was applied, and the retry makes it once more. -/
theorem payment_made_twice :
    ¬∀ s, (calls OneOrder.service OneOrder.sdk fun _ _ _ => True).Reachable s →
      ∀ n, payments s.world n ≤ 1 := by
  intro h
  have hfirst : (calls OneOrder.service OneOrder.sdk fun _ _ _ => True).Reachable
      ⟨OneOrder.submitted.2, {OneOrder.submitted.1}⟩ :=
    OneOrder.submitted_reachable fun _ _ _ hr => ⟨(OneOrder.idle_unlessApplied hr).1, trivial⟩
  have hpaid := OneOrder.applied_reachable (i := 0) hfirst rfl rfl (by decide)
  have hsecond : (calls OneOrder.service OneOrder.sdk fun _ _ _ => True).Reachable
      ⟨OneOrder.resubmitted.2, {OneOrder.resubmitted.1}⟩ :=
    Async.reachable_journalled (C := fun e w _ => Async.unused e w) OneOrder.silent_returns
      (fun _ _ _ he => ⟨he, trivial⟩) (by decide +kernel) hpaid
  have htwice := h _ (OneOrder.applied_reachable (i := 1) hsecond rfl rfl (by decide)) 0
  exact absurd htwice (by decide +kernel)

end PayEra.Api.Stellar
