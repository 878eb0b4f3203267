import Mathlib.Algebra.Order.BigOperators.Group.List
import Mathlib.Algebra.Order.Ring.Nat
import PayEra.Api.Transactions

/-!
# Playing a run

A deterministic environment: every call is answered by one oracle, a call that cannot be answered
and the calls of a given kind are refused. What it does is one of the things that `env` allows.
-/

namespace PayEra.Api

/-- Longer than every string of the list. -/
def fresh (used : List String) : String :=
  String.ofList (List.replicate ((used.map (·.length)).sum + 1) 'u')

lemma fresh_not_mem (used : List String) : fresh used ∉ used := by
  intro h
  have hlen : (fresh used).length ≤ (used.map (·.length)).sum :=
    List.le_sum_of_mem (List.mem_map_of_mem h)
  simp only [fresh, String.length_ofList, List.length_replicate] at hlen
  omega

section Playback

variable (o : Oracle) (refused : Request → Bool)

/-- The answer to a call, and the world after it. -/
def respond (c : Request) (w : World) : Except String c.Res × World :=
  match Backend.answer { o with uuid := fresh w.state.uuids } c.op w.state with
  | some (v, b) =>
    if refused c then
      (.error "refused", { state := w.state, calls := w.calls ++ [⟨c, .error "refused"⟩] })
    else (.ok v, { state := b, calls := w.calls ++ [⟨c, .ok v⟩] })
  | none => (.error "refused", { state := w.state, calls := w.calls ++ [⟨c, .error "refused"⟩] })

variable {refused}

lemma Total.answered {c : Request} (h : Total c) (b : Backend) :
    ∃ v b', Backend.answer { o with uuid := fresh b.uuids } c.op b = some (v, b') := by
  obtain ⟨source, op⟩ := c
  rcases h with rfl | rfl | ⟨ms, rfl⟩
  · exact ⟨_, _, rfl⟩
  · exact ⟨_, _, if_neg (fresh_not_mem b.uuids)⟩
  · exact ⟨_, _, rfl⟩

/-- Playing a run is a way to run. -/
lemma respond_env (hrefused : ∀ c, refused c → ¬Total c) (c : Request) (w : World) :
    env c w (respond o refused c w).1 (respond o refused c w).2 := by
  rw [respond]
  cases hans : Backend.answer { o with uuid := fresh w.state.uuids } c.op w.state with
  | none =>
    refine ⟨rfl, fun h => ?_, .inl rfl⟩
    obtain ⟨v, b', hv⟩ := h.answered o w.state
    rw [hans] at hv
    cases hv
  | some vb =>
    obtain ⟨v, b⟩ := vb
    by_cases hc : refused c
    · simp only [hc, if_true]
      exact ⟨rfl, hrefused c hc, .inl rfl⟩
    · simp only [hc]
      exact ⟨rfl, _, hans⟩

end Playback

/-! ### One program after the other -/

/-- A reachable world in which no program is in progress. -/
def Idle (js : Js) (cond : Condition) (w : World) : Prop :=
  ∃ threads, (∀ p ∈ threads, p.next = none) ∧ (pipeline js cond).Reachable ⟨w, threads⟩

/-- A check of answers that is enough for a condition when no other program is in progress. -/
def Condition.CheckedBy (cond : Condition)
    (C : (c : Request) → World → Except String c.Res → Bool) : Prop :=
  ∀ rest, (∀ p ∈ rest, p.next = none) → ∀ c w r, C c w r → cond rest c w r

section Idle

variable {js : Js} {cond : Condition} {w : World} {p : Service Unit} {o : Oracle}
  {refused : Request → Bool} {C : (c : Request) → World → Except String c.Res → Bool}

lemma Idle.started (h : Started w) : Idle js cond w := by
  refine ⟨0, fun p hp => ?_, .init ⟨h, rfl⟩⟩
  exact absurd hp (Multiset.notMem_zero p)

/-- Running the first `n` calls of one more program. -/
lemma Idle.playFor {n : ℕ} (hw : Idle js cond w) (hp : Starts js w p)
    (hrefused : ∀ c, refused c → ¬Total c) (hcond : cond.CheckedBy C)
    (hcheck : p.checkFor (respond o refused) C n w) :
    ∃ threads, (∀ p ∈ threads, p.next = none) ∧ (pipeline js cond).Reachable
      ⟨(p.runFor (respond o refused) n w).2, (p.runFor (respond o refused) n w).1 ::ₘ threads⟩ := by
  obtain ⟨threads, hdone, hreach⟩ := hw
  exact ⟨threads, hdone,
    Async.reachable_runFor (fun c w _ => respond_env o hrefused c w) (hcond threads hdone)
    hcheck (Async.reachable_start hreach hp)⟩

/-- Running one more program from its start to its end. -/
lemma Idle.play {n : ℕ} (hw : Idle js cond w) (hp : Starts js w p)
    (hrefused : ∀ c, refused c → ¬Total c) (hcond : cond.CheckedBy C)
    (hcheck : p.checkFor (respond o refused) C n w)
    (hend : (p.runFor (respond o refused) n w).1.next = none) :
    Idle js cond (p.runFor (respond o refused) n w).2 := by
  obtain ⟨threads, hdone, hreach⟩ := hw.playFor hp hrefused hcond hcheck
  refine ⟨_, fun q hq => ?_, hreach⟩
  rcases Multiset.mem_cons.mp hq with rfl | hq
  · exact hend
  · exact hdone q hq

end Idle

/-- Another caller of the contract moves a payment. -/
lemma other_of_edge {b : Backend} {id : String} {s s' : PaymentEngine.PaymentStatus}
    (h : b.payments id = some s) (hedge : PaymentEngine.Edge s s') :
    Backend.Other b { b with payments := Function.update b.payments id (some s') } := by
  refine ⟨.refl _, .refl _, .refl _, rfl, List.Subset.refl _, le_refl _, fun i r hr => ?_⟩
  by_cases hi : i = id
  · subst hi
    obtain rfl := Option.some.inj (h.symm.trans hr)
    exact ⟨s', Function.update_self .., .inr (.single hedge)⟩
  · exact ⟨r, (Function.update_of_ne hi ..).trans hr, .inl rfl⟩

/-! ### A shop with one order -/

namespace OneOrder

/-- Conversions that are good enough for a shop that charges whole units. -/
def js : Js where
  usdcUnits amountInPaise _ := .ok amountInPaise
  assetUnits amountInPaise _ := .ok amountInPaise
  amountInCrypto amountInPaise _ := amountInPaise
  toFixed rate := rate
  decimalString _ := "1"
  isoString _ := "1970-01-01T00:00:00.000Z"
  sha256Hex payload := payload

def oracle : Oracle where
  uuid := ""
  hash := "hash"
  stellar := { hash := "hash", ledger := 1 }
  payout := { transactionId := "payout", status := "PENDING" }
  payoutStatus := { status := "SUCCESS", utrNumber := none }
  usdcRate := none
  rates _ := 100

def merchant : Merchant where
  id := "merchant"
  ownerUserId := none
  displayName := "Shop"
  defaultUpiVpa := some "shop@upi"
  status := .APPROVED

def opened : World where
  state :=
    { merchants := [merchant]
      wallets :=
        [{ id := "wallet", userId := "customer", address := "G", active := true
           isPrimary := true }] }

def customer : Principal where
  id := "customer"
  role := .CONSUMER

def order : CreateTransactionDto where
  walletId := some "wallet"
  merchantId := "merchant"
  merchantQrCodeId := none
  campaignId := none
  assetIn := .XLM
  amountInPaise := 10000
  merchantUpiVpa := none
  qrPayload := none

/-- Nothing is refused that can be answered. -/
abbrev reply := respond oracle fun _ => false

lemma reply_env (c : Request) (w : World) : env c w (reply c w).1 (reply c w).2 :=
  respond_env oracle (fun _ h => absurd h Bool.false_ne_true) c w

/-- After a customer's order. -/
def ordered (dto : CreateTransactionDto) : World :=
  ((Transactions.create js customer dto).runFor reply 12 opened).2

/-- The identifier that the order gets. -/
def orderId : String := "u"

/-- The tick that processes the order, up to one of its calls. -/
def processing (dto : CreateTransactionDto) (n : ℕ) : Service Unit × World :=
  (Processor.handlePendingTransactions js).runFor reply n (ordered dto)

/-- An operator of the contract issues the reward of the order on chain. -/
def rewardOnChain (w : World) : World :=
  { w with state := { w.state with
    payments := Function.update w.state.payments orderId (some .rewarded) } }

/-- This happens just before `completePayment`. -/
def rewarded (dto : CreateTransactionDto) : World := rewardOnChain (processing dto 41).2

/-- The rest of the tick. -/
def completing (dto : CreateTransactionDto) : Service Unit × World :=
  (processing dto 41).1.runFor reply 20 (rewarded dto)

/-- What the operator does is one of the things that others may do. -/
lemma rewardOnChain_world {cond : Condition} {w : World}
    (h : w.state.payments orderId = some .settled) :
    (setting js cond).world w (rewardOnChain w) :=
  ⟨rfl, other_of_edge h .reward⟩

lemma started : Started opened := ⟨rfl, rfl, rfl, rfl, rfl⟩

section

variable {cond : Condition} {C : (c : Request) → World → Except String c.Res → Bool}
  {dto : CreateTransactionDto} {n : ℕ}

lemma ordered_idle (hcond : cond.CheckedBy C)
    (hcheck : (Transactions.create js customer dto).checkFor reply C 12 opened)
    (hend : ((Transactions.create js customer dto).runFor reply 12 opened).1.next = none) :
    Idle js cond (ordered dto) :=
  (Idle.started started).play (.create _ _ _) (fun _ h => absurd h Bool.false_ne_true) hcond hcheck
    hend

lemma processing_reachable (hordered : Idle js cond (ordered dto)) (hcond : cond.CheckedBy C)
    (hcheck : (Processor.handlePendingTransactions js).checkFor reply C n (ordered dto)) :
    ∃ threads, (∀ p ∈ threads, p.next = none) ∧
      (pipeline js cond).Reachable ⟨(processing dto n).2, (processing dto n).1 ::ₘ threads⟩ :=
  hordered.playFor (.tick _) (fun _ h => absurd h Bool.false_ne_true) hcond hcheck

lemma completing_reachable {threads : Multiset (Service Unit)} (hcond : cond.CheckedBy C)
    (hdone : ∀ p ∈ threads, p.next = none)
    (hreach : (pipeline js cond).Reachable
      ⟨(processing dto 41).2, (processing dto 41).1 ::ₘ threads⟩)
    (hsettled : (processing dto 41).2.state.payments orderId = some .settled)
    (hcheck : (processing dto 41).1.checkFor reply C 20 (rewarded dto)) :
    (pipeline js cond).Reachable ⟨(completing dto).2, (completing dto).1 ::ₘ threads⟩ := by
  have hworld : (pipeline js cond).Reachable ⟨rewarded dto, (processing dto 41).1 ::ₘ threads⟩ :=
    Async.reachable_world hreach (rewardOnChain_world hsettled)
  exact Async.reachable_runFor (fun c w _ => reply_env c w) (hcond threads hdone) hcheck hworld

end

lemma anyAnswer_checkedBy : anyAnswer.CheckedBy fun _ _ _ => true := fun _ _ _ _ _ _ => trivial

/-- Without a condition on the answers. -/
lemma processed_reachable : ∃ threads, (pipeline js anyAnswer).Reachable
    ⟨(processing order 50).2, (processing order 50).1 ::ₘ threads⟩ := by
  have hordered : Idle js anyAnswer (ordered order) :=
    ordered_idle anyAnswer_checkedBy (by decide +kernel) (by decide +kernel)
  obtain ⟨threads, -, hreach⟩ :=
    processing_reachable (n := 50) hordered anyAnswer_checkedBy (by decide +kernel)
  exact ⟨_, hreach⟩

end OneOrder

end PayEra.Api
