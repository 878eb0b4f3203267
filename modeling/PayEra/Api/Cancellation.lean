import PayEra.Api.Playback
import PayEra.Api.Status

/-!
# What a cancellation stops

`cancel` reads the status, writes an event and then writes `CANCELLED` without looking again. A tick
that claims the row in between pays for a transaction whose user was told that it is cancelled. If
the row is still as `cancel` has read it when `cancel` writes, a cancellation is final.

The ghost state of a thread is the list of transactions that it may still run.
-/

namespace PayEra.Api

open Async (Program Safe Discipline upon safe_pure safe_bind safe_perform safe_forM)
open Async.Program

/-! ### Cancelled transactions -/

/-- The status `s` is written to the transaction `id`. -/
def Request.writes (id : String) (s : TransactionStatus) (c : Request) : Bool :=
  match c.op with
  | .updateTransaction i data => decide (i = id ∧ data.status = some s)
  | _ => false

/-- `cancel` of the transaction `id` has returned. -/
def Cancelled (id : String) (w : World) : Prop :=
  ∃ e ∈ w.calls, e.1.writes id .CANCELLED ∧ e.2.isOk

instance (id : String) (w : World) : Decidable (Cancelled id w) :=
  inferInstanceAs (Decidable (∃ e ∈ w.calls, _))

/-- A call that spends the user's money on the transaction `id`. -/
def Request.spends (id : String) (c : Request) : Bool :=
  decide (c.source = .run id) && match c.op with
    | .submitPayment _ | .initiateUpiPayout _ => true
    | _ => false

/-- Once `cancel` has returned, no money is being spent on the transaction, and its row is
`CANCELLED`. -/
def Final (id : String) (s : Async.Pool World Request Request.Res String) : Prop :=
  Cancelled id s.world →
    (∀ p ∈ s.threads, ¬p.next.any (Request.spends id)) ∧
      s.world.state.status id = some .CANCELLED

/-- Whenever `cancel` writes, the row is still `CREATED`, or it is cancelled already; and `fail` does
not write over a cancelled row. -/
def punctual : Condition := fun _ c w _ => ∀ id, c.source = .request →
  (c.writes id .CANCELLED → w.state.status id = some .CREATED ∨
    w.state.status id = some .CANCELLED) ∧
  (c.writes id .FAILED → w.state.status id ≠ some .CANCELLED)

/-! ### The discipline -/

/-- Rows that a run may be made for. -/
def Runnable (id : String) (b : Backend) : Prop :=
  ∃ s, b.status id = some s ∧ s ≠ .CREATED ∧ s ≠ .CANCELLED

structure Stopped (w : World) (f : Multiset (List String)) : Prop where
  distinct : w.state.Distinct
  held : ∀ ids ∈ f, ∀ id ∈ ids, Runnable id w.state
  ran : ∀ e ∈ w.calls, ∀ id, e.1.source = .run id → Runnable id w.state
  final : ∀ id, Cancelled id w → w.state.status id = some .CANCELLED

def stopping : Discipline World Request Request.Res String (List String) where
  env := env
  inv := Stopped
  link ids c := c.Usual ∧ ∀ id, c.source = .run id → id ∈ ids
  allowed _ c w r := punctual 0 c w r
  halt _ := True

section Calls

variable {c : Request} {w w' : World} {r : Except String c.Res} {f : Multiset (List String)}
  {ids ids' : List String}

lemma cancelled_env (henv : env c w r w') (id : String) :
    Cancelled id w' ↔ Cancelled id w ∨ c.writes id .CANCELLED ∧ r.isOk := by
  simp only [Cancelled, henv.1, List.mem_append, List.mem_singleton, or_and_right, exists_or,
    exists_eq_left]

/-- A write of a request is one of `cancel` or `fail`. -/
lemma requested_status {id : String} {data : TransactionData} {s : TransactionStatus}
    (hc : Request.Usual ⟨.request, .updateTransaction id data⟩) (hdata : data.status = some s) :
    s = .CANCELLED ∨ s = .FAILED := by
  rcases hc with h | h
  · exact .inl (Option.some.inj (hdata.symm.trans h))
  · exact .inr (Option.some.inj (hdata.symm.trans h))

/-- A row that may be run stays one. -/
lemma Runnable.env {id : String} (h : Runnable id w.state) (husual : c.Usual)
    (hpunctual : punctual 0 c w r) (henv : env c w r w') : Runnable id w'.state := by
  obtain ⟨s, hs, hcreated, hcancelled⟩ := h
  rcases env_status husual henv id with heq | hchange
  · exact ⟨s, heq.trans hs, hcreated, hcancelled⟩
  · rw [hs] at hchange
    generalize hs' : w'.state.status id = s' at hchange
    cases hchange with
    | claim => exact absurd rfl hcreated
    | run hc hdata =>
      subst hc
      obtain ⟨-, hne, hne'⟩ := husual
      rw [hdata] at hne hne'
      exact ⟨_, hs', by simpa using hne, by simpa using hne'⟩
    | request hc hdata =>
      subst hc
      rcases requested_status husual hdata with rfl | rfl
      · rcases (hpunctual id rfl).1 (by simp [Request.writes, hdata]) with h' | h'
        · exact absurd (Option.some.inj (hs.symm.trans h')) hcreated
        · exact absurd (Option.some.inj (hs.symm.trans h')) hcancelled
      · exact ⟨_, hs', by simp, by simp⟩

/-- Every call of a thread that holds the transactions it runs keeps the invariant. -/
theorem Stopped.call (h : Stopped w (ids ::ₘ f)) (hlink : stopping.link ids c)
    (hpunctual : punctual 0 c w r) (henv : env c w r w') : Stopped w' (ids ::ₘ f) := by
  obtain ⟨husual, hrun⟩ := hlink
  have hself : ∀ id, c.source = .run id → Runnable id w.state := fun id hid =>
    h.held ids (Multiset.mem_cons_self ..) id (hrun id hid)
  refine ⟨env_distinct henv h.distinct, fun js hjs id hid => ?_, fun e he id hid => ?_,
    fun id hid => ?_⟩
  · exact (h.held js hjs id hid).env husual hpunctual henv
  · rw [henv.1] at he
    rcases List.mem_append.mp he with he | he
    · exact (h.ran e he id hid).env husual hpunctual henv
    · obtain rfl := List.mem_singleton.mp he
      exact (hself id hid).env husual hpunctual henv
  · rcases (cancelled_env henv id).mp hid with hid | ⟨hwrite, hok⟩
    · have hs := h.final id hid
      rcases env_status husual henv id with heq | hchange
      · exact heq.trans hs
      · rw [hs] at hchange
        generalize hs' : w'.state.status id = s' at hchange
        cases hchange with
        | run hc hdata =>
          obtain ⟨s, hs₁, -, hne⟩ := hself id (by rw [hc])
          exact absurd (Option.some.inj (hs₁.symm.trans hs)) hne
        | request hc hdata =>
          subst hc
          rcases requested_status husual hdata with rfl | rfl
          · rfl
          · exact absurd hs ((hpunctual id rfl).2 (by simp [Request.writes, hdata]))
    · obtain ⟨source, op⟩ := c
      cases op with
      | updateTransaction i data =>
        obtain ⟨rfl, hdata⟩ := of_decide_eq_true hwrite
        cases r with
        | ok v => exact ok_status henv hdata
        | error e => cases hok
      | _ => cases hwrite

end Calls

/-! ### Safe programs -/

section Programs

variable {α : Type} {js : Js} {ids : List String} {p : Service α}

/-- Usual calls, for runs of transactions that the thread holds. -/
lemma safe_held (hp : p.All (stopping.link ids)) {Q : Except String α → List String → Prop}
    (hQ : ∀ r, Q r ids) : Safe stopping p ids Q := by
  apply Safe.of_all hp hQ
  intro c hc
  exact ⟨hc, fun w f r w' hinv hpunctual henv => hinv.call hc hpunctual henv⟩

lemma held_run {id : String} (hp : p.All (Running id)) (hid : id ∈ ids) :
    p.All (stopping.link ids) := by
  refine hp.mono fun c hc => ?_
  obtain ⟨source, op⟩ := c
  obtain ⟨rfl, hop⟩ := hc
  refine ⟨hop, fun i hi => ?_⟩
  cases hi
  exact hid

lemma held_of_source {source : Source} {P : Op → Prop} (hsource : ∀ id, source ≠ .run id)
    (hP : ∀ op, P op → Request.Usual ⟨source, op⟩) (hp : p.All (Request.By source P)) :
    p.All (stopping.link ids) := by
  refine hp.mono fun c hc => ?_
  obtain ⟨source, op⟩ := c
  obtain ⟨rfl, hop⟩ := hc
  exact ⟨hP op hop, fun i hi => absurd hi (hsource i)⟩

lemma safe_ticking {op : Op} (hop : op.ticking) :
    Safe stopping (call .tick op) [] (upon (fun _ ids => ids = []) fun _ => True) := by
  have hp : (call .tick op).All (Request.By .tick Op.ticking) := all_call hop
  apply safe_held (held_of_source (fun id h => by cases h) (fun _ h => h) hp)
  intro r
  cases r with
  | ok v => rfl
  | error e => trivial

/-- A tick may run what it has fetched, and all of it is authorized at that moment. -/
lemma safe_fetch {since : ℕ} : Safe stopping (call .tick (.findAuthorized since)) []
    (upon (fun rows ids => ids = (rows : List Transaction).map (·.id)) fun _ => True) := by
  have hlink : stopping.link [] ⟨.tick, .findAuthorized since⟩ := ⟨trivial, fun i hi => by cases hi⟩
  refine safe_perform hlink ?_
  intro w f r w' hinv hpunctual henv
  have hinv' : Stopped w' ([] ::ₘ f) := hinv.call hlink hpunctual henv
  cases r with
  | error e => exact ⟨[], hinv', trivial⟩
  | ok rows =>
    refine ⟨_, ⟨hinv'.distinct, fun js hjs id hid => ?_, hinv'.ran, hinv'.final⟩, rfl⟩
    rcases Multiset.mem_cons.mp hjs with rfl | hjs
    · obtain ⟨t, ht, rfl⟩ := List.mem_map.mp hid
      exact ⟨.AUTHORIZED, status_of_fetched henv.2 hinv.distinct ht, by simp, by simp⟩
    · exact hinv'.held js (Multiset.mem_cons_of_mem hjs) id hid

namespace Processor

lemma safe_tickStopping : Safe stopping (handlePendingTransactions js) []
    (upon (fun _ _ => True) fun _ => True) := by
  have hrun {rows : List Transaction} (tx : Transaction) (htx : tx ∈ rows) :
      Safe stopping (processTransactionWithRetry js tx) (rows.map (·.id))
        (upon (fun _ ids => ids = rows.map (·.id)) fun _ => True) := by
    apply safe_held (held_run running_retryFrom (List.mem_map_of_mem htx))
    intro r
    cases r with
    | ok v => rfl
    | error e => trivial
  have hticks := safe_ticks js (D := stopping) (I := fun ids => ids = []) (E := fun _ => True)
    (R := fun rows ids => ids = rows.map (·.id)) (fun hop hids => hids ▸ safe_ticking hop)
    (fun hids => hids ▸ safe_fetch) (fun tx htx hids => hids ▸ hrun tx htx) rfl
  exact hticks.weaken (fun _ _ _ => trivial) fun _ h => h

end Processor

lemma safe_startsStopping {w : World} {q : Service Unit} (h : Starts js w q) :
    Async.Safely stopping q [] := by
  obtain rfl | rfl | hrequest := h.job_or_requested
  · exact Processor.safe_tickStopping.mono fun _ _ _ => trivial
  · apply safe_held _ fun _ => trivial
    exact held_of_source (fun id h => by cases h) (fun _ h => h)
      Processor.polling_handlePendingSettlements
  · apply safe_held _ fun _ => trivial
    exact held_of_source (fun id h => by cases h) (fun _ h => h) hrequest

/-! ### The pipeline -/

theorem stopping_governs : Async.Governs stopping (setting js punctual) where
  env _ _ _ _ h := h
  init w h := by
    refine ⟨distinct_of_started h, fun ids hids => absurd hids (Multiset.notMem_zero _), ?_, ?_⟩
    · intro e he
      rw [h.calls] at he
      cases he
    · rintro id ⟨e, he, -⟩
      rw [h.calls] at he
      cases he
  start w q h := by
    refine ⟨[], safe_startsStopping h, fun f hf => ⟨hf.distinct, fun ids hids id hid => ?_, hf.ran,
      hf.final⟩⟩
    rcases Multiset.mem_cons.mp hids with rfl | hids
    · cases hid
    · exact hf.held ids hids id hid
  world w w' f h hf := by
    have hstatus : ∀ id, w'.state.status id = w.state.status id := fun id =>
      other_status h.2 hf.distinct
    refine ⟨other_distinct h.2 hf.distinct, fun ids hids id hid => ?_, fun e he id hid => ?_,
      fun id hid => ?_⟩
    · rw [Runnable, hstatus]
      exact hf.held ids hids id hid
    · rw [h.1] at he
      rw [Runnable, hstatus]
      exact hf.ran e he id hid
    · rw [Cancelled, h.1] at hid
      rw [hstatus]
      exact hf.final id hid
  cond rest f c w r _ h := h

/-- **A punctual cancellation is final.** In every run in which `cancel` finds the row as it has read
it when it writes, and `fail` leaves cancelled rows alone, no payment is submitted and no payout is
asked for once `cancel` has returned, and the row stays `CANCELLED`. -/
theorem cancellation_final {s : Async.Pool World Request Request.Res String}
    (h : (pipeline js punctual).Reachable s) (id : String) : Final id s := by
  intro hid
  obtain ⟨f, hrel, hinv⟩ := Async.reachable_sound stopping_governs h
  refine ⟨fun q hq hspends => ?_, hinv.final id hid⟩
  obtain ⟨ids, hids, hsafe⟩ := Multiset.exists_mem_of_rel_of_mem hrel hq
  cases q with
  | done r => cases hspends
  | await c k =>
    have hsource : c.source = .run id := by
      rw [Program.next, Option.any_some, Request.spends, Bool.and_eq_true] at hspends
      exact of_decide_eq_true hspends.1
    obtain ⟨s, hs, -, hne⟩ := hinv.held ids hids id (hsafe.1.2 id hsource)
    exact hne (Option.some.inj (hs.symm.trans (hinv.final id hid)))

end Programs

/-! ### The shop -/

namespace OneOrder

/-- The customer cancels the order, up to one of the calls of `cancel`. -/
def cancelling (n : ℕ) : Service Unit × World :=
  (Transactions.cancel customer orderId).runFor reply n (ordered order)

/-- A tick claims and fetches the order while `cancel` is about to write. -/
def overtaking : Service Unit × World :=
  (Processor.handlePendingTransactions js).runFor reply 5 (cancelling 3).2

/-- Then `cancel` writes and returns. -/
def overtaken : Service Unit × World := (cancelling 3).1.runFor reply 1 overtaking.2

/-- And the tick goes on. -/
def proceeding (n : ℕ) : Service Unit × World := overtaking.1.runFor reply n overtaken.2

section

variable {cond : Condition} {C : (c : Request) → World → Except String c.Res → Bool}

lemma cancelled_idle (hcond : cond.CheckedBy C) (hordered : Idle js cond (ordered order))
    (hcheck : (Transactions.cancel customer orderId).checkFor reply C 4 (ordered order)) :
    Idle js cond (cancelling 4).2 :=
  hordered.play (.cancel _ _ _) (fun _ h => absurd h Bool.false_ne_true) hcond hcheck
    (by decide +kernel)

end

/-- The tick goes on after the cancellation has returned. -/
lemma proceeding_run (n : ℕ) : ∃ threads tr, (∀ p ∈ threads, p.next = none) ∧
    (pipeline js anyAnswer).Reachable ⟨overtaken.2, overtaking.1 ::ₘ threads⟩ ∧
    (pipeline js anyAnswer).Run ⟨overtaken.2, overtaking.1 ::ₘ threads⟩ tr
      ⟨(proceeding n).2, (proceeding n).1 ::ₘ threads⟩ := by
  have hordered : Idle js anyAnswer (ordered order) :=
    ordered_idle anyAnswer_checkedBy (by decide +kernel) (by decide +kernel)
  have hany : ∀ (rest : Multiset (Service Unit)) (c : Request) (w : World)
      (r : Except String c.Res), true → (setting js anyAnswer).cond rest c w r :=
    fun _ _ _ _ _ => trivial
  obtain ⟨threads, hdone, hreach⟩ := hordered.playFor (o := oracle) (n := 3)
    (.cancel _ customer orderId) (fun _ h => absurd h Bool.false_ne_true) anyAnswer_checkedBy
    (checkFor_true ..)
  have htick : (pipeline js anyAnswer).Reachable
      ⟨overtaking.2, overtaking.1 ::ₘ (cancelling 3).1 ::ₘ threads⟩ :=
    Async.reachable_runFor (fun c w _ => reply_env c w) (hany _) (checkFor_true ..)
      (Async.reachable_start hreach (.tick _))
  rw [Multiset.cons_swap] at htick
  have hcancelled : (pipeline js anyAnswer).Reachable
      ⟨overtaken.2, overtaken.1 ::ₘ overtaking.1 ::ₘ threads⟩ :=
    Async.reachable_runFor (fun c w _ => reply_env c w) (hany _) (checkFor_true ..) htick
  rw [Multiset.cons_swap] at hcancelled
  have hproceed : ∃ tr, (pipeline js anyAnswer).Run
      ⟨overtaken.2, overtaking.1 ::ₘ overtaken.1 ::ₘ threads⟩ tr
      ⟨(proceeding n).2, (proceeding n).1 ::ₘ overtaken.1 ::ₘ threads⟩ :=
    Async.run_runFor (fun c w _ => reply_env c w) (hany _) (checkFor_true ..)
  obtain ⟨tr, hrun⟩ := hproceed
  refine ⟨overtaken.1 ::ₘ threads, tr, fun p hp => ?_, hcancelled, hrun⟩
  rcases Multiset.mem_cons.mp hp with rfl | hp
  · decide +kernel
  · exact hdone p hp

end OneOrder

lemma punctual_checkedBy : punctual.CheckedBy fun c w _ => match c.op with
    | .updateTransaction i _ => decide (w.state.status i = some .CREATED)
    | _ => true := by
  intro rest _ c w r hcheck id hsource
  obtain ⟨source, op⟩ := c
  cases op with
  | updateTransaction i data =>
    have hcreated : w.state.status i = some .CREATED := of_decide_eq_true hcheck
    refine ⟨fun hwrite => ?_, fun hwrite => ?_⟩
    · obtain ⟨rfl, -⟩ := of_decide_eq_true hwrite
      exact .inl hcreated
    · obtain ⟨rfl, -⟩ := of_decide_eq_true hwrite
      rw [hcreated]
      simp
  | _ => exact ⟨fun h => (by cases h), fun h => by cases h⟩

/-- In the shop the order is cancelled before any tick. -/
theorem cancellation_final_of_order : ∃ s, (pipeline OneOrder.js punctual).Reachable s ∧
    Cancelled OneOrder.orderId s.world ∧ Final OneOrder.orderId s := by
  have hordered : Idle OneOrder.js punctual (OneOrder.ordered OneOrder.order) :=
    OneOrder.ordered_idle punctual_checkedBy (by decide +kernel) (by decide +kernel)
  obtain ⟨threads, -, hreach⟩ :=
    OneOrder.cancelled_idle punctual_checkedBy hordered (by decide +kernel)
  have hcancelled : Cancelled OneOrder.orderId (OneOrder.cancelling 4).2 := by decide +kernel
  exact ⟨_, hreach, hcancelled, cancellation_final hreach OneOrder.orderId⟩

/-- A tick claims the order between the check of `cancel` and its write: after the cancellation has
returned, and with no payment on its way, the payment is submitted and the merchant is paid. -/
theorem cancelled_order_paid : ∃ s t tr, (pipeline OneOrder.js anyAnswer).Reachable s ∧
    Cancelled OneOrder.orderId s.world ∧ (∀ p ∈ s.threads, ¬p.next.any (Request.spends OneOrder.orderId)) ∧
    (∀ e ∈ s.world.calls, ¬e.1.spends OneOrder.orderId) ∧ (pipeline OneOrder.js anyAnswer).Run s tr t ∧
    (∃ e ∈ t.world.calls, e.1.spends OneOrder.orderId ∧ e.1.op.isPayout OneOrder.orderId ∧ e.2.isOk) ∧
    t.world.state.status OneOrder.orderId ≠ some .CANCELLED := by
  obtain ⟨threads, tr, hdone, hreach, hrun⟩ := OneOrder.proceeding_run 28
  have hcancelled : Cancelled OneOrder.orderId OneOrder.overtaken.2 := by decide +kernel
  have hnone : ∀ e ∈ OneOrder.overtaken.2.calls, ¬e.1.spends OneOrder.orderId := by decide +kernel
  have hpaid : ∃ e ∈ (OneOrder.proceeding 28).2.calls, e.1.spends OneOrder.orderId ∧
      e.1.op.isPayout OneOrder.orderId ∧ e.2.isOk := by decide +kernel
  have hstatus : (OneOrder.proceeding 28).2.state.status OneOrder.orderId ≠ some .CANCELLED := by
    decide +kernel
  refine ⟨_, _, tr, hreach, hcancelled, fun p hp => ?_, hnone, hrun, hpaid, hstatus⟩
  rcases Multiset.mem_cons.mp hp with rfl | hp
  · decide +kernel
  · rw [hdone p hp]
    exact Bool.false_ne_true

end PayEra.Api
