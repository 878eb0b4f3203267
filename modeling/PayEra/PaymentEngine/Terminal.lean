import PayEra.PaymentEngine.Lifecycle

/-!
# Payments that are over

A payment that is completed, failed or cancelled is left alone, except that `fail_payment` asks for
every status but two: a payment that has failed can be failed again, which dates its record anew and
publishes one more event.
-/

namespace PayEra.PaymentEngine

open Soroban Soroban.Call Transition

/-- The statuses that end a payment. -/
def PaymentStatus.Terminal (s : PaymentStatus) : Prop :=
  s = .completed ∨ s = .failed ∨ s = .cancelled

variable {ω : Type} {clients : Clients ω} {env : Env} {id : Bytes32}
  {c d : OnLedger (WithPeers Storage ω)} {l : Label} {r : PaymentRecord}
  {tr : List (Move (OnLedger (WithPeers Storage ω)) Label)}

/-- A transition leaves a payment's record, and publishes nothing about it. -/
structure Untouched (id : Bytes32) (m : Move (OnLedger (WithPeers Storage ω)) Label) : Prop where
  record : paymentAt m.post id = paymentAt m.pre id
  events : m.post.state.own.eventsOf id = m.pre.state.own.eventsOf id

/-- An operator fails a payment that has failed before. -/
def Refails (id : Bytes32) (m : Move (OnLedger (WithPeers Storage ω)) Label) : Prop :=
  ∃ env operator r, m.label = .call env (.failPayment operator id) ∧
    Operates env m.pre.state.own operator ∧ paymentAt m.pre id = some r ∧ r.status = .failed

/-- What can be written of a payment that is over: only that it failed, once more. -/
lemma Written.failed_of_terminal {s : Storage} {e : Entry} {r' : PaymentRecord}
    (h : Written env s e id r') (hr : s.payment id = some r) (hterm : r.status.Terminal) :
    r.status = .failed ∧ ∃ operator, e = .failPayment operator id ∧ Operates env s operator := by
  cases h with
  | created _ _ hnone =>
    rw [hnone] at hr
    cases hr
  | quoted _ _ hr₁ hst =>
    obtain rfl := Option.some.inj (hr₁.symm.trans hr)
    rw [hst] at hterm
    simp [PaymentStatus.Terminal] at hterm
  | advanced _ hr₁ hst =>
    obtain rfl := Option.some.inj (hr₁.symm.trans hr)
    rcases hst with ⟨hst, -⟩ | ⟨hst, -⟩ | ⟨hst, -⟩ <;> rw [hst] at hterm <;>
      simp [PaymentStatus.Terminal] at hterm
  | rewarded _ hr₁ hst =>
    obtain rfl := Option.some.inj (hr₁.symm.trans hr)
    rw [hst] at hterm
    simp [PaymentStatus.Terminal] at hterm
  | cancelled _ hr₁ _ hst =>
    obtain rfl := Option.some.inj (hr₁.symm.trans hr)
    rcases hst with hst | hst <;> rw [hst] at hterm <;> simp [PaymentStatus.Terminal] at hterm
  | @failed operator _ _ hop hr₁ hst =>
    obtain rfl := Option.some.inj (hr₁.symm.trans hr)
    rcases hterm with hterm | hterm | hterm
    · exact absurd hterm hst.1
    · exact ⟨hterm, operator, rfl, hop⟩
    · exact absurd hterm hst.2

/-- A transition that does not fail it again leaves a payment that is over. -/
lemma untouched_of_terminal (hreach : (system clients).Reachable c)
    (h : (system clients).Step c l d) (hr : paymentAt c id = some r)
    (hterm : r.status.Terminal) (hno : ¬Refails id ⟨c, l, d⟩) : Untouched id ⟨c, l, d⟩ := by
  cases l with
  | peers ledger =>
    have hown : d.state.own = c.state.own := h.2.2
    refine ⟨?_, ?_⟩
    · show d.state.own.payment id = c.state.own.payment id
      rw [hown]
    · show d.state.own.eventsOf id = c.state.own.eventsOf id
      rw [hown]
  | call env e =>
    have hstate : d.state = (exec clients e).commit env c.state := h.2.2
    rcases commit_cases (exec clients e) env c.state with ⟨u, hok⟩ | heq
    · rw [← hstate] at hok
      rcases exec_effect hok with hsame | ⟨id', r', hw, hwrote⟩
      · exact ⟨congrFun hsame.payment id, congrFun hsame.events id⟩
      · have hne : id' ≠ id := by
          rintro rfl
          obtain ⟨hst, operator, rfl, hop⟩ := hw.failed_of_terminal hr hterm
          exact hno ⟨env, operator, r, rfl, hop, hr, hst⟩
        obtain ⟨ev, habout, hevents⟩ := hwrote.events
        have hkey := hw.keyed (keyed_of_reachable hreach)
        refine ⟨?_, ?_⟩
        · show d.state.own.payment id = c.state.own.payment id
          rw [hwrote.payment, hkey, Function.update_of_ne hne.symm]
        · show d.state.own.eventsOf id = c.state.own.eventsOf id
          rw [hevents, habout, if_neg (by simpa using hne), List.append_nil]
    · refine ⟨?_, ?_⟩
      · show d.state.own.payment id = c.state.own.payment id
        rw [hstate, heq]
      · show d.state.own.eventsOf id = c.state.own.eventsOf id
        rw [hstate, heq]

/-- An operator can fail every payment that is not completed and not cancelled. -/
lemma run_failPayment_of_operates (clients : Clients ω) {s : WithPeers Storage ω} {operator : Address}
    (hop : Operates env s.own operator) (hr : s.own.payment id = some r)
    (hst : r.status ≠ .completed ∧ r.status ≠ .cancelled) :
    ∃ t, (exec clients (.failPayment operator id)).run env s = .ok ((), t) ∧
      Wrote s.own t.own id { r with status := .failed, updatedLedger := env.ledger } := by
  have hok : (failPayment operator id).run env s.own = .ok ((), _) :=
    run_failPayment.mpr ⟨hop, r, hr, hst, rfl⟩
  exact ⟨_, run_own.mpr ⟨_, hok, rfl⟩, wrote_publish _ _ rfl⟩

/-- Failing a payment again publishes an event about it. -/
lemma Refails.touches (h : (system clients).Step c l d) (hre : Refails id ⟨c, l, d⟩) :
    ¬Untouched id ⟨c, l, d⟩ := by
  obtain ⟨env, operator, r, rfl, hop, hr, hst⟩ := hre
  have hnot : r.status ≠ .completed ∧ r.status ≠ .cancelled := by
    rw [hst]
    exact ⟨nofun, nofun⟩
  obtain ⟨t, hok, hwrote⟩ := run_failPayment_of_operates clients hop hr hnot
  obtain ⟨ev, habout, hevents⟩ := hwrote.events
  have hstate : d.state = t := h.2.2.trans (commit_of_ok hok)
  intro huntouched
  have hsame : d.state.own.eventsOf id = c.state.own.eventsOf id := huntouched.events
  rw [hstate, hevents, if_pos habout] at hsame
  simp at hsame

/-- Along a run that never fails it again a payment that is over keeps its record. -/
lemma paymentAt_of_terminal (hreach : (system clients).Reachable c)
    (h : (system clients).Run c tr d) (hr : paymentAt c id = some r)
    (hterm : r.status.Terminal) (hno : ∀ m ∈ tr, ¬Refails id m) : paymentAt d id = some r := by
  induction h with
  | nil => exact hr
  | @snoc e d tr l hrun hstep ih =>
    have he := ih fun m hm => hno m (List.mem_append_left _ hm)
    have hlast := hno ⟨e, l, d⟩ (List.mem_append_right _ (List.mem_singleton_self _))
    exact (untouched_of_terminal (hreach.run hrun) hstep he hterm hlast).record.trans he

/-- **Terminal payments.** From the state in which a payment is over, the transitions of a run leave
its record and publish nothing about it if and only if none of them fails it again. -/
theorem terminal_untouched (clients : Clients ω) (id : Bytes32)
    (c d : OnLedger (WithPeers Storage ω))
    (tr : List (Move (OnLedger (WithPeers Storage ω)) Label)) (r : PaymentRecord)
    (hreach : (system clients).Reachable c) (hr : paymentAt c id = some r)
    (hterm : r.status.Terminal) (h : (system clients).Run c tr d) :
    (∀ m ∈ tr, Untouched id m) ↔ ∀ m ∈ tr, ¬Refails id m := by
  constructor
  · intro huntouched m hm hre
    obtain ⟨tr₁, tr₂, rfl, hrun, hstep⟩ := h.split_of_mem hm
    exact hre.touches hstep (huntouched m hm)
  · intro hno m hm
    obtain ⟨tr₁, tr₂, rfl, hrun, hstep⟩ := h.split_of_mem hm
    have hpre := paymentAt_of_terminal hreach hrun hr hterm fun m hm =>
      hno m (List.mem_append_left _ hm)
    exact untouched_of_terminal (hreach.run hrun) hstep hpre hterm (hno m hm)

/-! ### A payment is created, and fails; then it fails again, at a later ledger sequence -/

def sampleEnv (ledger : Nat) : Env := ⟨ledger, fun a => decide (a = ⟨1⟩), none, ⟨100⟩⟩

def sampleDeployed : OnLedger (WithPeers Storage Unit) :=
  ⟨7, ⟨(constructor ⟨1⟩ ⟨101⟩ ⟨102⟩).commit (sampleEnv 7) {}, ()⟩⟩

/-- The state after the payment has failed, at ledger sequence 7. -/
def sampleFailed : OnLedger (WithPeers Storage Unit) :=
  ⟨7, (exec approving (.failPayment ⟨1⟩ (.fill 1))).commit (sampleEnv 7)
    ((exec approving (.createPayment ⟨1⟩ ⟨2⟩ (.fill 1) (.fill 2) .XLM (.lit 5000) (.fill 3)
      (.fill 4))).commit (sampleEnv 7) sampleDeployed.state)⟩

lemma sampleFailed_reachable : (system approving).Reachable sampleFailed := by
  have h₀ : (system approving).Init sampleDeployed :=
    ⟨sampleEnv 7, ⟨⟨1⟩, ⟨101⟩, ⟨102⟩, rfl⟩, rfl⟩
  have h : (system approving).Run sampleDeployed [] sampleDeployed := .nil _
  have h := run_call h (sampleEnv 7) (.createPayment ⟨1⟩ ⟨2⟩ (.fill 1) (.fill 2) .XLM
    (.lit 5000) (.fill 3) (.fill 4)) (by decide)
  have h := run_call h (sampleEnv 7) (.failPayment ⟨1⟩ (.fill 1)) (by decide)
  exact h.reachable h₀

/-- Completing a payment that has failed leaves it alone. -/
theorem terminal_untouched_of_complete :
    ∃ d, ∃ m : Move _ Label, m.label = .call (sampleEnv 8) (.completePayment ⟨1⟩ (.fill 1)) ∧
      (system approving).Run sampleFailed [m] d ∧ Untouched (.fill 1) m := by
  have h : (system approving).Run sampleFailed [] sampleFailed := .nil _
  have h := run_call h (sampleEnv 8)
    (.completePayment ⟨1⟩ (.fill 1)) (by decide)
  refine ⟨_, _, rfl, h, (terminal_untouched approving (.fill 1) _ _ _
    ((sampleFailed.state.own.payment (.fill 1)).get (by decide)) sampleFailed_reachable
    (by decide) (.inr (.inl (by decide))) h).mpr ?_ _ (List.mem_singleton_self _)⟩
  intro m hm
  obtain rfl := List.mem_singleton.mp hm
  rintro ⟨env, operator, r, hl, -⟩
  cases hl

/-- An operator fails the payment again. -/
theorem terminal_touched_by_failPayment :
    ¬∀ (clients : Clients Unit) (id : Bytes32) (c d : OnLedger (WithPeers Storage Unit))
      (tr : List (Move (OnLedger (WithPeers Storage Unit)) Label)) (r : PaymentRecord),
      (system clients).Reachable c → paymentAt c id = some r → r.status.Terminal →
      (system clients).Run c tr d → ∀ m ∈ tr, Untouched id m := by
  intro h
  have hrun : (system approving).Run sampleFailed [] sampleFailed := .nil _
  have hrun := run_call hrun (sampleEnv 8)
    (.failPayment ⟨1⟩ (.fill 1)) (by decide)
  have huntouched := h approving (.fill 1) _ _ _
    ((sampleFailed.state.own.payment (.fill 1)).get (by decide)) sampleFailed_reachable (by decide)
    (.inr (.inl (by decide))) hrun _ (List.mem_singleton_self _)
  exact absurd (congrArg (Option.map PaymentRecord.updatedLedger) huntouched.record) (by decide)

end PayEra.PaymentEngine
