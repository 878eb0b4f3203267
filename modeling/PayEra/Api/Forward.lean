import PayEra.Api.Cancellation
import PayEra.Api.Outcome

/-!
# The order of statuses

The row of a transaction should only move forward: from `CREATED` along the processor's order, or to
`FAILED` or `CANCELLED`, and never again from a final status. No writer but the claim of a tick puts
a condition on the row it writes to, so this takes that nobody else writes between a request's check
and its write or while an attempt is in progress, that an attempt begins on an authorized row, and
that nothing fails any more once the row is to be `COMPLETED`.

The ghost state of a thread is what it knows about a row: a transaction and its status.
-/

namespace PayEra.Api

open Async (Program Safe Discipline upon safe_pure safe_throw safe_bind safe_attempt safe_perform safe_forM)
open Async.Program
open Transition (Move Turn observed)

/-! ### The order -/

/-- The processor's order, with the ways of failing at its end. -/
def TransactionStatus.rank : TransactionStatus → ℕ
  | .CREATED => 0
  | .AUTHORIZED => 1
  | .QUOTED => 2
  | .CONVERTING => 3
  | .ROUTING_STELLAR => 4
  | .SETTLING => 5
  | .REWARDING => 6
  | .COMPLETED => 7
  | .FAILED => 8
  | .CANCELLED => 9

/-- `COMPLETED`, `FAILED` and `CANCELLED`. -/
def TransactionStatus.Terminal (s : TransactionStatus) : Prop := 7 ≤ s.rank

instance (s : TransactionStatus) : Decidable s.Terminal := inferInstanceAs (Decidable (7 ≤ _))

/-- The moves that a status may make. -/
structure Forward (s s' : TransactionStatus) : Prop where
  active : ¬s.Terminal
  later : s.rank < s'.rank
  cancel : s' = .CANCELLED → s = .CREATED

instance (s s' : TransactionStatus) : Decidable (Forward s s') :=
  decidable_of_iff (¬s.Terminal ∧ s.rank < s'.rank ∧ (s' = .CANCELLED → s = .CREATED))
    ⟨fun h => ⟨h.1, h.2.1, h.2.2⟩, fun h => ⟨h.1, h.2, h.3⟩⟩

/-- A row appears `CREATED`, and then moves forward. -/
abbrev Progress : Option TransactionStatus → Option TransactionStatus → Prop :=
  Turn (· = .CREATED) Forward

/-- The status of a transaction in a state of the pipeline. -/
abbrev statusOf (id : String) (s : Async.Pool World Request Request.Res String) :
    Option TransactionStatus := s.world.state.status id

/-! ### The condition -/

/-- The call is one of a run of the transaction, or of a request that has looked at its status and
is going to write it. -/
def Request.involved (id : String) (c : Request) : Bool :=
  match c.source, c.op with
  | .run i, _ => decide (i = id)
  | .request, .maxEventSequence i => decide (i = id)
  | .request, .createEvent e => decide (e.transactionId = id)
  | .request, .updateTransaction i _ => decide (i = id)
  | _, _ => false

/-- The call writes the status of the transaction. -/
def Request.setsStatus (id : String) (b : Backend) (c : Request) : Prop :=
  match c.op with
  | .updateTransaction i data => i = id ∧ data.status.isSome
  | .claimTransactions time _ => ∃ t, b.transaction id = some t ∧ Backend.claimable time t
  | _ => False

/-- What a call respects so that the status of the transaction moves forward, where `busy id` says
that some other program relies on the status of `id`. -/
structure Orderly (busy : String → Prop) (c : Request) (w : World) (r : Except String c.Res)
    (id : String) : Prop where
  /-- While a run or a request is involved, nobody else writes the status. -/
  alone : c.setsStatus id w.state → ¬busy id
  /-- An attempt begins on a row that is authorized. -/
  begins : c.source = .run id → c.writes id .AUTHORIZED → w.state.status id = some .AUTHORIZED
  /-- `fail` is not asked for a cancelled transaction. -/
  standing : c.source = .request → c.writes id .FAILED → w.state.status id ≠ some .CANCELLED
  /-- From the write of `COMPLETED` on nothing fails. -/
  ends : c.source = .run id → c.writes id .COMPLETED ∨ w.state.status id = some .COMPLETED →
    r.isOk

def orderly : Condition := fun rest c w r => ∀ id,
  Orderly (fun id => ∃ p ∈ rest, p.next.any (Request.involved id)) c w r id

/-! ### The discipline -/

/-- What a thread knows: nothing, or the status of one transaction. -/
abbrev Knowledge := Option (String × TransactionStatus)

/-- Nothing that others could make wrong. -/
def Knowledge.Safe (k : Knowledge) : Prop := ∀ id s, k = some (id, s) → s.Terminal

structure Known (w : World) (f : Multiset Knowledge) : Prop where
  distinct : w.state.Distinct
  known : ∀ id s, some (id, s) ∈ f → w.state.status id = some s

/-- A thread writes a status only if an attempt begins, or over a status that it knows and that may
be followed by this one. -/
structure Linked (k : Knowledge) (c : Request) : Prop where
  usual : c.Usual
  involved : ∀ id s, k = some (id, s) → ¬s.Terminal → c.involved id
  writes : ∀ id s', c.writes id s' → c.source = .run id ∧ s' = .AUTHORIZED ∨
    ∃ s, k = some (id, s) ∧ (s' = s ∨ Forward s s' ∨
      c.source = .request ∧ s = .CANCELLED ∧ s' = .FAILED)

def forwarding : Discipline World Request Request.Res String Knowledge where
  env := env
  inv := Known
  link := Linked
  allowed f c w r := ∀ id, Orderly (fun id => ∃ s, some (id, s) ∈ f ∧ ¬s.Terminal) c w r id
  halt k := k.Safe

section Steps

variable {c : Request} {w w' : World} {r : Except String c.Res} {f : Multiset Knowledge}
  {k k' : Knowledge} {busy : String → Prop}

/-- **Every status that is written moves forward.** -/
theorem progress_of_linked (h : Known w (k ::ₘ f)) (hlink : Linked k c)
    (horderly : ∀ id, Orderly busy c w r id) (henv : env c w r w') (id : String) :
    Progress (w.state.status id) (w'.state.status id) := by
  have hknown : ∀ s, k = some (id, s) → w.state.status id = some s := fun s hs =>
    h.known id s (by rw [hs]; exact Multiset.mem_cons_self ..)
  rcases env_status hlink.usual henv id with heq | hchange
  · rw [heq]
    exact .same _
  · generalize hs : w.state.status id = a at hchange
    generalize w'.state.status id = b at hchange
    cases hchange with
    | claim hc => exact .change (by decide)
    | create hc hid => exact .appear rfl
    | @run data s s' hc hdata =>
      have hwrites : c.writes id s' := by
        rw [hc]
        exact decide_eq_true ⟨rfl, hdata⟩
      rcases hlink.writes id s' hwrites with ⟨hsource, rfl⟩ | ⟨s₁, hk, hmove⟩
      · have heq := (horderly id).begins hsource hwrites
        obtain rfl := Option.some.inj (hs.symm.trans heq)
        exact .same _
      · obtain rfl := Option.some.inj (hs.symm.trans (hknown s₁ hk))
        rcases hmove with rfl | hforward | ⟨hsource, -⟩
        · exact .same _
        · exact .change hforward
        · rw [hc] at hsource
          cases hsource
    | @request data s s' hc hdata =>
      have hwrites : c.writes id s' := by
        rw [hc]
        exact decide_eq_true ⟨rfl, hdata⟩
      rcases hlink.writes id s' hwrites with ⟨hsource, -⟩ | ⟨s₁, hk, hmove⟩
      · rw [hc] at hsource
        cases hsource
      · obtain rfl := Option.some.inj (hs.symm.trans (hknown s₁ hk))
        rcases hmove with rfl | hforward | ⟨hsource, rfl, rfl⟩
        · exact .same _
        · exact .change hforward
        · exact absurd hs ((horderly id).standing hsource hwrites)

/-- A call that does not write the status leaves it, if there is one. -/
lemma status_of_not_sets {id : String} {s : TransactionStatus} (hc : c.Usual)
    (henv : env c w r w') (hsets : ¬c.setsStatus id w.state) (hs : w.state.status id = some s) :
    w'.state.status id = some s := by
  rcases env_status hc henv id with heq | hchange
  · exact heq.trans hs
  · have hold := hs
    rw [hs] at hchange
    generalize hs' : w'.state.status id = b at hchange
    cases hchange with
    | @claim time authorizedAt h =>
      subst h
      rcases env_row henv id with hrow | hrow
      · rw [Backend.status, hrow, ← Backend.status, hold] at hs'
        exact hs'.symm
      · obtain ⟨t, ht, -⟩ := Option.map_eq_some_iff.mp hold
        refine absurd ⟨t, ht, ?_⟩ hsets
        by_contra hnot
        rw [Backend.status, hrow, ht, Op.row, Option.map_some, if_neg hnot, ← ht, ← Backend.status,
          hold] at hs'
        cases hs'
    | run h hdata =>
      subst h
      exact absurd ⟨rfl, by rw [hdata]; rfl⟩ hsets
    | request h hdata =>
      subst h
      exact absurd ⟨rfl, by rw [hdata]; rfl⟩ hsets

/-- What the other threads know stays true. -/
lemma Known.others (h : Known w (k ::ₘ f)) (hlink : Linked k c)
    (hallowed : forwarding.allowed f c w r) (henv : env c w r w') : Known w' f := by
  refine ⟨env_distinct henv h.distinct, fun id s hs => ?_⟩
  have hold : w.state.status id = some s := h.known id s (Multiset.mem_cons_of_mem hs)
  by_cases hterminal : s.Terminal
  · have hprogress := progress_of_linked h hlink hallowed henv id
    rw [hold] at hprogress
    generalize w'.state.status id = b at hprogress
    cases hprogress with
    | same => rfl
    | change hforward => exact absurd hterminal hforward.active
  · refine status_of_not_sets hlink.usual henv (fun hsets => ?_) hold
    exact (hallowed id).alone hsets ⟨s, hs, hterminal⟩

lemma Known.cons (h : Known w f) (hk : ∀ id s, k = some (id, s) → w.state.status id = some s) :
    Known w (k ::ₘ f) := by
  refine ⟨h.distinct, fun id s hs => ?_⟩
  rcases Multiset.mem_cons.mp hs with hs | hs
  · exact hk id s hs.symm
  · exact h.known id s hs

end Steps

/-! ### Single calls -/

section Programs

variable {α : Type} {js : Js} {tx : Transaction} {id : String} {k : Knowledge} {p : Service α}
  {s s' : TransactionStatus}

/-- A call is safe if what the thread knows after it is true. -/
lemma safe_known {source : Source} {op : Op} {Q : Except String op.Res → Knowledge → Prop}
    (hlink : Linked k ⟨source, op⟩)
    (h : ∀ w f r w', Known w (k ::ₘ f) → forwarding.allowed f ⟨source, op⟩ w r →
      env ⟨source, op⟩ w r w' →
      ∃ k', (∀ i s, k' = some (i, s) → w'.state.status i = some s) ∧ Q r k') :
    Safe forwarding (call source op) k Q := by
  refine safe_perform hlink ?_
  intro w f r w' hinv hallowed henv
  obtain ⟨k', hk', hQ⟩ := h w f r w' hinv hallowed henv
  exact ⟨k', (hinv.others hlink hallowed henv).cons hk', hQ⟩

/-- The thread knows the status of the transaction `id`. -/
def Sees (id : String) (s : TransactionStatus) : Knowledge := some (id, s)

/-- What a run of the transaction `id` may know between two calls. -/
def OnlyOf (id : String) (k : Knowledge) : Prop := ∀ i s, k = some (i, s) → ¬s.Terminal → i = id

lemma onlyOf_safe (h : k.Safe) : OnlyOf id k := fun i s hk hs => absurd (h i s hk) hs

lemma onlyOf_sees : OnlyOf id (Sees id s) := fun i s' h _ => by
  cases h
  rfl

lemma involved_run {op : Op} (id : String) : Request.involved id ⟨.run id, op⟩ :=
  decide_eq_true rfl

lemma linked_still {c : Request} (hc : Still id c) (hk : OnlyOf id k) : Linked k c := by
  obtain ⟨source, op⟩ := c
  obtain ⟨rfl, hop⟩ := hc
  refine ⟨hop.1, fun i s hi hs => ?_, fun i s' hwrites => ?_⟩
  · rw [hk i s hi hs]
    exact involved_run id
  · cases op with
    | updateTransaction j data =>
      obtain ⟨-, hdata⟩ := of_decide_eq_true hwrites
      rw [hop.2] at hdata
      cases hdata
    | _ => cases hwrites

/-- A call that is not a write keeps what the thread knows. -/
lemma known_of_still {c : Request} {w w' : World} {r : Except String c.Res} (hc : Still id c)
    (henv : env c w r w') (hs : w.state.status id = some s) : w'.state.status id = some s := by
  obtain ⟨source, op⟩ := c
  obtain ⟨rfl, hop⟩ := hc
  have husual : Request.Usual ⟨.run id, op⟩ := hop.1
  refine status_of_not_sets husual henv (fun hsets => ?_) hs
  cases op with
  | updateTransaction j data =>
    obtain ⟨-, hdata⟩ := hsets
    rw [hop.2] at hdata
    cases hdata
  | claimTransactions => exact hop.1
  | _ => exact hsets

lemma safe_still (hp : p.All (Still id)) :
    Safe forwarding p (Sees id s) (upon (fun _ k => k = Sees id s) fun k => k = Sees id s) := by
  apply Safe.of_all hp
  · intro r
    cases r with
    | ok a => rfl
    | error e => rfl
  · intro c hc
    have hlink : Linked (Sees id s) c := linked_still hc onlyOf_sees
    refine ⟨hlink, fun w f r w' hinv hallowed henv => ?_⟩
    refine (hinv.others hlink hallowed henv).cons fun i s₁ hi => ?_
    cases hi
    exact known_of_still hc henv (hinv.known id s (Multiset.mem_cons_self ..))

/-- A thread may forget what it knows. -/
lemma safe_forget {op : Op} (hop : op.still id) (hk : OnlyOf id k) :
    Safe forwarding (call (.run id) op) k (upon (fun _ k => k = none) fun k => k = none) := by
  refine safe_known (linked_still ⟨rfl, hop⟩ hk) ?_
  intro w f r w' _ _ _
  refine ⟨none, fun i s h => (by cases h), ?_⟩
  cases r with
  | ok v => rfl
  | error e => rfl

/-- A write of a run. -/
lemma linked_write {data : TransactionData} (hdata : data.status = some s')
    (hne : s' ≠ .CREATED ∧ s' ≠ .CANCELLED) (hk : OnlyOf id k)
    (h : s' = .AUTHORIZED ∨ ∃ s, k = Sees id s ∧ (s' = s ∨ Forward s s')) :
    Linked k ⟨.run id, .updateTransaction id data⟩ := by
  refine ⟨⟨rfl, ?_, ?_⟩, fun i s hi hs => ?_, fun i s₁ hwrites => ?_⟩
  · rw [hdata]
    simpa using hne.1
  · rw [hdata]
    simpa using hne.2
  · rw [hk i s hi hs]
    exact involved_run id
  · obtain ⟨rfl, hs₁⟩ := of_decide_eq_true hwrites
    obtain rfl := Option.some.inj (hdata.symm.trans hs₁)
    rcases h with h | ⟨s, hks, h⟩
    · exact .inl ⟨rfl, h⟩
    · exact .inr ⟨s, hks, h.imp_right .inl⟩

/-- An attempt begins. -/
lemma safe_begin {data : TransactionData} (hdata : data.status = some .AUTHORIZED) (hk : k.Safe) :
    Safe forwarding (call (.run id) (.updateTransaction id data)) k
      (upon (fun _ k => k = Sees id .AUTHORIZED) fun k => k = Sees id .AUTHORIZED) := by
  refine safe_known (linked_write hdata (by decide) (onlyOf_safe hk) (.inl rfl)) ?_
  intro w f r w' hinv hallowed henv
  have hbegins : w.state.status id = some .AUTHORIZED :=
    (hallowed id).begins rfl (decide_eq_true ⟨rfl, hdata⟩)
  have hafter : w'.state.status id = some .AUTHORIZED := by
    rcases (evolves_env henv).update id with heq | ⟨-, s, s', hs', -, hafter⟩
    · exact heq.trans hbegins
    · rw [hafter, ← hs', hdata]
  refine ⟨Sees id .AUTHORIZED, fun i s h => ?_, ?_⟩
  · cases h
    exact hafter
  · cases r with
    | ok v => rfl
    | error e => rfl

/-- A later write of an attempt. If it fails the status is the old one or the new one. -/
lemma safe_write {data : TransactionData} (hdata : data.status = some s')
    (hne : s' ≠ .CREATED ∧ s' ≠ .CANCELLED) (h : s' = s ∨ Forward s s') :
    Safe forwarding (call (.run id) (.updateTransaction id data)) (Sees id s)
      (upon (fun _ k => k = Sees id s') fun k => s' ≠ .COMPLETED ∧
        (k = Sees id s ∨ k = Sees id s')) := by
  refine safe_known (linked_write hdata hne onlyOf_sees (.inr ⟨s, rfl, h⟩)) ?_
  intro w f r w' hinv hallowed henv
  have hold : w.state.status id = some s := hinv.known id s (Multiset.mem_cons_self ..)
  cases r with
  | ok v =>
    refine ⟨Sees id s', fun i s₁ h => ?_, rfl⟩
    cases h
    exact ok_status henv hdata
  | error e =>
    have hcompleted : s' ≠ .COMPLETED := by
      rintro rfl
      have hok := (hallowed id).ends rfl (.inl (decide_eq_true ⟨rfl, hdata⟩))
      cases hok
    rcases (evolves_env henv).update id with heq | ⟨-, s₁, s₂, hs₂, -, hafter⟩
    · refine ⟨Sees id s, fun i s₁ h => ?_, hcompleted, .inl rfl⟩
      cases h
      exact heq.trans hold
    · refine ⟨Sees id s', fun i s₁ h => ?_, hcompleted, .inr rfl⟩
      cases h
      rw [hafter, ← hs₂, hdata]

/-- Nothing fails any more when the row is `COMPLETED`. -/
lemma safe_completed (hp : p.All (Still id)) (hr : p.Resilient Request.caught False) :
    Safe forwarding p (Sees id .COMPLETED)
      (upon (fun _ k => k = Sees id .COMPLETED) fun _ => False) := by
  induction p with
  | done r =>
    cases r with
    | ok a => rfl
    | error e => exact hr
  | await c m ih =>
    obtain ⟨hc, hm⟩ := hp
    have hlink : Linked (Sees id .COMPLETED) c := linked_still hc onlyOf_sees
    refine ⟨hlink, fun w f r w' hinv hallowed henv => ?_⟩
    have hold : w.state.status id = some .COMPLETED :=
      hinv.known id _ (Multiset.mem_cons_self ..)
    refine ⟨Sees id .COMPLETED, (hinv.others hlink hallowed henv).cons fun i s h => ?_, ?_⟩
    · cases h
      exact known_of_still hc henv hold
    · cases r with
      | ok v => exact ih _ (hm _) (hr.1 v)
      | error e =>
        have hok := (hallowed id).ends hc.1 (.inr hold)
        cases hok

/-! ### The run of a transaction -/

/-- The statuses from which an attempt may go on to `FAILED`. -/
def Stuck (id : String) (k : Knowledge) : Prop :=
  ∃ s, k = Sees id s ∧ (s = .FAILED ∨ Forward s .FAILED)

lemma stuck_of_active (h : ¬s.Terminal) : Stuck id (Sees id s) := by
  refine ⟨s, rfl, .inr ⟨h, ?_, fun h => by cases h⟩⟩
  have hlt : s.rank < 7 := Nat.lt_of_not_le h
  show s.rank < 8
  omega

lemma stuck_failed : Stuck id (Sees id .FAILED) := ⟨.FAILED, rfl, .inl rfl⟩

/-- What a run may know when it rests. -/
lemma safe_sees (h : s.Terminal) : (Sees id s).Safe := by
  intro i s' hi
  cases hi
  exact h

namespace Processor

lemma safe_stillLogEvent {status : TransactionStatus} {payload : Metadata} :
    Safe forwarding (logEvent id status payload) (Sees id s)
      (upon (fun _ k => k = Sees id s) fun k => k = Sees id s) :=
  safe_still still_logEvent

/-- One status further, which is not the last. -/
lemma safe_updateForward {failure : Option (String × String)} (hs : ¬s.Terminal)
    (hs' : ¬s'.Terminal) (hcreated : s' ≠ .CREATED) (h : s' = s ∨ Forward s s') :
    Safe forwarding (updateStatus id s' failure) (Sees id s)
      (upon (fun _ k => k = Sees id s') (Stuck id)) := by
  have hcompleted : s' ≠ .COMPLETED := by
    rintro rfl
    exact hs' (le_refl 7)
  have hcancelled : s' ≠ .CANCELLED := by
    rintro rfl
    exact hs' (by decide)
  rw [updateStatus, completionDate_of_ne hcompleted]
  refine safe_bind (R := fun _ k => k = Sees id s) (safe_pure rfl) fun _ k hk => ?_
  subst hk
  refine safe_bind ((safe_write rfl ⟨hcreated, hcancelled⟩ h).weaken (fun _ _ h => h) ?_)
    fun _ k hk => ?_
  · rintro k ⟨-, rfl | rfl⟩
    · exact stuck_of_active hs
    · exact stuck_of_active hs'
  · subst hk
    refine safe_stillLogEvent.weaken (fun _ _ h => h) fun k hk => ?_
    rw [hk]
    exact stuck_of_active hs'

/-- Calls of an attempt that leave the status as it is. -/
lemma safe_stillActive (hp : p.All (Still id)) (hs : ¬s.Terminal) :
    Safe forwarding p (Sees id s) (upon (fun _ k => k = Sees id s) (Stuck id)) := by
  refine (safe_still hp).weaken (fun _ _ h => h) fun k hk => ?_
  rw [hk]
  exact stuck_of_active hs

lemma safe_prepareForward (hk : k.Safe) : Safe forwarding (prepare tx) k
    (upon (fun _ k => k = Sees tx.id .AUTHORIZED) (Stuck tx.id)) := by
  have hactive : ¬TransactionStatus.AUTHORIZED.Terminal := by decide
  have hauthorized : Safe forwarding (updateStatus tx.id .AUTHORIZED none) k
      (upon (fun _ k => k = Sees tx.id .AUTHORIZED) (Stuck tx.id)) := by
    rw [updateStatus, completionDate_of_ne (by decide)]
    refine safe_bind (R := fun _ k => k.Safe) (safe_pure hk) fun _ k hk => ?_
    refine safe_bind ((safe_begin rfl hk).weaken (fun _ _ h => h) fun k hk => ?_) fun _ k hk => ?_
    · rw [hk]
      exact stuck_of_active hactive
    · subst hk
      exact safe_stillActive still_logEvent hactive
  refine safe_bind hauthorized fun _ k hk => ?_
  subst hk
  have hreward : (call (.run tx.id) (.findSpendReward tx.id)).All (Still tx.id) :=
    all_call ⟨rfl, trivial⟩
  refine safe_bind (safe_stillActive hreward hactive) fun reward k hk => ?_
  subst hk
  cases reward with
  | none => exact safe_throw (stuck_of_active hactive)
  | some reward =>
    apply safe_stillActive _ hactive
    exact all_bind still_lookup.1 fun _ => all_bind still_lookup.2 fun _ => all_pure _

lemma safe_quoteForward : Safe forwarding (quote js tx) (Sees tx.id .AUTHORIZED)
    (upon (fun _ k => k = Sees tx.id .CONVERTING) (Stuck tx.id)) := by
  have hactive : ¬TransactionStatus.QUOTED.Terminal := by decide
  have hdone : ∀ r : Except String ℤ, (Program.done r : Service ℤ).All (Still tx.id) :=
    fun _ => trivial
  refine safe_bind (safe_updateForward (by decide) hactive (by decide) (.inr (by decide)))
    fun _ k hk => ?_
  subst hk
  refine safe_bind (safe_stillActive still_getUsdcRate hactive) fun _ k hk => ?_
  subst hk
  refine safe_bind (safe_stillActive (hdone _) hactive) fun _ k hk => ?_
  subst hk
  refine safe_bind (safe_stillActive (hdone _) hactive) fun _ k hk => ?_
  subst hk
  refine safe_bind (safe_stillActive (all_call ⟨rfl, trivial⟩) hactive) fun _ k hk => ?_
  subst hk
  exact safe_updateForward hactive (by decide) (by decide) (.inr (by decide))

lemma safe_routeForward (hk : k.Safe) : Safe forwarding (route js tx) k
    (upon (fun _ k => k = Sees tx.id .ROUTING_STELLAR) (Stuck tx.id)) := by
  refine safe_bind (safe_prepareForward hk) fun lookup k hk => ?_
  subst hk
  have hcreate : (call (.run tx.id) (.createPayment (paymentParams tx lookup))).All (Still tx.id) :=
    all_call ⟨rfl, trivial⟩
  refine safe_bind (safe_stillActive hcreate (by decide)) fun _ k hk => ?_
  subst hk
  refine safe_bind safe_quoteForward fun _ k hk => ?_
  subst hk
  refine safe_bind (safe_stillActive (all_call ⟨rfl, trivial⟩) (by decide)) fun _ k hk => ?_
  subst hk
  refine safe_bind (safe_updateForward (by decide) (by decide) (by decide) (.inr (by decide)))
    fun _ k hk => ?_
  subst hk
  exact safe_stillActive (all_call ⟨trivial, trivial⟩) (by decide)

lemma safe_markSettledForward {stellar : StellarResult} :
    Safe forwarding (markSettled tx stellar) (Sees tx.id .ROUTING_STELLAR)
      (upon (fun _ k => k = Sees tx.id .SETTLING) (Stuck tx.id)) := by
  have hactive : ¬TransactionStatus.SETTLING.Terminal := by decide
  refine safe_bind ((safe_write rfl (by decide) (.inr (by decide))).weaken (fun _ _ h => h) ?_)
    fun _ k hk => ?_
  · rintro k ⟨-, rfl | rfl⟩
    · exact stuck_of_active (by decide)
    · exact stuck_of_active hactive
  · subst hk
    refine safe_bind (safe_stillActive still_logEvent hactive) fun _ k hk => ?_
    subst hk
    refine safe_bind (safe_stillActive (all_call ⟨rfl, trivial⟩) hactive) fun _ k hk => ?_
    subst hk
    exact safe_updateForward hactive hactive (by decide) (.inl rfl)

lemma safe_completeForward {stellar : StellarResult} {attempt : ℕ} {rewardResult : RewardResult} :
    Safe forwarding (complete tx stellar attempt rewardResult) (Sees tx.id .SETTLING)
      (upon (fun _ k => k = Sees tx.id .COMPLETED) (Stuck tx.id)) := by
  have hactive : ¬TransactionStatus.REWARDING.Terminal := by decide
  refine safe_bind (safe_updateForward (by decide) hactive (by decide) (.inr (by decide)))
    fun _ k hk => ?_
  subst hk
  refine safe_bind (safe_stillActive (all_call ⟨rfl, trivial⟩) hactive) fun _ k hk => ?_
  subst hk
  have hrest : ∀ {q : Service Unit}, q.All (Still tx.id) → q.Resilient Request.caught False →
      Safe forwarding q (Sees tx.id .COMPLETED)
        (upon (fun _ k => k = Sees tx.id .COMPLETED) (Stuck tx.id)) := fun hq hr =>
    (safe_completed hq hr).weaken (fun _ _ h => h) fun _ h => h.elim
  refine safe_bind (R := fun _ k => k = Sees tx.id .COMPLETED) ?_ fun _ k hk => ?_
  · refine safe_bind (safe_stillActive still_completionDate hactive) fun _ k hk => ?_
    subst hk
    refine safe_bind ((safe_write rfl (by decide) (.inr (by decide))).weaken (fun _ _ h => h) ?_)
      fun _ k hk => ?_
    · rintro k ⟨hne, -⟩
      exact absurd rfl hne
    · subst hk
      exact hrest still_logEvent resilient_logEvent
  · subst hk
    apply hrest
    · refine all_bind (all_now ⟨trivial, trivial⟩) fun _ => ?_
      exact all_bind (all_call ⟨rfl, trivial⟩) fun _ => still_logCompletion
    · refine resilient_bind (resilient_call False.elim) fun _ => ?_
      exact resilient_bind (resilient_call False.elim) fun _ => resilient_logCompletion

lemma safe_settleForward {stellar : StellarResult} {attempt : ℕ} :
    Safe forwarding (settle tx stellar attempt) (Sees tx.id .ROUTING_STELLAR)
      (upon (fun _ k => k = Sees tx.id .COMPLETED) (Stuck tx.id)) := by
  refine safe_bind safe_markSettledForward fun _ k hk => ?_
  subst hk
  refine safe_bind (safe_stillActive still_payMerchant (by decide)) fun _ k hk => ?_
  subst hk
  refine safe_bind (safe_stillActive still_issueStarRewards (by decide)) fun _ k hk => ?_
  subst hk
  exact safe_completeForward

/-- The `catch` block finds a row that may still fail. -/
lemma safe_abortForward {hash : Option String} {message : String} (hk : Stuck tx.id k) :
    Safe forwarding (abort tx hash message) k
      (upon (fun _ k => k.Safe) (Stuck tx.id)) := by
  obtain ⟨s, rfl, hs⟩ := hk
  have hsave : Safe forwarding (saveHash tx hash) (Sees tx.id s)
      (upon (fun _ k => k = Sees tx.id s) (Stuck tx.id)) :=
    (safe_still still_saveHash).weaken (fun _ _ h => h) fun k hk => ⟨s, hk, hs⟩
  refine safe_bind hsave fun _ k hk => ?_
  subst hk
  rw [updateStatus, completionDate_of_ne (by decide)]
  refine safe_bind (R := fun _ k => k = Sees tx.id s) (safe_pure rfl) fun _ k hk => ?_
  subst hk
  refine safe_bind ((safe_write rfl (by decide) (hs.imp_left Eq.symm)).weaken (fun _ _ h => h) ?_)
    fun _ k hk => ?_
  · rintro k ⟨-, rfl | rfl⟩
    · exact ⟨s, rfl, hs⟩
    · exact stuck_failed
  · subst hk
    refine safe_stillLogEvent.weaken (fun _ k hk => ?_) fun k hk => ?_
    · rw [hk]
      exact safe_sees (by decide)
    · rw [hk]
      exact stuck_failed

lemma safe_processForward {attempt : ℕ} (hk : k.Safe) :
    Safe forwarding (processTransaction js tx attempt) k
      (upon (fun _ k => k.Safe) (Stuck tx.id)) := by
  refine safe_attempt (safe_routeForward hk) (fun stellar k hk => ?_) fun message k hk => ?_
  · subst hk
    refine safe_attempt safe_settleForward (fun _ k hk => ?_) fun message k hk => ?_
    · subst hk
      exact safe_pure (safe_sees (by decide))
    · exact safe_abortForward hk
  · exact safe_abortForward hk

lemma onlyOf_stuck (h : Stuck id k) : OnlyOf id k := by
  obtain ⟨s, rfl, -⟩ := h
  exact onlyOf_sees

lemma knowledge_none : Knowledge.Safe none := fun i s h => by cases h

lemma safe_giveUpForward {message : String} (hk : Stuck tx.id k) :
    Safe forwarding (giveUp tx message) k (upon (fun _ k => k.Safe) fun k => k.Safe) := by
  obtain ⟨s, rfl, hs⟩ := hk
  refine safe_bind (R := fun _ k => k.Safe) (safe_known (linked_write rfl (by decide) onlyOf_sees
    (.inr ⟨s, rfl, hs.imp_left Eq.symm⟩)) ?_) fun _ k hk => safe_pure hk
  intro w f r w' _ _ _
  refine ⟨none, fun i s h => (by cases h), ?_⟩
  cases r with
  | ok v => exact knowledge_none
  | error e => exact knowledge_none

lemma safe_retryForward {remaining : ℕ} (hk : k.Safe) :
    Safe forwarding (retryFrom js tx remaining) k (upon (fun _ k => k.Safe) fun k => k.Safe) := by
  have hnone {k : Knowledge} (hk : k = none) : k.Safe := by
    rw [hk]
    exact knowledge_none
  have hsleep : ∀ ms, Op.still tx.id (.sleep ms) := fun ms => ⟨trivial, trivial⟩
  exact safe_attempts (fun _ _ hk => safe_processForward hk) (fun _ _ hk => safe_giveUpForward hk)
    (fun ms _ hk => (safe_forget (hsleep ms) (onlyOf_stuck hk)).weaken (fun _ _ => hnone) fun _ => hnone) hk

end Processor

/-! ### Everything else -/

/-- A call that writes no status. -/
def Unwritten (c : Request) : Prop := c.Usual ∧ ∀ id s, ¬c.writes id s

lemma linked_unwritten {c : Request} (hc : Unwritten c) (hk : k.Safe) : Linked k c :=
  ⟨hc.1, fun i s hi hs => absurd (hk i s hi) hs, fun i s' h => absurd h (hc.2 i s')⟩

/-- What no other can make wrong stays true whatever is called. -/
lemma safe_unwritten (hp : p.All Unwritten) (hk : k.Safe) :
    Safe forwarding p k (upon (fun _ k => k.Safe) fun k => k.Safe) := by
  refine (Safe.of_all (Q := upon (fun _ k' => k' = k) fun k' => k' = k) hp ?_ ?_).weaken ?_ ?_
  · intro r
    cases r with
    | ok a => rfl
    | error e => rfl
  · intro c hc
    have hlink : Linked k c := linked_unwritten hc hk
    refine ⟨hlink, fun w f r w' hinv hallowed henv => ?_⟩
    refine (hinv.others hlink hallowed henv).cons fun i s hi => ?_
    have hold : w.state.status i = some s :=
      hinv.known i s (by rw [hi]; exact Multiset.mem_cons_self ..)
    have hprogress := progress_of_linked hinv hlink hallowed henv i
    rw [hold] at hprogress
    generalize w'.state.status i = b at hprogress
    cases hprogress with
    | same => rfl
    | change hforward => exact absurd (hk i s hi) hforward.active
  · rintro a k' rfl
    exact hk
  · rintro k' rfl
    exact hk

lemma unwritten_ticking {op : Op} (hop : op.ticking) : Unwritten ⟨.tick, op⟩ := by
  refine ⟨hop, fun i s h => ?_⟩
  cases op with
  | updateTransaction => exact hop
  | _ => cases h

lemma unwritten_polling {c : Request} (hc : Polling c) : Unwritten c := by
  obtain ⟨source, op⟩ := c
  obtain ⟨rfl, hop⟩ := hc
  refine ⟨hop, fun i s h => ?_⟩
  cases op with
  | updateTransaction => exact hop
  | _ => cases h

lemma unwritten_creating {c : Request} (hc : Creating c) : Unwritten c := by
  obtain ⟨source, op⟩ := c
  obtain ⟨rfl, hop⟩ := hc
  refine ⟨?_, fun i s h => ?_⟩
  · cases op with
    | createTransaction t => exact hop
    | now | uuid | findWallet | findMerchant | findActiveQrCode | createAdminLog | createReward
    | fetchRates => trivial
    | _ => exact hop.elim
  · cases op with
    | updateTransaction => exact hop
    | _ => cases h

lemma Processor.safe_tickForward : Safe forwarding (handlePendingTransactions js) none
    (upon (fun _ k => k.Safe) fun k => k.Safe) := by
  have hcall : ∀ {op : Op} {k : Knowledge}, op.ticking → k.Safe →
      Safe forwarding (call .tick op) k (upon (fun _ k => k.Safe) fun k => k.Safe) :=
    fun hop hk => safe_unwritten (all_perform (unwritten_ticking hop)) hk
  have hticks := safe_ticks js (D := forwarding) (I := fun k => k.Safe) (E := fun k => k.Safe)
    (R := fun _ k => k.Safe) hcall (hcall trivial) (fun tx _ hk => safe_retryForward hk) knowledge_none
  refine hticks.weaken (fun _ k hk => ?_) fun _ h => h
  rcases hk with hk | ⟨-, hk⟩
  · exact hk
  · exact hk

namespace Transactions

variable {owner : Principal}

/-- A request that looks at a transaction and is going to write it knows its status. -/
lemma safe_findOneForward (P : TransactionStatus → Prop) [DecidablePred P] :
    Safe forwarding (findOne owner id) none (upon (fun t k =>
      k = if P (t : Transaction).status then Sees id t.status else none) fun k => k.Safe) := by
  refine safe_bind (R := fun row k => k = match (row : Option Transaction) with
    | some t => if P t.status then Sees id t.status else none
    | none => none) (safe_known (linked_unwritten ⟨trivial, fun i s h => by cases h⟩
      Processor.knowledge_none) ?_) fun row k hk => ?_
  · intro w f r w' hinv hallowed henv
    cases r with
    | error e => exact ⟨none, fun i s h => (by cases h), Processor.knowledge_none⟩
    | ok row =>
      refine ⟨_, fun i s h => ?_, rfl⟩
      cases row with
      | none => cases h
      | some t =>
        dsimp only at h
        split_ifs at h
        · cases h
          obtain ⟨o, hans⟩ := henv.2
          obtain ⟨hrow, hstate⟩ := Prod.mk.inj (Option.some.inj hans)
          have ht : w.state.transaction id = some t := by
            cases hfind : w.state.transaction id with
            | none =>
              rw [hfind] at hrow
              cases hrow
            | some t' =>
              rw [hfind, Option.filter_some] at hrow
              split_ifs at hrow
              exact hrow
          rw [← hstate, Backend.status, ht]
          rfl
  · subst hk
    cases row with
    | none => exact safe_throw Processor.knowledge_none
    | some t => exact safe_pure rfl

/-- Between the check and the write. -/
lemma safe_window {op : Op} (husual : Request.Usual ⟨.request, op⟩)
    (hinvolved : Request.involved id ⟨.request, op⟩) (hop : op.writesTransactions = false) :
    Safe forwarding (call .request op) (Sees id s)
      (upon (fun _ k => k = Sees id s) fun k => k.Safe) := by
  have hlink : Linked (Sees id s) ⟨.request, op⟩ := by
    refine ⟨husual, fun i s' h _ => ?_, fun i s' h => ?_⟩
    · cases h
      exact hinvolved
    · cases op with
      | updateTransaction => cases hop
      | _ => cases h
  refine safe_known hlink ?_
  intro w f r w' hinv hallowed henv
  cases r with
  | error e => exact ⟨none, fun i s h => (by cases h), Processor.knowledge_none⟩
  | ok v =>
    refine ⟨Sees id s, fun i s' h => ?_, rfl⟩
    cases h
    rw [Backend.status, Backend.transaction, (env_frame henv).transactions hop]
    exact hinv.known id s (Multiset.mem_cons_self ..)

/-- The write of a request, after which it is done. -/
lemma safe_decide {data : TransactionData} (hdata : data.status = some s')
    (hrequest : s' = .CANCELLED ∨ s' = .FAILED)
    (h : s' = s ∨ Forward s s' ∨ s = .CANCELLED ∧ s' = .FAILED) :
    Safe forwarding (call .request (.updateTransaction id data)) (Sees id s)
      (upon (fun _ k => k.Safe) fun k => k.Safe) := by
  have hlink : Linked (Sees id s) ⟨.request, .updateTransaction id data⟩ := by
    refine ⟨?_, fun i s₁ h _ => ?_, fun i s₁ hwrites => ?_⟩
    · show data.status = some .CANCELLED ∨ data.status = some .FAILED
      rw [hdata]
      exact hrequest.imp (congrArg some) (congrArg some)
    · cases h
      exact decide_eq_true rfl
    · obtain ⟨rfl, hs₁⟩ := of_decide_eq_true hwrites
      obtain rfl := Option.some.inj (hdata.symm.trans hs₁)
      exact .inr ⟨s, rfl, h.imp_right fun h => h.imp_right fun h => ⟨rfl, h⟩⟩
  refine safe_known hlink ?_
  intro w f r w' _ _ _
  refine ⟨none, fun i s h => (by cases h), ?_⟩
  cases r with
  | ok v => exact Processor.knowledge_none
  | error e => exact Processor.knowledge_none

lemma safe_nextEventSequence : Safe forwarding (nextEventSequence id) (Sees id s)
    (upon (fun _ k => k = Sees id s) fun k => k.Safe) :=
  safe_bind (safe_window trivial (decide_eq_true rfl) rfl) fun _ _ hk => safe_pure hk

lemma safe_cancelForward : Safe forwarding (cancel owner id) none
    (upon (fun _ k => k.Safe) fun k => k.Safe) := by
  refine safe_bind (safe_findOneForward (· = .CREATED)) fun t k hk => ?_
  subst hk
  by_cases hcreated : t.status = .CREATED
  · rw [if_neg (not_not.mpr hcreated), if_pos hcreated, hcreated]
    refine safe_bind safe_nextEventSequence fun sequence k hk => ?_
    subst hk
    refine safe_bind (safe_window trivial (decide_eq_true rfl) rfl) fun _ k hk => ?_
    subst hk
    exact safe_bind (safe_decide rfl (.inl rfl) (.inr (.inl (by decide)))) fun _ _ hk => safe_pure hk
  · rw [if_pos hcreated, if_neg hcreated]
    exact safe_throw Processor.knowledge_none

lemma fail_moves (h : s ≠ .COMPLETED) :
    .FAILED = s ∨ Forward s .FAILED ∨ s = .CANCELLED ∧ TransactionStatus.FAILED = .FAILED := by
  cases s with
  | COMPLETED => exact absurd rfl h
  | FAILED => exact .inl rfl
  | CANCELLED => exact .inr (.inr ⟨rfl, rfl⟩)
  | _ => exact .inr (.inl (by decide))

lemma safe_failForward {dto : FailTransactionDto} : Safe forwarding (fail owner id dto) none
    (upon (fun _ k => k.Safe) fun k => k.Safe) := by
  refine safe_bind (safe_findOneForward (· ≠ .COMPLETED)) fun t k hk => ?_
  subst hk
  by_cases hcompleted : t.status = .COMPLETED
  · rw [if_pos hcompleted, if_neg (not_not.mpr hcompleted)]
    exact safe_throw Processor.knowledge_none
  · rw [if_neg hcompleted, if_pos hcompleted]
    refine safe_bind safe_nextEventSequence fun sequence k hk => ?_
    subst hk
    refine safe_bind (safe_window trivial (decide_eq_true rfl) rfl) fun _ k hk => ?_
    subst hk
    exact safe_bind (safe_decide rfl (.inr rfl) (fail_moves hcompleted)) fun _ _ hk => safe_pure hk

end Transactions

lemma safe_startsForward {w : World} {q : Service Unit} (h : Starts js w q) :
    Async.Safely forwarding q none := by
  have hrest : ∀ {q : Service Unit}, Safe forwarding q none
      (upon (fun _ k => k.Safe) fun k => k.Safe) → Async.Safely forwarding q none := by
    intro q hq
    refine hq.mono fun r k hk => ?_
    cases r with
    | ok a => exact hk
    | error e => exact hk
  cases h with
  | tick => exact hrest Processor.safe_tickForward
  | poller =>
    exact hrest (safe_unwritten (Processor.polling_handlePendingSettlements.mono fun _ =>
      unwritten_polling) Processor.knowledge_none)
  | create owner dto =>
    exact hrest (safe_unwritten (Transactions.creating_create.mono fun _ => unwritten_creating)
      Processor.knowledge_none)
  | cancel owner id => exact hrest Transactions.safe_cancelForward
  | fail owner id dto => exact hrest Transactions.safe_failForward

/-! ### The pipeline -/

/-- A thread that knows something that others could make wrong is involved. -/
lemma involved_next {threads : Multiset (Service Unit)} {f : Multiset Knowledge}
    (h : Multiset.Rel (Async.Safely forwarding) threads f) (hmem : some (id, s) ∈ f)
    (hs : ¬s.Terminal) : ∃ q ∈ threads, q.next.any (Request.involved id) := by
  obtain ⟨q, hq, hsafe⟩ := Multiset.exists_mem_of_rel_of_mem (Multiset.rel_flip.mpr h) hmem
  refine ⟨q, hq, ?_⟩
  cases q with
  | done r => exact absurd (hsafe id s rfl) hs
  | await c m => exact hsafe.1.involved id s rfl hs

lemma allowed_of_orderly {threads : Multiset (Service Unit)} {f : Multiset Knowledge} {c : Request}
    {w : World} {r : Except String c.Res} (hrel : Multiset.Rel (Async.Safely forwarding) threads f)
    (h : orderly threads c w r) : forwarding.allowed f c w r := by
  intro id
  refine ⟨fun hsets hbusy => ?_, (h id).begins, (h id).standing, (h id).ends⟩
  obtain ⟨s, hmem, hs⟩ := hbusy
  exact (h id).alone hsets (involved_next hrel hmem hs)

theorem forwarding_governs : Async.Governs forwarding (setting js orderly) where
  env _ _ _ _ h := h
  init w h := ⟨distinct_of_started h, fun id s hs => absurd hs (Multiset.notMem_zero _)⟩
  start w q h := ⟨none, safe_startsForward h, fun f hf => hf.cons fun i s h => by cases h⟩
  world w w' f h hf := by
    refine ⟨other_distinct h.2 hf.distinct, fun id s hs => ?_⟩
    rw [other_status h.2 hf.distinct]
    exact hf.known id s hs
  cond rest f c w r hrel h := allowed_of_orderly hrel h

/-- Every step of the pipeline moves every status forward. -/
lemma progress_of_step {s t : Async.Pool World Request Request.Res String}
    {l : Async.Label Request Request.Res String} (h : (pipeline js orderly).Reachable s)
    (hstep : (pipeline js orderly).Step s l t) (id : String) :
    Progress (statusOf id s) (statusOf id t) := by
  cases l with
  | call c r =>
    obtain ⟨m, rest, hs, hcond, henv, -⟩ := hstep
    obtain ⟨k, f, hlink, hinv, hrel⟩ := Async.ghost_of_call forwarding_governs h hs
    exact progress_of_linked hinv hlink (allowed_of_orderly hrel hcond) henv id
  | start p =>
    obtain ⟨-, hw, -⟩ := hstep
    rw [statusOf, statusOf, hw]
    exact .same _
  | world =>
    rw [statusOf, statusOf, other_status hstep.1.2 (reachable_distinct h)]
    exact .same _

/-- **Statuses move forward.** Along every orderly run the statuses of a transaction begin with
`CREATED` and follow the processor's order or go to `FAILED` or, from `CREATED`, to `CANCELLED`, and
nothing follows a final one. -/
theorem status_forward {s t : Async.Pool World Request Request.Res String}
    {tr : List (Move (Async.Pool World Request Request.Res String)
      (Async.Label Request Request.Res String))} (hinit : (pipeline js orderly).Init s)
    (h : (pipeline js orderly).Run s tr t) (id : String) :
    (∀ a ∈ (observed (statusOf id) s tr).head?, a = .CREATED) ∧
      ((observed (statusOf id) s tr).destutter (· ≠ ·)).IsChain Forward := by
  have hnone : statusOf id s = none := by
    rw [statusOf, Backend.status, Backend.transaction, hinit.1.transactions]
    rfl
  have hturn : ∀ m ∈ tr, Progress (statusOf id m.pre) (statusOf id m.post) := by
    intro m hm
    obtain ⟨hpre, hstep⟩ := h.of_mem hinit hm
    exact progress_of_step hpre hstep id
  exact ⟨h.head?_observed hnone hturn, h.isChain_observed hnone hturn⟩

end Programs

/-! ### The shop -/

lemma orderly_checkedBy : orderly.CheckedBy fun c w r =>
    (match c.op with
      | .updateTransaction i data => decide (c.source ≠ .request ∧
          (data.status = some .AUTHORIZED → w.state.status i = some .AUTHORIZED))
      | _ => true) && r.isOk := by
  intro rest hrest c w r hcheck id
  rw [Bool.and_eq_true] at hcheck
  obtain ⟨hcheck, hok⟩ := hcheck
  refine ⟨fun _ => ?_, fun _ hwrites => ?_, fun hsource hwrites => ?_, fun _ _ => hok⟩
  · rintro ⟨p, hp, hnext⟩
    rw [hrest p hp] at hnext
    cases hnext
  · obtain ⟨source, op⟩ := c
    cases op with
    | updateTransaction i data =>
      obtain ⟨rfl, hdata⟩ := of_decide_eq_true hwrites
      exact (of_decide_eq_true hcheck).2 hdata
    | _ => cases hwrites
  · obtain ⟨source, op⟩ := c
    cases op with
    | updateTransaction i data => exact absurd hsource (of_decide_eq_true hcheck).1
    | _ => cases hwrites

/-- In the shop the order is processed to the end, with the reward issued on chain. -/
theorem status_forward_of_order : ∃ s t tr, (pipeline OneOrder.js orderly).Init s ∧
    (pipeline OneOrder.js orderly).Run s tr t ∧ statusOf OneOrder.orderId t = some .COMPLETED ∧
    (∀ a ∈ (observed (statusOf OneOrder.orderId) s tr).head?, a = .CREATED) ∧
    ((observed (statusOf OneOrder.orderId) s tr).destutter (· ≠ ·)).IsChain Forward := by
  have hordered : Idle OneOrder.js orderly (OneOrder.ordered OneOrder.order) :=
    OneOrder.ordered_idle orderly_checkedBy (by decide +kernel) (by decide +kernel)
  obtain ⟨threads, hdone, hreach⟩ :=
    OneOrder.processing_reachable (n := 41) hordered orderly_checkedBy (by decide +kernel)
  obtain ⟨s, tr, hinit, hrun⟩ := OneOrder.completing_reachable orderly_checkedBy hdone hreach
    (by decide +kernel) (by decide +kernel)
  have hcompleted :
      (OneOrder.completing OneOrder.order).2.state.status OneOrder.orderId = some .COMPLETED := by
    decide +kernel
  exact ⟨s, _, tr, hinit, hrun, hcompleted, status_forward hinit hrun OneOrder.orderId⟩

/-- A tick that overtakes a cancellation takes the row from `CANCELLED` back to `AUTHORIZED`. -/
theorem cancelled_order_authorized : ∃ s t tr, (pipeline OneOrder.js anyAnswer).Reachable s ∧
    (pipeline OneOrder.js anyAnswer).Run s tr t ∧ statusOf OneOrder.orderId s = some .CANCELLED ∧
    statusOf OneOrder.orderId t = some .AUTHORIZED := by
  obtain ⟨threads, tr, -, hreach, hrun⟩ := OneOrder.proceeding_run 1
  have hcancelled : OneOrder.overtaken.2.state.status OneOrder.orderId = some .CANCELLED := by
    decide +kernel
  have hauthorized : (OneOrder.proceeding 1).2.state.status OneOrder.orderId = some .AUTHORIZED := by
    decide +kernel
  exact ⟨_, _, tr, hreach, hrun, hcancelled, hauthorized⟩

end PayEra.Api
