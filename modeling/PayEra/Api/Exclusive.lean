import PayEra.Api.Sessions

/-!
# Who gets a claimed transaction

A tick claims rows with one statement and fetches with another, which returns whatever has been
authorized in the last six seconds. So a tick that has claimed anything also gets the rows that an
earlier tick has claimed and is about to process. If every tick gets its own rows only, no
transaction is handed to two ticks.

The ghost state of a session is the list of transactions that it has fetched.
-/

namespace PayEra.Api

open Async (Program Event Safe Discipline upon safe_pure safe_bind safe_perform safe_forM)
open Async.Program

/-! ### Claims and fetches -/

/-- The claim of the session `n` took effect on the transaction `id`. -/
def claims (n : ℕ) (id : String) (e : Async.Effect Backend Request) : Bool :=
  match e.op.op with
  | .claimTransactions time _ =>
    decide (e.session = n) && (e.found.transaction id).any (Backend.claimable time)
  | _ => false

def Claimed (n : ℕ) (id : String) (w : Office) : Prop := ∃ e ∈ w.effects, claims n id e

/-- The session `n` was given the transaction `id` when it fetched. -/
def fetches (n : ℕ) (id : String) : Async.Entry Asked Request Request.Res String Unit → Bool
  | ⟨.call m ⟨_, .findAuthorized _⟩, .ok rows⟩ =>
    decide (m = n) && (rows : List Transaction).any (·.id = id)
  | _ => false

def Fetched (n : ℕ) (id : String) (w : Office) : Prop := ∃ e ∈ w.entries, fetches n id e

/-- A call of the session `n` for its run of the transaction `id`. -/
def runs (n : ℕ) (id : String) (e : Happening) : Bool :=
  match e with
  | .call m c => decide (m = n ∧ c.source = .run id)
  | _ => false

def Ran (n : ℕ) (id : String) (w : Office) : Prop := ∃ e ∈ w.entries, runs n id e.1

instance (n : ℕ) (id : String) (w : Office) : Decidable (Claimed n id w) :=
  inferInstanceAs (Decidable (∃ e ∈ w.effects, _))

instance (n : ℕ) (id : String) (w : Office) : Decidable (Fetched n id w) :=
  inferInstanceAs (Decidable (∃ e ∈ w.entries, _))

instance (n : ℕ) (id : String) (w : Office) : Decidable (Ran n id w) :=
  inferInstanceAs (Decidable (∃ e ∈ w.entries, _))

/-- The tick `n` has handed the transaction to `processTransactionWithRetry`. -/
def HandedOver (n : ℕ) (id : String) (s : OfficeState) : Prop :=
  Ran n id s.world ∨ ∃ p ∈ s.threads, p.next.any (runs n id)

/-- The rows that a fetch looks for. -/
def Backend.authorizedSince (since : ℕ) (b : Backend) : List Transaction :=
  b.transactions.filter fun t => t.status = .AUTHORIZED ∧ t.authorizedAt.any (since ≤ ·)

/-- The rows that a fetch returns. -/
def Backend.recent (since : ℕ) (b : Backend) : List Transaction := (b.authorizedSince since).take 10

/-- Whenever a tick fetches, the rows that it finds are rows that it has claimed itself. -/
def ownRows : OfficeCondition := fun _ e w _ => match e with
  | .call n ⟨_, .findAuthorized since⟩ => ∀ t ∈ w.state.recent since, Claimed n t.id w
  | _ => True

section Steps

variable {lossless : Request → Prop} {e : Happening} {w w' : Office}
  {r : Except String (Happening.Res e)} {n m : ℕ} {id : String}

lemma fetched_happens (h : Async.happens Returns Total lossless e w r w') :
    Fetched n id w' ↔ Fetched n id w ∨ fetches n id ⟨e, r⟩ := by
  simp only [Fetched, Async.happens_entries h, List.mem_append, List.mem_singleton, or_and_right,
    exists_or, exists_eq_left]

lemma ran_happens (h : Async.happens Returns Total lossless e w r w') :
    Ran n id w' ↔ Ran n id w ∨ runs n id e := by
  simp only [Ran, Async.happens_entries h, List.mem_append, List.mem_singleton, or_and_right,
    exists_or, exists_eq_left]

lemma claimed_mono (h : Async.happens Returns Total lossless e w r w') (hw : Claimed n id w) :
    Claimed n id w' := by
  obtain ⟨e, he, hclaims⟩ := hw
  exact ⟨e, Async.happens_effects h he, hclaims⟩

/-- A new claim is one of a row that was `CREATED` and is `AUTHORIZED` now. -/
lemma claimed_happens (h : Async.happens Returns Total lossless e w r w') (hw : Claimed m id w') :
    Claimed m id w ∨ ∃ c time at', e = .call m c ∧ c.op = .claimTransactions time at' ∧
      (w.state.transaction id).any (Backend.claimable time) ∧
      w.state.status id = some .CREATED ∧ w'.state.status id = some .AUTHORIZED := by
  obtain ⟨x, hx, hclaims⟩ := hw
  cases e with
  | begin n q =>
    obtain ⟨-, -, rfl⟩ := h
    exact .inl ⟨x, hx, hclaims⟩
  | finish n a =>
    obtain ⟨-, rfl⟩ := h
    exact .inl ⟨x, hx, hclaims⟩
  | call n c =>
    rcases Async.happens_call h with ⟨-, heq⟩ | ⟨⟨v, o, hans⟩, heq⟩
    · rw [heq] at hx
      exact .inl ⟨x, hx, hclaims⟩
    · rw [heq] at hx
      rcases List.mem_append.mp hx with hx | hx
      · exact .inl ⟨x, hx, hclaims⟩
      · obtain rfl := List.mem_singleton.mp hx
        obtain ⟨source, op⟩ := c
        cases op with
        | claimTransactions time authorizedAt =>
          rw [claims, Bool.and_eq_true] at hclaims
          obtain ⟨hn, hany⟩ := hclaims
          obtain rfl : n = m := of_decide_eq_true hn
          obtain ⟨t, ht, htime⟩ := (Option.any_eq_true _ _).mp hany
          have hrow : w'.state.transaction id = _ := answer_row hans
          refine .inr ⟨_, time, authorizedAt, rfl, rfl, hany, ?_, ?_⟩
          · rw [Backend.status, ht, Option.map_some, (of_decide_eq_true htime).1]
          · rw [Backend.status, hrow, ht, Op.row, Option.map_some, if_pos htime]
            rfl
        | _ => cases hclaims

end Steps

/-! ### The discipline -/

/-- The ghost state of a session: its number and what it has fetched. -/
abbrev Share := Option (ℕ × List String)

structure Shared (w : Office) (f : Multiset Share) : Prop where
  distinct : w.state.Distinct
  gone : ∀ n id, Claimed n id w → ∃ s, w.state.status id = some s ∧ s ≠ .CREATED
  once : ∀ n m id, Claimed n id w → Claimed m id w → n = m
  own : ∀ n id, Fetched n id w → Claimed n id w
  held : ∀ n ids, some (n, ids) ∈ f → ∀ id ∈ ids, Fetched n id w
  ran : ∀ n id, Ran n id w → Fetched n id w

def sharing (lossless : Request → Prop) : Discipline Office Happening (Event.Res Request.Res) String
    Share where
  env := Async.happens Returns Total lossless
  inv := Shared
  link ℓ e := ∀ n c, e = .call n c →
    c.Usual ∧ ∀ id, c.source = .run id → ∃ ids, ℓ = some (n, ids) ∧ id ∈ ids
  allowed _ e w r := ownRows 0 e w r
  halt _ := True

section Events

variable {lossless : Request → Prop} {e : Happening} {w w' : Office}
  {r : Except String (Happening.Res e)} {ℓ : Share} {f : Multiset Share}

/-- A row that was fetched just now is one of the rows that were found. -/
lemma recent_of_fetches {n : ℕ} {id : String} (h : Async.happens Returns Total lossless e w r w')
    (hfetches : fetches n id ⟨e, r⟩) : ∃ source since, e = .call n ⟨source, .findAuthorized since⟩ ∧
      ∃ t ∈ w.state.recent since, t.id = id := by
  cases e with
  | call m c =>
    obtain ⟨source, op⟩ := c
    cases op with
    | findAuthorized since =>
      cases r with
      | ok rows =>
        rw [fetches, Bool.and_eq_true] at hfetches
        obtain ⟨hm, hany⟩ := hfetches
        obtain ⟨t, ht, htid⟩ := List.any_eq_true.mp hany
        obtain ⟨-, hrows⟩ := fetched_rows h.2.1
        rw [hrows] at ht
        exact ⟨source, since, by rw [of_decide_eq_true hm], t, ht, of_decide_eq_true htid⟩
      | error e => cases hfetches
    | _ => cases hfetches
  | begin | finish => cases hfetches

/-- Every event of a session that holds what it runs keeps the invariant. -/
theorem Shared.happens (h : Shared w (ℓ ::ₘ f)) (hlink : (sharing lossless).link ℓ e)
    (hown : ownRows 0 e w r) (hhappens : Async.happens Returns Total lossless e w r w') :
    Shared w' (ℓ ::ₘ f) := by
  have hstatus : ∀ id, (∃ s, w.state.status id = some s ∧ s ≠ .CREATED) →
      ∃ s, w'.state.status id = some s ∧ s ≠ .CREATED := by
    intro id hid
    cases e with
    | call n c => exact (evolves_happens hhappens).not_created (hlink n c rfl).1 hid
    | begin | finish => rwa [(happens_still hhappens fun _ _ h => by cases h).1]
  have hdistinct : w'.state.Distinct := by
    cases e with
    | call n c => exact (evolves_happens hhappens).distinct h.distinct
    | begin | finish =>
      rw [(happens_still hhappens fun _ _ h => by cases h).1]
      exact h.distinct
  have hgone : ∀ n id, Claimed n id w → w.state.status id ≠ some .CREATED := by
    intro n id hid hcreated
    obtain ⟨s, hs, hne⟩ := h.gone n id hid
    exact hne (Option.some.inj (hs.symm.trans hcreated))
  have hfetched : ∀ n id, Fetched n id w → Fetched n id w' := fun n id hid =>
    (fetched_happens hhappens).mpr (.inl hid)
  refine ⟨hdistinct, fun n id hid => ?_, fun n m id hn hm => ?_, fun n id hid => ?_,
    fun n ids hids id hid => hfetched n id (h.held n ids hids id hid), fun n id hid => ?_⟩
  · rcases claimed_happens hhappens hid with hid | ⟨c, time, at', -, -, -, -, hauthorized⟩
    · exact hstatus id (h.gone n id hid)
    · exact ⟨_, hauthorized, by simp⟩
  · rcases claimed_happens hhappens hn with hn | ⟨c, _, _, hc, -, -, hcreated, -⟩
    · rcases claimed_happens hhappens hm with hm | ⟨_, _, _, -, -, -, hcreated, -⟩
      · exact h.once n m id hn hm
      · exact absurd hcreated (hgone n id hn)
    · rcases claimed_happens hhappens hm with hm | ⟨c', _, _, hc', -⟩
      · exact absurd hcreated (hgone m id hm)
      · cases hc.symm.trans hc'
        rfl
  · apply claimed_mono hhappens
    rcases (fetched_happens hhappens).mp hid with hid | hfetches
    · exact h.own n id hid
    · obtain ⟨source, since, rfl, t, ht, rfl⟩ := recent_of_fetches hhappens hfetches
      exact hown t ht
  · apply hfetched
    rcases (ran_happens hhappens).mp hid with hid | hruns
    · exact h.ran n id hid
    · cases e with
      | call m c =>
        obtain ⟨rfl, hsource⟩ := of_decide_eq_true hruns
        obtain ⟨ids, rfl, hmem⟩ := (hlink m c rfl).2 id hsource
        exact h.held m ids (Multiset.mem_cons_self ..) id hmem
      | begin | finish => cases hruns

end Events

/-! ### Safe programs -/

section Programs

variable {α : Type} {js : Js} {lossless : Request → Prop} {n : ℕ} {ℓ : Share} {p : Service α}

/-- Calls that the ghost state allows. -/
lemma safe_shared (hp : p.All fun c => c.Usual ∧ ∀ id, c.source = .run id →
    ∃ ids, ℓ = some (n, ids) ∧ id ∈ ids) {Q : Except String α → Share → Prop} (hQ : ∀ r, Q r ℓ) :
    Safe ((sharing lossless).at n) p ℓ Q := by
  apply Safe.of_all hp hQ
  intro c hc
  have hlink : (sharing lossless).link ℓ (.call n c) := by
    intro m d heq
    cases heq
    exact hc
  exact ⟨hlink, fun w f r w' hinv hown henv => hinv.happens hlink hown henv⟩

/-- Calls that are not made for a run. -/
lemma safe_bystanding (hp : p.All Request.Usual) (hsource : p.All fun c => ∀ id, c.source ≠ .run id)
    {Q : Except String α → Share → Prop} (hQ : ∀ r, Q r ℓ) :
    Safe ((sharing lossless).at n) p ℓ Q := by
  apply safe_shared _ hQ
  exact (hp.and hsource).mono fun c hc => ⟨hc.1, fun id hid => absurd hid (hc.2 id)⟩

lemma all_source {source : Source} {P : Op → Prop} (hsource : ∀ id, source ≠ .run id)
    (hp : p.All (Request.By source P)) : p.All fun c => ∀ id, c.source ≠ .run id :=
  hp.mono fun _ hc id hid => hsource id (hc.1.symm.trans hid)

/-- What a tick has fetched is its share. -/
lemma safe_share {since : ℕ} : Safe ((sharing lossless).at n) (call .tick (.findAuthorized since))
    none (upon (fun rows ℓ => ℓ = some (n, (rows : List Transaction).map (·.id))) fun _ => True) := by
  have hlink : (sharing lossless).link none (.call n ⟨.tick, .findAuthorized since⟩) := by
    intro m d heq
    cases heq
    exact ⟨trivial, fun id hid => by cases hid⟩
  apply safe_perform hlink
  intro w f r w' hinv hown henv
  have hinv' : Shared w' (none ::ₘ f) := hinv.happens hlink hown henv
  cases r with
  | error e => exact ⟨none, hinv', trivial⟩
  | ok rows =>
    have hhappens : Async.happens Returns Total lossless
      (.call n ⟨.tick, .findAuthorized since⟩) w (.ok rows) w' := henv
    refine ⟨some (n, List.map Transaction.id rows), ⟨hinv'.distinct, hinv'.gone, hinv'.once,
      hinv'.own, fun m ids hids id hid => ?_, hinv'.ran⟩, rfl⟩
    rcases Multiset.mem_cons.mp hids with heq | hids
    · cases heq
      obtain ⟨t, ht, rfl⟩ := List.mem_map.mp hid
      apply (fetched_happens hhappens).mpr
      right
      rw [fetches, Bool.and_eq_true]
      exact ⟨decide_eq_true rfl, List.any_eq_true.mpr ⟨t, ht, decide_eq_true rfl⟩⟩
    · exact hinv'.held m ids (Multiset.mem_cons_of_mem hids) id hid

namespace Processor

lemma safe_tickSharing : Safe ((sharing lossless).at n) (handlePendingTransactions js) none
    fun _ _ => True := by
  have hcall : ∀ {op : Op}, op.ticking → Safe ((sharing lossless).at n) (call .tick op) none
      (upon (fun _ ℓ => ℓ = none) fun _ => True) := by
    intro op hop
    apply safe_bystanding (usual_ticking hop) (all_perform fun id hid => by cases hid)
    intro r
    cases r with
    | ok v => rfl
    | error e => trivial
  have hrun {rows : List Transaction} {ℓ : Option (ℕ × List String)} (tx : Transaction) (htx : tx ∈ rows)
      (hℓ : ℓ = some (n, rows.map (·.id))) :
      Safe ((sharing lossless).at n) (processTransactionWithRetry js tx) ℓ
        (upon (fun _ ℓ => ℓ = some (n, rows.map (·.id))) fun _ => True) := by
    apply safe_shared
    · have hrun : (processTransactionWithRetry js tx).All (Running tx.id) := running_retryFrom
      refine ((usual_run hrun).and hrun).mono fun c hc => ⟨hc.1, fun id hid => ?_⟩
      obtain rfl : tx.id = id := Source.run.inj (hc.2.1.symm.trans hid)
      exact ⟨_, hℓ, List.mem_map_of_mem htx⟩
    · intro r
      cases r with
      | ok v => exact hℓ
      | error e => trivial
  have htick := safe_ticks js (D := (sharing lossless).at n) (I := fun ℓ => ℓ = none)
    (E := fun _ => True) (R := fun rows ℓ => ℓ = some (n, rows.map (·.id)))
    (fun hop hℓ => hℓ ▸ hcall hop) (fun hℓ => hℓ ▸ safe_share) hrun rfl
  exact htick.mono fun _ _ _ => trivial

end Processor

lemma safe_asked (q : Asked) : Safe ((sharing lossless).at n) (q.program js) none
    fun _ _ => True := by
  have hrequest : ∀ {p : Service Unit}, p.All Requested →
      Safe ((sharing lossless).at n) p none fun _ _ => True := by
    intro p hp
    exact safe_bystanding (usual_requested hp) (all_source (fun id h => by cases h) hp)
      fun _ => trivial
  cases q with
  | tick => exact Processor.safe_tickSharing
  | poller =>
    have hp : (Processor.handlePendingSettlements js).All Polling :=
      Processor.polling_handlePendingSettlements
    exact safe_bystanding (usual_polling hp) (all_source (fun id h => by cases h) hp)
      fun _ => trivial
  | create owner dto => exact hrequest Transactions.requested_create
  | cancel owner id => exact hrequest Transactions.requested_cancel
  | fail owner id dto => exact hrequest Transactions.requested_fail

end Programs

/-! ### The office -/

section Office

variable {js : Js} {lossless : Request → Prop}

theorem sharing_governs :
    Async.Governs (sharing lossless) (staffing js lossless ownRows) where
  env _ _ _ _ h := h
  init w h := by
    obtain ⟨hempty, hentries, heffects⟩ := h
    have hclaimed : ∀ n id, ¬Claimed n id w := by
      rintro n id ⟨e, he, -⟩
      rw [heffects] at he
      cases he
    have hfetched : ∀ n id, ¬Fetched n id w := by
      rintro n id ⟨e, he, -⟩
      rw [hentries] at he
      cases he
    refine ⟨?_, fun n id h => absurd h (hclaimed n id), fun n _ id h => absurd h (hclaimed n id),
      fun n id h => absurd h (hfetched n id), fun n ids h => absurd h (Multiset.notMem_zero _), ?_⟩
    · rw [Backend.Distinct, hempty.transactions]
      exact List.nodup_nil
    · rintro n id ⟨e, he, -⟩
      rw [hentries] at he
      cases he
  start w p h := by
    obtain ⟨n, q, rfl⟩ := h
    have hevent : ∀ {e : Happening}, (∀ n c, e ≠ .call n c) → (sharing lossless).link none e :=
      fun he m c heq => absurd heq (he m c)
    refine ⟨none, Async.safe_session (hevent (by simp)) fun w f r w' hinv hown henv => ?_,
      fun f hf => ⟨hf.distinct, hf.gone, hf.once, hf.own, fun m ids hids => ?_, hf.ran⟩⟩
    · refine ⟨none, hinv.happens (e := .begin n q) (hevent (by simp)) hown henv,
        (safe_asked q).mono fun a ℓ _ => ?_⟩
      have hlink : (sharing lossless).link ℓ (.finish n a) := fun m c heq => by cases heq
      exact ⟨hlink, fun w f r w' hinv hown henv => ⟨ℓ, hinv.happens hlink hown henv, trivial⟩⟩
    · rcases Multiset.mem_cons.mp hids with heq | hids
      · cases heq
      · exact hf.held m ids hids
  world w w' f h hf := by
    obtain ⟨hentries, heffects, hother⟩ := h
    have hstatus : ∀ id, w'.state.status id = w.state.status id := fun id =>
      other_status hother hf.distinct
    have hclaimed : ∀ n id, Claimed n id w' ↔ Claimed n id w := fun n id => by
      rw [Claimed, Claimed, heffects]
    have hfetched : ∀ n id, Fetched n id w' ↔ Fetched n id w := fun n id => by
      rw [Fetched, Fetched, hentries]
    have hran : ∀ n id, Ran n id w' ↔ Ran n id w := fun n id => by rw [Ran, Ran, hentries]
    refine ⟨other_distinct hother hf.distinct, ?_, ?_, ?_, ?_, ?_⟩
    · simpa only [hclaimed, hstatus] using hf.gone
    · simpa only [hclaimed] using hf.once
    · simpa only [hclaimed, hfetched] using hf.own
    · simpa only [hfetched] using hf.held
    · simpa only [hran, hfetched] using hf.ran
  cond _ _ _ _ _ _ h := h

/-- What is handed over was claimed by the tick that it is handed to. -/
lemma claimed_of_handedOver {s : OfficeState} (h : (office js lossless ownRows).Reachable s) {n : ℕ}
    {id : String} (hn : HandedOver n id s) : Claimed n id s.world := by
  obtain ⟨f, hrel, hinv⟩ := Async.reachable_sound sharing_governs h
  apply hinv.own
  rcases hn with hran | ⟨p, hp, hruns⟩
  · exact hinv.ran n id hran
  · obtain ⟨ℓ, hℓ, hsafe⟩ := Multiset.exists_mem_of_rel_of_mem hrel hp
    cases p with
    | done r => cases hruns
    | await e k =>
      cases e with
      | call m c =>
        obtain ⟨rfl, hsource⟩ := of_decide_eq_true hruns
        obtain ⟨ids, rfl, hmem⟩ := (hsafe.1 m c rfl).2 id hsource
        exact hinv.held m ids hℓ id hmem
      | begin | finish => cases hruns

/-- **A claim is exclusive** in every run in which the ticks find no rows but their own: no
transaction is handed to `processTransactionWithRetry` by two ticks. -/
theorem claim_exclusive {s : OfficeState} (h : (office js lossless ownRows).Reachable s) {n m : ℕ}
    {id : String} (hn : HandedOver n id s) (hm : HandedOver m id s) : n = m := by
  obtain ⟨f, -, hinv⟩ := Async.reachable_sound sharing_governs h
  exact hinv.once n m id (claimed_of_handedOver h hn) (claimed_of_handedOver h hm)

end Office

/-! ### The shop -/

lemma ownRows_checkedBy (threads : Multiset InProgress) : ownRows.CheckedBy threads fun e w _ =>
    Async.unused e w && match e with
      | .call n ⟨_, .findAuthorized since⟩ => decide (∀ t ∈ w.state.recent since, Claimed n t.id w)
      | _ => true := by
  intro e w r h
  rw [Bool.and_eq_true] at h
  refine ⟨h.1, ?_⟩
  cases e with
  | call n c =>
    obtain ⟨source, op⟩ := c
    cases op with
    | findAuthorized since =>
      have hclaimed : ∀ t ∈ w.state.recent since, Claimed n t.id w := of_decide_eq_true h.2
      exact hclaimed
    | _ => trivial
  | begin | finish => trivial

namespace OneOrder

/-- A tick claims the order and fetches it. -/
def firstTick : InProgress × Office := attended 1 .tick 6 orderedOffice.2

/-- The customer orders once more. -/
def reorderedOffice : InProgress × Office :=
  attended 2 (.create customer order) 14 firstTick.2

/-- While the first tick is still at work, the next one claims the second order. -/
def secondTick : InProgress × Office := attended 3 .tick 6 reorderedOffice.2

end OneOrder

/-- In the shop a tick that runs alone gets its own order. -/
theorem claim_exclusive_of_tick : ∃ s, (office OneOrder.js (fun _ => False) ownRows).Reachable s ∧
    HandedOver 1 OneOrder.orderId s ∧ ∀ m, HandedOver m OneOrder.orderId s → m = 1 := by
  have hordered : (office OneOrder.js (fun _ => False) ownRows).Reachable
      ⟨OneOrder.orderedOffice.2, OneOrder.orderedOffice.1 ::ₘ 0⟩ :=
    OneOrder.attended_reachable OneOrder.openedOffice_reachable (ownRows_checkedBy 0) (by decide +kernel)
  have htick : (office OneOrder.js (fun _ => False) ownRows).Reachable
      ⟨OneOrder.firstTick.2, OneOrder.firstTick.1 ::ₘ OneOrder.orderedOffice.1 ::ₘ 0⟩ :=
    OneOrder.attended_reachable hordered (ownRows_checkedBy _) (by decide +kernel)
  have hnext : OneOrder.firstTick.1.next.any (runs 1 OneOrder.orderId) := by decide +kernel
  have hfirst : HandedOver 1 OneOrder.orderId
      ⟨OneOrder.firstTick.2, OneOrder.firstTick.1 ::ₘ OneOrder.orderedOffice.1 ::ₘ 0⟩ :=
    .inr ⟨OneOrder.firstTick.1, by simp, hnext⟩
  exact ⟨_, htick, hfirst, fun m hm => claim_exclusive htick hm hfirst⟩

/-- Within six seconds two ticks claim one order each. The second one fetches both, so that the first
order is handed to both ticks. -/
theorem order_handed_over_twice : ∃ s,
    (office OneOrder.js (fun _ => False) anyHappening).Reachable s ∧
    HandedOver 1 OneOrder.orderId s ∧ HandedOver 3 OneOrder.orderId s := by
  have hordered : (office OneOrder.js (fun _ => False) anyHappening).Reachable
      ⟨OneOrder.orderedOffice.2, OneOrder.orderedOffice.1 ::ₘ 0⟩ :=
    OneOrder.attended_reachable OneOrder.openedOffice_reachable (anyHappening_checkedBy 0)
      (by decide +kernel)
  have hfirst : (office OneOrder.js (fun _ => False) anyHappening).Reachable
      ⟨OneOrder.firstTick.2, OneOrder.firstTick.1 ::ₘ OneOrder.orderedOffice.1 ::ₘ 0⟩ :=
    OneOrder.attended_reachable hordered (anyHappening_checkedBy _) (by decide +kernel)
  have hreordered : (office OneOrder.js (fun _ => False) anyHappening).Reachable
      ⟨OneOrder.reorderedOffice.2,
        OneOrder.reorderedOffice.1 ::ₘ OneOrder.firstTick.1 ::ₘ OneOrder.orderedOffice.1 ::ₘ 0⟩ :=
    OneOrder.attended_reachable hfirst (anyHappening_checkedBy _) (by decide +kernel)
  have hsecond : (office OneOrder.js (fun _ => False) anyHappening).Reachable
      ⟨OneOrder.secondTick.2, OneOrder.secondTick.1 ::ₘ
        OneOrder.reorderedOffice.1 ::ₘ OneOrder.firstTick.1 ::ₘ OneOrder.orderedOffice.1 ::ₘ 0⟩ :=
    OneOrder.attended_reachable hreordered (anyHappening_checkedBy _) (by decide +kernel)
  have hnext : OneOrder.firstTick.1.next.any (runs 1 OneOrder.orderId) ∧
      OneOrder.secondTick.1.next.any (runs 3 OneOrder.orderId) := by decide +kernel
  refine ⟨_, hsecond, .inr ⟨OneOrder.firstTick.1, ?_, hnext.1⟩, .inr ⟨OneOrder.secondTick.1, ?_, hnext.2⟩⟩
  · simp
  · simp

end PayEra.Api
