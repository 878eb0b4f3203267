import PayEra.Api.Stranded
import PayEra.Api.Forward

/-!
# What a run leaves behind

Once a run of a transaction has begun, the transaction is decided, or a run of it is in progress:
whatever fails in an attempt, its `catch` block and the attempts after it go on, and the last of
them gives up. Other sessions write final statuses only, or claim rows that no run has seen. This
takes that the write of giving up does not fail.

The ghost state of a session is what it owes: the decision of the transaction that it is running,
from its first write on until it has written a final status.
-/

namespace PayEra.Api

open Async (Program Event Safe Discipline upon safe_pure safe_bind safe_attempt safe_perform)
open Async.Program

/-! ### Decided transactions -/

/-- The transaction has a final status. -/
def Backend.Decided (id : String) (b : Backend) : Prop := ∃ s, b.status id = some s ∧ s.Terminal

/-- A session is about to make a call of a run of the transaction. -/
def InHand (id : String) (s : OfficeState) : Prop := ∃ n, ∃ p ∈ s.threads, p.next.any (runs n id)

/-- No run fails to write that it gives up. -/
def resolute : OfficeCondition := fun _ e _ r => match e with
  | .call _ c => c.givesUp → r.isOk
  | _ => True

/-! ### The discipline -/

inductive Debt where
  | free
  | owing (id : String)
  | paid (id : String)

/-- The session owes nothing but the decision of this transaction. -/
def Debt.For (id : String) (d : Debt) : Prop := ∀ i, d = .owing i → i = id

/-- The session owes nothing. -/
def Debt.Clear (d : Debt) : Prop := ∀ i, d ≠ .owing i

lemma Debt.Clear.for {d : Debt} {id : String} (h : d.Clear) : d.For id :=
  fun i hi => absurd hi (h i)

lemma Debt.for_owing {id : String} : (Debt.owing id).For id := by
  intro i hi
  cases hi
  rfl

lemma Debt.clear_paid {id : String} : (Debt.paid id).Clear := fun _ h => by cases h

/-- Everything that was run is decided or owed. -/
structure Debts (w : Office) (f : Multiset Debt) : Prop where
  distinct : w.state.Distinct
  met : ∀ id, (∃ n, Ran n id w) ∨ .paid id ∈ f → w.state.Decided id ∨ .owing id ∈ f

def deciding (lossless : Request → Prop) :
    Discipline Office Happening (Event.Res Request.Res) String Debt where
  env := Async.happens Returns Total lossless
  inv := Debts
  link d e := (∀ n c, e = .call n c → c.Usual) ∧
    ∀ id, d = .owing id → ∃ n, runs n id e
  allowed _ e w r := resolute 0 e w r
  halt d := d.Clear

section Events

variable {lossless : Request → Prop} {n : ℕ} {c : Request} {w w' : Office} {id : String}
  {d d' : Debt} {f : Multiset Debt}

/-- A decided transaction stays so, but for its own runs. -/
lemma Backend.Decided.evolves {b b' : Backend} (h : b.Decided id) (hc : c.Usual)
    (hown : ∀ data s, c = ⟨.run id, .updateTransaction id data⟩ → data.status = some s → s.Terminal)
    (hevolves : Evolves c b b') : b'.Decided id := by
  obtain ⟨s, hs, hterminal⟩ := h
  rcases hevolves.status hc id with heq | hchange
  · exact ⟨s, heq.trans hs, hterminal⟩
  · rw [hs] at hchange
    generalize hs' : b'.status id = s' at hchange
    cases hchange with
    | claim => exact absurd hterminal (by decide)
    | run heq hdata => exact ⟨_, hs', hown _ _ heq hdata⟩
    | request heq hdata =>
      subst heq
      rcases hc with hdata' | hdata'
      · obtain rfl := Option.some.inj (hdata.symm.trans hdata')
        exact ⟨_, hs', by decide⟩
      · obtain rfl := Option.some.inj (hdata.symm.trans hdata')
        exact ⟨_, hs', by decide⟩

/-- What is not a call of a run leaves all debts. -/
lemma Debts.aside {e : Happening} {r : Except String (Happening.Res e)} (h : Debts w f)
    (husual : ∀ n c, e = .call n c → c.Usual) (hrun : ∀ n id, ¬runs n id e)
    (hhappens : Async.happens Returns Total lossless e w r w') : Debts w' f := by
  have hdecided : ∀ id, w.state.Decided id → w'.state.Decided id := by
    intro id hid
    cases e with
    | call n c =>
      refine hid.evolves (husual n c rfl) (fun data s heq _ => ?_) (evolves_happens hhappens)
      subst heq
      exact absurd (decide_eq_true ⟨rfl, rfl⟩) (hrun n id)
    | begin | finish => rwa [(happens_still hhappens fun _ _ h => by cases h).1]
  constructor
  · cases e with
    | call n c => exact (evolves_happens hhappens).distinct h.distinct
    | begin | finish =>
      rw [(happens_still hhappens fun _ _ h => by cases h).1]
      exact h.distinct
  · rintro id hid
    refine (h.met id (hid.imp_left ?_)).imp_left (hdecided id)
    rintro ⟨n, hran⟩
    exact ⟨n, ((ran_happens hhappens).mp hran).resolve_right (hrun n id)⟩

/-- After a call of a run its session owes the decision, or it is made. -/
lemma Debts.run {r : Except String c.Res} (h : Debts w (d ::ₘ f)) (hc : Running id c)
    (hd : d.For id) (hd' : d' = .owing id ∨ d' = .paid id)
    (hhappens : Async.happens Returns Total lossless (.call n c) w r w')
    (hmet : w'.state.Decided id ∨ .owing id ∈ d' ::ₘ f) : Debts w' (d' ::ₘ f) := by
  have husual : c.Usual := by
    rw [Request.Usual, hc.1]
    exact hc.2
  refine ⟨(evolves_happens hhappens).distinct h.distinct, fun i hi => ?_⟩
  by_cases hid : i = id
  · rw [hid]
    exact hmet
  have hd'' : d' ≠ .paid i := by
    rcases hd' with rfl | rfl
    · exact fun heq => by cases heq
    · exact fun heq => hid (Debt.paid.inj heq).symm
  have hold : (∃ n, Ran n i w) ∨ .paid i ∈ d ::ₘ f := by
    rcases hi with ⟨m, hran⟩ | hpaid
    · refine .inl ⟨m, ((ran_happens hhappens).mp hran).resolve_right fun hruns => ?_⟩
      obtain ⟨-, hsource⟩ := of_decide_eq_true hruns
      exact hid (Source.run.inj (hsource.symm.trans hc.1))
    · exact .inr (Multiset.mem_cons_of_mem ((Multiset.mem_cons.mp hpaid).resolve_left hd''.symm))
  rcases h.met i hold with hdecided | howing
  · refine .inl (hdecided.evolves husual (fun data s heq _ => ?_) (evolves_happens hhappens))
    subst heq
    exact absurd (Source.run.inj hc.1) hid
  · right
    rcases Multiset.mem_cons.mp howing with heq | howing
    · exact absurd (hd i heq.symm) hid
    · exact Multiset.mem_cons_of_mem howing

end Events

/-! ### Safe programs -/

section Programs

variable {α : Type} {js : Js} {lossless : Request → Prop} {n : ℕ} {d : Debt} {p : Service α}
  {id : String}

lemma linked_run {c : Request} (hc : Running id c) (hd : d.For id) :
    ((deciding lossless).at n).link d c := by
  refine ⟨fun m b heq => ?_, fun i hi => ⟨n, decide_eq_true ⟨rfl, ?_⟩⟩⟩
  · cases heq
    rw [Request.Usual, hc.1]
    exact hc.2
  · rw [hd i hi]
    exact hc.1

/-- A session may owe as long as it is running. -/
lemma safe_owing (hp : p.All (Running id)) (hd : d.For id) :
    Safe ((deciding lossless).at n) p d (upon (fun _ => Debt.For id) (Debt.For id)) := by
  induction p generalizing d with
  | done r =>
    cases r with
    | ok v => exact hd
    | error e => exact hd
  | await c k ih =>
    refine ⟨linked_run hp.1 hd, fun w f r w' hinv _ hhappens => ⟨.owing id, ?_, ?_⟩⟩
    · exact hinv.run hp.1 hd (.inl rfl) hhappens (.inr (Multiset.mem_cons_self ..))
    · exact ih r (hp.2 r) Debt.for_owing

/-- A debt that is paid stays paid as long as the status is not written. -/
lemma safe_paid (hp : p.All (Still id)) : Safe ((deciding lossless).at n) p (.paid id)
    (upon (fun _ d => d = .paid id) (Debt.For id)) := by
  apply Safe.of_all hp
  · intro r
    cases r with
    | ok v => rfl
    | error e => exact Debt.clear_paid.for
  intro c hc
  have hrunning : Running id c := ⟨hc.1, hc.2.1⟩
  refine ⟨linked_run hrunning Debt.clear_paid.for, fun w f r w' hinv _ hhappens => ?_⟩
  refine hinv.run hrunning Debt.clear_paid.for (.inr rfl) hhappens ?_
  refine (hinv.met id (.inr (Multiset.mem_cons_self ..))).imp_left fun hdecided => ?_
  have husual : c.Usual := by
    rw [Request.Usual, hc.1]
    exact hc.2.1
  refine hdecided.evolves husual (fun data s heq hdata => ?_) (evolves_happens hhappens)
  subst heq
  cases hdata.symm.trans hc.2.2

/-- Writing a final status pays. -/
lemma safe_pays {data : TransactionData} {s : TransactionStatus} (hdata : data.status = some s)
    (hs : s.Terminal) (hrunning : Running id ⟨.run id, .updateTransaction id data⟩)
    (hd : d.For id) :
    Safe ((deciding lossless).at n) (call (.run id) (.updateTransaction id data)) d
      (upon (fun _ d => d = .paid id) fun d =>
        d.For id ∧ ¬data.failureCode = some "MAX_RETRIES_EXCEEDED") := by
  apply safe_perform (linked_run hrunning hd)
  intro w f r w' hinv hallowed
    (hhappens : Async.happens Returns Total lossless
      (.call n ⟨.run id, .updateTransaction id data⟩) w r w')
  cases r with
  | ok v =>
    refine ⟨.paid id, hinv.run hrunning hd (.inr rfl) hhappens (.inl ⟨s, ?_, hs⟩), rfl⟩
    exact status_of_updated hhappens.2.1 hdata
  | error e =>
    refine ⟨.owing id, ?_, Debt.for_owing, fun hgives => ?_⟩
    · exact hinv.run hrunning hd (.inl rfl) hhappens (.inr (Multiset.mem_cons_self ..))
    · have hok := hallowed (show Request.givesUp _ = true from decide_eq_true hgives)
      cases hok

namespace Processor

variable {tx : Transaction}

lemma safe_updateFinal {s : TransactionStatus} {failure : Option (String × String)}
    (hs : s.Terminal) (hcancelled : s ≠ .CANCELLED) (hd : d.For id) :
    Safe ((deciding lossless).at n) (updateStatus id s failure) d
      (upon (fun _ d => d = .paid id) (Debt.For id)) := by
  refine safe_bind (safe_owing (running_of_still still_completionDate) hd) fun date d hd => ?_
  have hcreated : s ≠ .CREATED := by
    rintro rfl
    exact absurd hs (by decide)
  have hrunning : Running id ⟨.run id, .updateTransaction id
      { status := some s, completedAt := date, failureCode := failure.map (·.1)
        failureMessage := failure.map fun f => some f.2 }⟩ :=
    ⟨rfl, rfl, by simpa using hcreated, by simpa using hcancelled⟩
  refine safe_bind ((safe_pays rfl hs hrunning hd).weaken (fun _ _ h => h) fun _ h => h.1)
    fun _ d hd => ?_
  rw [hd]
  exact safe_paid still_logEvent

lemma safe_abortFinal {hash : Option String} {message : String} (hd : d.For tx.id) :
    Safe ((deciding lossless).at n) (abort tx hash message) d
      (upon (fun _ d => d = .paid tx.id) (Debt.For tx.id)) :=
  safe_bind (safe_owing (running_of_still still_saveHash) hd) fun _ _ hd =>
    safe_updateFinal (by decide) (by decide) hd

lemma safe_completeFinal {stellar : StellarResult} {attempt : ℕ} {rewardResult : RewardResult}
    (hd : d.For tx.id) :
    Safe ((deciding lossless).at n) (complete tx stellar attempt rewardResult) d
      (upon (fun _ d => d = .paid tx.id) (Debt.For tx.id)) := by
  refine safe_bind (safe_owing (running_updateStatus (by decide) (by decide)) hd) fun _ d hd => ?_
  refine safe_bind (safe_owing (all_call rfl) hd) fun _ d hd => ?_
  refine safe_bind (safe_updateFinal (by decide) (by decide) hd) fun _ d hd => ?_
  rw [hd]
  have htail : (do
      let confirmedAt ← now (.run tx.id)
      let _ ← call (.run tx.id) (.updateSettlements tx.id
        { status := some .CONFIRMED, confirmedAt := some confirmedAt
          mockReference := some stellar.hash })
      logCompletion tx stellar attempt rewardResult).All (Still tx.id) :=
    all_bind (all_now ⟨trivial, trivial⟩) fun _ =>
      all_bind (all_call ⟨rfl, trivial⟩) fun _ => still_logCompletion
  exact safe_paid htail

lemma safe_attemptFinal {attempt : ℕ} (hd : d.For tx.id) :
    Safe ((deciding lossless).at n) (processTransaction js tx attempt) d
      (upon (fun _ d => d = .paid tx.id) (Debt.For tx.id)) := by
  have hsettle : ∀ {stellar : StellarResult} {d : Debt}, d.For tx.id →
      Safe ((deciding lossless).at n) (settle tx stellar attempt) d
        (upon (fun _ d => d = .paid tx.id) (Debt.For tx.id)) := by
    intro stellar d hd
    refine safe_bind (safe_owing running_markSettled hd) fun _ d hd => ?_
    refine safe_bind (safe_owing (running_of_still still_payMerchant) hd) fun _ d hd => ?_
    refine safe_bind (safe_owing (running_of_still still_issueStarRewards) hd) fun _ d hd => ?_
    exact safe_completeFinal hd
  refine safe_attempt (safe_owing running_route hd) (fun stellar d hd => ?_) fun e d hd => ?_
  · refine safe_attempt (hsettle hd) (fun _ d hd => ?_) fun e d hd => ?_
    · exact safe_pure hd
    · exact safe_abortFinal hd
  · exact safe_abortFinal hd

lemma safe_giveUpFinal {message : String} (hd : d.For tx.id) :
    Safe ((deciding lossless).at n) (giveUp tx message) d
      (upon (fun _ d => d = .paid tx.id) fun _ => False) := by
  refine safe_bind ((safe_pays rfl (by decide) ⟨rfl, rfl, by simp, by simp⟩ hd).weaken
    (fun _ _ h => h) fun _ h => h.2 rfl) fun _ d hd => ?_
  exact safe_pure hd

/-- **A run decides.** -/
theorem safe_runFinal {remaining : ℕ} (hd : d.For tx.id) :
    Safe ((deciding lossless).at n) (retryFrom js tx remaining) d
      (upon (fun _ d => d = .paid tx.id) fun _ => False) := by
  induction remaining generalizing d with
  | zero =>
    refine safe_attempt (safe_attemptFinal hd) (fun _ d hd => ?_) fun e d hd => ?_
    · exact safe_pure hd
    · exact safe_giveUpFinal hd
  | succ remaining ih =>
    refine safe_attempt (safe_attemptFinal hd) (fun _ d hd => ?_) fun e d hd => ?_
    · exact safe_pure hd
    · have hsleep : ∀ t, Safe ((deciding lossless).at n) (call (.run tx.id) (.sleep t)) d
          (upon (fun _ => Debt.For tx.id) fun _ => False) := by
        intro t
        have hrunning : Running tx.id ⟨.run tx.id, .sleep t⟩ := ⟨rfl, trivial⟩
        apply safe_perform (linked_run hrunning hd)
        intro w f r w' hinv _ (hhappens : Async.happens Returns Total lossless
          (.call n ⟨.run tx.id, .sleep t⟩) w r w')
        refine ⟨.owing tx.id, ?_, ?_⟩
        · exact hinv.run hrunning hd (.inl rfl) hhappens (.inr (Multiset.mem_cons_self ..))
        · cases r with
          | ok v => exact Debt.for_owing
          | error e => exact absurd (.inr (.inr ⟨_, rfl⟩)) hhappens.2.1
      exact safe_bind (hsleep _) fun _ d hd => ih hd

end Processor

/-- Calls that are not made for a run. -/
lemma safe_bystander (hp : p.All Request.Usual) (hsource : p.All fun c => ∀ id, c.source ≠ .run id)
    (hd : d.Clear) :
    Safe ((deciding lossless).at n) p d (upon (fun _ => Debt.Clear) Debt.Clear) := by
  apply Safe.of_all (hp.and hsource)
  · intro r
    cases r with
    | ok v => exact hd
    | error e => exact hd
  intro c hc
  refine ⟨⟨fun m b heq => ?_, fun i hi => absurd hi (hd i)⟩, fun w f r w' hinv _ hhappens => ?_⟩
  · cases heq
    exact hc.1
  · refine hinv.aside (e := .call n c) (fun m b heq => ?_) (fun m i hruns => ?_) hhappens
    · cases heq
      exact hc.1
    · exact hc.2 i (of_decide_eq_true hruns).2

lemma safe_askedFinal (q : Asked) (hd : d.Clear) : Safe ((deciding lossless).at n) (q.program js) d
    (upon (fun _ => Debt.Clear) Debt.Clear) := by
  have hrequest : ∀ {p : Service Unit}, p.All Requested →
      Safe ((deciding lossless).at n) p d (upon (fun _ => Debt.Clear) Debt.Clear) := fun hp =>
    safe_bystander (usual_requested hp) (all_source (fun id h => by cases h) hp) hd
  cases q with
  | tick =>
    have hcall : ∀ {op : Op} {d}, op.ticking → d.Clear →
        Safe ((deciding lossless).at n) (call .tick op) d (upon (fun _ => Debt.Clear) Debt.Clear) :=
      fun hop hd => safe_bystander (usual_ticking hop) (all_perform fun id hid => by cases hid) hd
    have htick := Processor.safe_ticks js (D := (deciding lossless).at n) (I := Debt.Clear)
      (E := Debt.Clear) (R := fun _ => Debt.Clear) hcall (hcall trivial)
      (fun tx _ hd => (Processor.safe_runFinal hd.for).weaken
        (fun _ _ h => h ▸ Debt.clear_paid) fun _ h => h.elim) hd
    exact htick.weaken (fun _ _ h => h.elim id fun ⟨_, h⟩ => h) fun _ h => h
  | poller =>
    have hp : (Processor.handlePendingSettlements js).All Polling :=
      Processor.polling_handlePendingSettlements
    exact safe_bystander (usual_polling hp) (all_source (fun id h => by cases h) hp) hd
  | create owner dto => exact hrequest Transactions.requested_create
  | cancel owner id => exact hrequest Transactions.requested_cancel
  | fail owner id dto => exact hrequest Transactions.requested_fail

end Programs

/-! ### The office -/

section Office

variable {js : Js} {lossless : Request → Prop}

theorem deciding_governs :
    Async.Governs (deciding lossless) (staffing js lossless resolute) where
  env _ _ _ _ h := h
  init w h := by
    obtain ⟨hempty, hentries, -⟩ := h
    refine ⟨?_, fun id hid => ?_⟩
    · rw [Backend.Distinct, hempty.transactions]
      exact List.nodup_nil
    · rcases hid with ⟨n, e, he, -⟩ | hpaid
      · rw [hentries] at he
        cases he
      · exact absurd hpaid (Multiset.notMem_zero _)
  start w p h := by
    obtain ⟨n, q, rfl⟩ := h
    have hfree : Debt.free.Clear := fun _ h => by cases h
    have hevent : ∀ {e : Happening} {d : Debt}, (∀ n c, e ≠ .call n c) → d.Clear →
        (deciding lossless).link d e := fun he hd =>
      ⟨fun m c heq => absurd heq (he m c), fun i hi => absurd hi (hd i)⟩
    have haside : ∀ {e : Happening} {r : Except String (Happening.Res e)} {w w' : Office}
        {f : Multiset Debt}, (∀ n c, e ≠ .call n c) → Debts w f →
        Async.happens Returns Total lossless e w r w' → Debts w' f := by
      intro e r w w' f he hinv hhappens
      refine hinv.aside (fun n c heq => absurd heq (he n c)) (fun m id hruns => ?_) hhappens
      cases e with
      | call n c => exact he n c rfl
      | begin | finish => cases hruns
    refine ⟨.free, Async.safe_session (hevent (by simp) hfree) fun w f r w' hinv _ hhappens => ?_,
      fun f hf => ⟨hf.distinct, fun id hid => ?_⟩⟩
    · refine ⟨.free, haside (e := .begin n q) (by simp) hinv hhappens,
      (safe_askedFinal q hfree).mono fun a d hd => ?_⟩
      have hclear : d.Clear := by
        cases a with
        | ok v => exact hd
        | error e => exact hd
      exact ⟨hevent (by simp) hclear, fun w f r w' hinv _ hhappens =>
        ⟨d, haside (e := .finish n a) (by simp) hinv hhappens, hclear⟩⟩
    · refine (hf.met id (hid.imp_right fun hpaid => ?_)).imp_right Multiset.mem_cons_of_mem
      exact (Multiset.mem_cons.mp hpaid).resolve_left fun heq => by cases heq
  world w w' f h hf := by
    obtain ⟨hentries, -, hother⟩ := h
    refine ⟨other_distinct hother hf.distinct, ?_⟩
    simpa only [Backend.Decided, Ran, hentries, other_status hother hf.distinct] using hf.met
  cond _ _ _ _ _ _ h := h

/-- **A run decides.** Where nobody fails to write that he gives up, a transaction that was ever run
has a final status, or a run of it is in progress: however ticks, requests and polls interleave,
whatever fails, and though answers are lost. -/
theorem run_decides {s : OfficeState} (h : (office js lossless resolute).Reachable s) {n : ℕ}
    {id : String} (hran : Ran n id s.world) : s.world.state.Decided id ∨ InHand id s := by
  obtain ⟨f, hrel, hinv⟩ := Async.reachable_sound deciding_governs h
  refine (hinv.met id (.inl ⟨n, hran⟩)).imp_right fun howing => ?_
  rw [← Multiset.rel_flip] at hrel
  obtain ⟨p, hp, hsafe⟩ := Multiset.exists_mem_of_rel_of_mem hrel howing
  cases p with
  | done r =>
    have hclear : (Debt.owing id).Clear := hsafe
    exact absurd rfl (hclear id)
  | await e k =>
    obtain ⟨m, hruns⟩ := hsafe.1.2 id rfl
    exact ⟨m, _, hp, hruns⟩

end Office

/-! ### The shop -/

lemma resolute_checkedBy (threads : Multiset InProgress) : resolute.CheckedBy threads fun e w _ =>
    Async.unused e w && match e with
      | .call _ c => !c.givesUp
      | _ => true := by
  intro e w r h
  rw [Bool.and_eq_true] at h
  refine ⟨h.1, ?_⟩
  cases e with
  | begin | finish => trivial
  | call n c =>
    intro hgives
    simp [hgives] at h

lemma not_inHand {s : OfficeState} {id : String} (h : ∀ p ∈ s.threads, p.next = none) :
    ¬InHand id s := by
  rintro ⟨n, p, hp, hruns⟩
  rw [h p hp] at hruns
  cases hruns

namespace OneOrder

/-- The tick runs the order to its end. -/
def endedTick : InProgress × Office := attended 1 .tick 48 orderedOffice.2

/-- The database refuses every update of a transaction. -/
def refusesUpdates (c : Request) : Bool :=
  match c.op with
  | .updateTransaction _ _ => true
  | _ => false

lemma not_total_of_refuses {c : Request} (h : refusesUpdates c) : ¬Total c := by
  obtain ⟨source, op⟩ := c
  cases op with
  | updateTransaction i data => rintro (h | h | ⟨_, h⟩) <;> cases h
  | _ => cases h

/-- The tick cannot write anything of the order. -/
def dyingTick : InProgress × Office :=
  (Async.session 1 .tick (Asked.tick.program js)).runFor
    (Async.journalled (respondTo oracle refusesUpdates)) 16 orderedOffice.2

end OneOrder

/-- In the shop a tick runs the order, finishes, and leaves it decided. -/
theorem run_decides_of_order : ∃ s, (office OneOrder.js (fun _ => False) resolute).Reachable s ∧
    Ran 1 OneOrder.orderId s.world ∧ ¬InHand OneOrder.orderId s ∧
    s.world.state.Decided OneOrder.orderId := by
  have hordered : (office OneOrder.js (fun _ => False) resolute).Reachable
      ⟨OneOrder.orderedOffice.2, OneOrder.orderedOffice.1 ::ₘ 0⟩ :=
    OneOrder.attended_reachable OneOrder.openedOffice_reachable (resolute_checkedBy 0) (by decide +kernel)
  have htick : (office OneOrder.js (fun _ => False) resolute).Reachable
      ⟨OneOrder.endedTick.2, OneOrder.endedTick.1 ::ₘ OneOrder.orderedOffice.1 ::ₘ 0⟩ :=
    OneOrder.attended_reachable hordered (resolute_checkedBy _) (by decide +kernel)
  have hdone : Ran 1 OneOrder.orderId OneOrder.endedTick.2 ∧
      OneOrder.endedTick.1.next = none ∧ OneOrder.orderedOffice.1.next = none := by decide +kernel
  have hidle : ¬InHand OneOrder.orderId
      ⟨OneOrder.endedTick.2, OneOrder.endedTick.1 ::ₘ OneOrder.orderedOffice.1 ::ₘ 0⟩ := by
    apply not_inHand
    intro p hp
    simp only [Multiset.mem_cons, Multiset.notMem_zero, or_false] at hp
    rcases hp with rfl | rfl
    · exact hdone.2.1
    · exact hdone.2.2
  exact ⟨_, htick, hdone.1, hidle, (run_decides htick hdone.1).resolve_right hidle⟩

/-- Where the write of giving up is refused like all others, the tick dies and leaves the order
`AUTHORIZED` with nobody at work on it. -/
theorem refused_order_undecided : ∃ s, (office OneOrder.js (fun _ => False) anyHappening).Reachable s ∧
    Ran 1 OneOrder.orderId s.world ∧ ¬InHand OneOrder.orderId s ∧
    s.world.state.status OneOrder.orderId = some .AUTHORIZED := by
  have hordered : (office OneOrder.js (fun _ => False) anyHappening).Reachable
      ⟨OneOrder.orderedOffice.2, OneOrder.orderedOffice.1 ::ₘ 0⟩ :=
    OneOrder.attended_reachable OneOrder.openedOffice_reachable (anyHappening_checkedBy 0)
      (by decide +kernel)
  have htick : (office OneOrder.js (fun _ => False) anyHappening).Reachable
      ⟨OneOrder.dyingTick.2, OneOrder.dyingTick.1 ::ₘ OneOrder.orderedOffice.1 ::ₘ 0⟩ :=
    playOn (fun _ => OneOrder.not_total_of_refuses) (anyHappening_checkedBy _) (by decide +kernel)
      (sessionBegins 1 .tick hordered)
  have hdone : Ran 1 OneOrder.orderId OneOrder.dyingTick.2 ∧ OneOrder.dyingTick.1.next = none ∧
      OneOrder.orderedOffice.1.next = none ∧
      OneOrder.dyingTick.2.state.status OneOrder.orderId = some .AUTHORIZED := by decide +kernel
  refine ⟨_, htick, hdone.1, not_inHand fun p hp => ?_, hdone.2.2.2⟩
  simp only [Multiset.mem_cons, Multiset.notMem_zero, or_false] at hp
  rcases hp with rfl | rfl
  · exact hdone.2.1
  · exact hdone.2.2.1

end PayEra.Api
