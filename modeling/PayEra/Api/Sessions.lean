import PayEra.Lib.Sessions
import PayEra.Api.Playback
import PayEra.Api.Status

/-!
# The API's sessions

Every tick and every request as a session with a number, over the same backend and with the same
answers and failures as the pipeline. Forgetting the sessions gives a run of the pipeline.
-/

namespace PayEra.Api

open Async (Program Event Journal Setting)
open Async.Program

/-- What the API is asked for. -/
inductive Asked where
  | tick
  | poller
  | create (owner : Principal) (dto : CreateTransactionDto)
  | cancel (owner : Principal) (id : String)
  | fail (owner : Principal) (id : String) (dto : FailTransactionDto)

def Asked.program (js : Js) : Asked → Service Unit
  | .tick => Processor.handlePendingTransactions js
  | .poller => Processor.handlePendingSettlements js
  | .create owner dto => Transactions.create js owner dto
  | .cancel owner id => Transactions.cancel owner id
  | .fail owner id dto => Transactions.fail owner id dto

/-- No transactions, no payments and no payouts yet. -/
structure Backend.Empty (b : Backend) : Prop where
  transactions : b.transactions = []
  settlementInstructions : b.settlementInstructions = []
  transactionEvents : b.transactionEvents = []
  payouts : b.payouts = []

/-- What happens in a session of the API. -/
abbrev Happening := Event Asked Request (Except String Unit)

abbrev Happening.Res (e : Happening) : Type := Async.Event.Res Request.Res e

/-- The backend with the journal of the sessions. -/
abbrev Office := Journal Backend Asked Request Request.Res String Unit

/-- A session in progress. -/
abbrev InProgress := Program Happening (Event.Res Request.Res) String Unit

/-- A condition on what happens, given the other sessions in progress. -/
abbrev OfficeCondition :=
  Multiset InProgress → (e : Happening) → Office → Except String (Happening.Res e) → Prop

/-- The sessions of the API, where the calls of `lossless` have no effect when they fail, while other
things happen to the backend. -/
abbrev staffingAmid (js : Js) (other : Backend → Backend → Prop) (lossless : Request → Prop)
    (cond : OfficeCondition) : Setting Office Happening (Event.Res Request.Res) String :=
  Async.sessions Returns Total lossless (Asked.program js) Backend.Empty other cond

/-- Other things are what the rest of the system does. -/
abbrev staffing (js : Js) (lossless : Request → Prop) (cond : OfficeCondition) :
    Setting Office Happening (Event.Res Request.Res) String :=
  staffingAmid js Backend.Other lossless cond

abbrev officeAmid (js : Js) (other : Backend → Backend → Prop) (lossless : Request → Prop)
    (cond : OfficeCondition) :=
  Async.system (staffingAmid js other lossless cond)

abbrev office (js : Js) (lossless : Request → Prop) (cond : OfficeCondition) :=
  Async.system (staffing js lossless cond)

abbrev OfficeState := Async.Pool Office Happening (Event.Res Request.Res) String

section Forget

variable {js : Js}

lemma asked_starts (w : World) (q : Asked) : Starts js w (q.program js) := by
  cases q with
  | tick => exact .tick w
  | poller => exact .poller w
  | create owner dto => exact .create w owner dto
  | cancel owner id => exact .cancel w owner id
  | fail owner id dto => exact .fail w owner id dto

lemma pipeline_covers : Async.Covers (setting js anyAnswer) Returns Total (Asked.program js)
    Backend.Empty Backend.Other where
  init b h := ⟨h.transactions, h.settlementInstructions, h.transactionEvents, h.payouts, rfl⟩
  env _ _ _ _ h := h
  cond _ _ _ _ := trivial
  start w q := by
    rw [Async.discard_unit]
    exact asked_starts w q
  world _ _ hcalls hother := ⟨hcalls, hother⟩

/-- With the sessions forgotten, the office is the pipeline. -/
theorem office_forget {lossless : Request → Prop} {cond : OfficeCondition} {s : OfficeState}
    (h : (office js lossless cond).Reachable s) :
    (pipeline js anyAnswer).Reachable ⟨s.world.forget, s.threads.map Program.forget⟩ :=
  Async.reachable_forget pipeline_covers h

end Forget

/-! ### What the calls of sessions do -/

section Happens

variable {lossless : Request → Prop} {n : ℕ} {c : Request} {w w' : Office} {r : Except String c.Res}

lemma evolves_happens (h : Async.happens Returns Total lossless (.call n c) w r w') :
    Evolves c w.state w'.state :=
  (Async.happens_call h).imp And.left And.left

/-- What is not a call leaves the backend and the effects. -/
lemma happens_still {e : Happening} {r : Except String (Happening.Res e)}
    (h : Async.happens Returns Total lossless e w r w') (he : ∀ n c, e ≠ .call n c) :
    w'.state = w.state ∧ w'.effects = w.effects := by
  cases e with
  | begin n q =>
    obtain ⟨-, -, rfl⟩ := h
    exact ⟨rfl, rfl⟩
  | finish n a =>
    obtain ⟨-, rfl⟩ := h
    exact ⟨rfl, rfl⟩
  | call n c => exact absurd rfl (he n c)

end Happens

/-! ### Playing sessions -/

section Playback

/-- The answer to a call, and the backend after it. -/
def respondTo (o : Oracle) (refused : Request → Bool) (c : Request) (b : Backend) :
    Except String c.Res × Backend :=
  match Backend.answer { o with uuid := fresh b.uuids } c.op b with
  | some (v, b') => if refused c then (.error "refused", b) else (.ok v, b')
  | none => (.error "refused", b)

lemma respondTo_returns {o : Oracle} {refused : Request → Bool}
    (hrefused : ∀ c, refused c → ¬Total c) (c : Request) (b : Backend) :
    Async.Played Returns Total c b (respondTo o refused c b) := by
  rw [respondTo]
  cases hans : Backend.answer { o with uuid := fresh b.uuids } c.op b with
  | none =>
    intro h
    obtain ⟨v, b', hv⟩ := h.answered o b
    rw [hans] at hv
    cases hv
  | some vb =>
    obtain ⟨v, b'⟩ := vb
    by_cases hc : refused c
    · simp only [hc, if_true]
      exact hrefused c hc
    · simp only [hc]
      exact ⟨_, hans⟩

variable {js : Js} {other : Backend → Backend → Prop} {lossless : Request → Prop}
  {cond : OfficeCondition} {w : Office}
  {threads : Multiset InProgress} {o : Oracle} {refused : Request → Bool} {p : InProgress}
  {C : (e : Happening) → Office → Except String (Happening.Res e) → Bool}

/-- A check that is enough for the condition and does not use a number twice. -/
def OfficeCondition.CheckedBy (cond : OfficeCondition) (threads : Multiset InProgress)
    (C : (e : Happening) → Office → Except String (Happening.Res e) → Bool) : Prop :=
  ∀ e w r, C e w r → Async.unused e w ∧ cond threads e w r

lemma playOn {k : ℕ} (hrefused : ∀ c, refused c → ¬Total c) (hcond : cond.CheckedBy threads C)
    (hcheck : p.checkFor (Async.journalled (respondTo o refused)) C k w)
    (h : (officeAmid js other lossless cond).Reachable ⟨w, p ::ₘ threads⟩) :
    (officeAmid js other lossless cond).Reachable
      ⟨(p.runFor (Async.journalled (respondTo o refused)) k w).2,
        (p.runFor (Async.journalled (respondTo o refused)) k w).1 ::ₘ threads⟩ :=
  Async.reachable_journalled (respondTo_returns hrefused) hcond hcheck h

lemma sessionBegins (n : ℕ) (q : Asked) (h : (officeAmid js other lossless cond).Reachable ⟨w, threads⟩) :
    (officeAmid js other lossless cond).Reachable ⟨w, Async.session n q (q.program js) ::ₘ threads⟩ :=
  Async.reachable_start h ⟨n, q, rfl⟩

end Playback

/-- No condition. -/
def anyHappening : OfficeCondition := fun _ _ _ _ => True

lemma anyHappening_checkedBy (threads : Multiset InProgress) :
    anyHappening.CheckedBy threads fun e w _ => Async.unused e w := fun _ _ _ h => ⟨h, trivial⟩

/-! ### The shop's sessions -/

namespace OneOrder

def openedOffice : Office where
  state := opened.state

/-- The first `k` events of one more session. -/
def attended (n : ℕ) (q : Asked) (k : ℕ) (w : Office) : InProgress × Office :=
  (Async.session n q (q.program js)).runFor
    (Async.journalled (respondTo oracle fun _ => false)) k w

/-- The customer orders. -/
def orderedOffice : InProgress × Office := attended 0 (.create customer order) 14 openedOffice

section

variable {other : Backend → Backend → Prop} {lossless : Request → Prop} {cond : OfficeCondition}
  {threads : Multiset InProgress}
  {w : Office} {n k : ℕ} {q : Asked}
  {C : (e : Happening) → Office → Except String (Happening.Res e) → Bool}

lemma openedOffice_reachable : (officeAmid js other lossless cond).Reachable ⟨openedOffice, 0⟩ :=
  .init ⟨⟨⟨rfl, rfl, rfl, rfl⟩, rfl, rfl⟩, rfl⟩

lemma attended_reachable (h : (officeAmid js other lossless cond).Reachable ⟨w, threads⟩)
    (hcond : cond.CheckedBy threads C)
    (hcheck : (Async.session n q (q.program js)).checkFor
      (Async.journalled (respondTo oracle fun _ => false)) C k w) :
    (officeAmid js other lossless cond).Reachable
      ⟨(attended n q k w).2, (attended n q k w).1 ::ₘ threads⟩ :=
  playOn (fun _ h => absurd h Bool.false_ne_true) hcond hcheck (sessionBegins n q h)

end

end OneOrder

end PayEra.Api
