import PayEra.Lib.Protocol
import PayEra.Api.Sessions

/-!
# The transactions controller

`apps/api/src/transactions/transactions.controller.ts`: a request to create a transaction may carry
an idempotency key, under which its response is saved and looked up. The table of keys is the
controller's own; everything else is asked of the service.
-/

namespace PayEra.Api

open Async (Program Event Journal Setting)
open Async.Program

/-! ### The table of keys -/

/-- `ApiIdempotencyKey`, unique by scope and key. -/
structure ApiIdempotencyKey where
  userId : Option String
  scope : String
  key : String
  requestHash : String
  responseStatus : Option ℕ
  responseBody : Option NewTransaction
  expiresAt : ℕ
  deriving DecidableEq

/-- The backend with the table of keys. -/
structure Desk where
  backend : Backend := {}
  apiIdempotencyKeys : List ApiIdempotencyKey := []

/-- The controller's calls: those of the service, and its own. -/
inductive DeskOp where
  | service (c : Request)
  | findIdempotencyKey (scope key : String)
  /-- `upsert` with an empty update. -/
  | upsertIdempotencyKey (create : ApiIdempotencyKey)
  deriving DecidableEq

abbrev DeskOp.Res : DeskOp → Type
  | .service c => c.Res
  | .findIdempotencyKey _ _ => Option ApiIdempotencyKey
  | .upsertIdempotencyKey _ => Unit

namespace Desk

def find (scope key : String) (d : Desk) : Option ApiIdempotencyKey :=
  d.apiIdempotencyKeys.find? fun row => row.scope = scope ∧ row.key = key

/-- What a call does when it returns. -/
def answer (o : Oracle) : (op : DeskOp) → Desk → Option (op.Res × Desk)
  | .service c, d => (Backend.answer o c.op d.backend).map fun (v, b) => (v, { d with backend := b })
  | .findIdempotencyKey scope key, d => some (d.find scope key, d)
  | .upsertIdempotencyKey create, d =>
    match d.find create.scope create.key with
    | some _ => some ((), d)
    | none => some ((), { d with apiIdempotencyKeys := d.apiIdempotencyKeys ++ [create] })

end Desk

/-! ### The controller -/

abbrev DeskProgram (α : Type) := Program DeskOp DeskOp.Res String α

def ask (op : DeskOp) : DeskProgram op.Res := Program.perform op

/-- The service's code, as the controller calls it. -/
def atDesk {α : Type} : Service α → DeskProgram α
  | .done r => .done r
  | .await c k => .await (.service c) fun r => atDesk (k r)

namespace TransactionsController

variable (js : Js)

/-- What was saved under the key, if there is a key. -/
def replay : (idempotencyKey : Option String) → DeskProgram (Option NewTransaction)
  | none => pure none
  | some key => do
    let existing : Option ApiIdempotencyKey ← ask (.findIdempotencyKey "transaction.create" key)
    pure (existing.bind (·.responseBody))

/-- Saving a response under the key, if there is a key. -/
def save (user : Principal) (result : NewTransaction) :
    (idempotencyKey : Option String) → DeskProgram Unit
  | none => pure ()
  | some key => do
    let date : ℕ ← ask (.service ⟨.request, .now⟩)
    ask (.upsertIdempotencyKey
      { userId := some user.id, scope := "transaction.create", key, requestHash := key
        responseStatus := some 201, responseBody := some result
        expiresAt := date + 24 * 60 * 60 * 1000 })

def create (user : Principal) (dto : CreateTransactionDto) (idempotencyKey : Option String) :
    DeskProgram NewTransaction := do
  match ← replay (truthy idempotencyKey) with
  | some responseBody => pure responseBody
  | none =>
    let result ← atDesk (Transactions.createResult js user dto)
    save user result (truthy idempotencyKey)
    pure result

end TransactionsController

/-! ### Sessions -/

/-- A request to create a transaction, or anything else that the API is asked for. -/
inductive Visit where
  | post (user : Principal) (dto : CreateTransactionDto) (idempotencyKey : Option String)
  | other (q : Asked)

/-- Only a request to create a transaction is answered by one. -/
def Visit.program (js : Js) : Visit → DeskProgram (Option NewTransaction)
  | .post user dto idempotencyKey => do
    let result ← TransactionsController.create js user dto idempotencyKey
    pure (some result)
  | .other q => do
    atDesk (q.program js)
    pure none

/-- The key that a visit carries. -/
def Visit.key : Visit → Option String
  | .post _ _ idempotencyKey => truthy idempotencyKey
  | .other _ => none

def DeskReturns (op : DeskOp) (d : Desk) (v : op.Res) (d' : Desk) : Prop :=
  ∃ o, Desk.answer o op d = some (v, d')

def DeskTotal : DeskOp → Prop
  | .service c => Total c
  | _ => False

structure Desk.Empty (d : Desk) : Prop where
  backend : d.backend.Empty
  apiIdempotencyKeys : d.apiIdempotencyKeys = []

/-- Nobody but the controller uses the table of keys. -/
structure Desk.Other (d d' : Desk) : Prop where
  backend : Backend.Other d.backend d'.backend
  apiIdempotencyKeys : d'.apiIdempotencyKeys = d.apiIdempotencyKeys

abbrev Visiting := Event Visit DeskOp (Except String (Option NewTransaction))

abbrev Visiting.Res (e : Visiting) : Type := Async.Event.Res DeskOp.Res e

abbrev DeskJournal := Journal Desk Visit DeskOp DeskOp.Res String (Option NewTransaction)

abbrev VisitInProgress := Program Visiting (Event.Res DeskOp.Res) String Unit

abbrev DeskCondition :=
  Multiset VisitInProgress → (e : Visiting) → DeskJournal → Except String (Visiting.Res e) → Prop

/-- Any interleaving of visits, with any failures. -/
abbrev deskStaffing (js : Js) (cond : DeskCondition) :
    Setting DeskJournal Visiting (Event.Res DeskOp.Res) String :=
  Async.sessions DeskReturns DeskTotal (fun _ => False) (Visit.program js) Desk.Empty Desk.Other cond

abbrev desk (js : Js) (cond : DeskCondition) := Async.system (deskStaffing js cond)

abbrev DeskState := Async.Pool DeskJournal Visiting (Event.Res DeskOp.Res) String

abbrev DeskHappens (e : Visiting) (w : DeskJournal) (r : Except String (Visiting.Res e))
    (w' : DeskJournal) : Prop :=
  Async.happens DeskReturns DeskTotal (fun _ => False) e w r w'

/-! ### The service at the desk -/

section Service

variable {L α : Type}

/-- What a discipline asks of the calls of the service. -/
def atService (D : Async.Discipline DeskJournal DeskOp DeskOp.Res String L) :
    Async.Discipline DeskJournal Request Request.Res String L where
  env c := D.env (.service c)
  inv := D.inv
  link ℓ c := D.link ℓ (.service c)
  allowed f c := D.allowed f (.service c)
  halt := D.halt

lemma safe_atDesk {D : Async.Discipline DeskJournal DeskOp DeskOp.Res String L} {p : Service α}
    {ℓ : L} {Q : Except String α → L → Prop} (h : Async.Safe (atService D) p ℓ Q) :
    Async.Safe D (atDesk p) ℓ Q := by
  induction p generalizing ℓ with
  | done r => exact h
  | await c k ih =>
    refine ⟨h.1, fun w f r w' hinv hallowed henv => ?_⟩
    obtain ⟨ℓ', hinv', hk⟩ := h.2 w f r w' hinv hallowed henv
    exact ⟨ℓ', hinv', ih r hk⟩

end Service

/-! ### Playing visits -/

section Playback

/-- The answer to a call, and the desk after it. -/
def respondAt (o : Oracle) (refused : DeskOp → Bool) (op : DeskOp) (d : Desk) :
    Except String op.Res × Desk :=
  match Desk.answer { o with uuid := fresh d.backend.uuids } op d with
  | some (v, d') => if refused op then (.error "refused", d) else (.ok v, d')
  | none => (.error "refused", d)

lemma respondAt_returns {o : Oracle} {refused : DeskOp → Bool}
    (hrefused : ∀ op, refused op → ¬DeskTotal op) (op : DeskOp) (d : Desk) :
    Async.Played DeskReturns DeskTotal op d (respondAt o refused op d) := by
  rw [respondAt]
  cases hans : Desk.answer { o with uuid := fresh d.backend.uuids } op d with
  | none =>
    intro h
    cases op with
    | service c =>
      obtain ⟨v, b, hv⟩ := Total.answered o h d.backend
      simp [Desk.answer, hv] at hans
    | _ => exact h
  | some vd =>
    obtain ⟨v, d'⟩ := vd
    by_cases hop : refused op
    · simp only [hop, if_true]
      exact hrefused op hop
    · simp only [hop]
      exact ⟨_, hans⟩

end Playback

/-- No condition. -/
def anyVisit : DeskCondition := fun _ _ _ _ => True

namespace OneOrder

def openedDesk : DeskJournal where
  state := { backend := opened.state }

abbrev replyAt := respondAt oracle fun _ => false

/-- The first `k` events of one more visit. -/
def visited (n : ℕ) (v : Visit) (k : ℕ) (w : DeskJournal) : VisitInProgress × DeskJournal :=
  (Async.session n v (v.program js)).runFor (Async.journalled replyAt) k w

lemma replyAt_returns : ∀ op d, Async.Played DeskReturns DeskTotal op d (replyAt op d) :=
  respondAt_returns fun _ h => absurd h Bool.false_ne_true

lemma openedDesk_reachable {cond : DeskCondition} : (desk js cond).Reachable ⟨openedDesk, 0⟩ :=
  .init ⟨⟨⟨⟨rfl, rfl, rfl, rfl⟩, rfl⟩, rfl, rfl⟩, rfl⟩

lemma visited_reachable {cond : DeskCondition} {threads : Multiset VisitInProgress}
    {w : DeskJournal} {n k : ℕ} {v : Visit}
    {C : (e : Visiting) → DeskJournal → Except String (Visiting.Res e) → Bool}
    (h : (desk js cond).Reachable ⟨w, threads⟩)
    (hC : ∀ e w r, C e w r → Async.unused e w ∧ cond threads e w r)
    (hcheck : (Async.session n v (v.program js)).checkFor (Async.journalled replyAt) C k w) :
    (desk js cond).Reachable ⟨(visited n v k w).2, (visited n v k w).1 ::ₘ threads⟩ :=
  Async.reachable_journalled replyAt_returns hC hcheck (Async.reachable_start h ⟨n, v, rfl⟩)

end OneOrder

end PayEra.Api
