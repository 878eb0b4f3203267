import PayEra.Lib.Unwinding
import PayEra.Api.Controller

/-!
# Histories of requests

`POST /transactions` as a deterministic system. A history says in which order requests arrive and
their calls are answered, what the outside world answers, and what happens meanwhile to the tables
that the service only reads. So two histories can be compared that differ in the requests of some
users only.

A call that the database cannot answer, because of a unique column, fails. Every call that is made
goes into a log, with the desk that it found and the response that it led to.
-/

namespace PayEra.Api.Histories

open Async (Program)
open Async.Program

/-! ### Calls -/

/-- Reading the clock, sleeping and drawing an identifier do not fail. -/
def total : DeskOp → Bool
  | .service ⟨_, .now⟩ | .service ⟨_, .uuid⟩ | .service ⟨_, .sleep _⟩ => true
  | _ => false

/-- What becomes of a call that can be answered. -/
inductive Fate where
  | returns
  /-- It fails and has no effect. -/
  | refused
  /-- It takes effect and fails. -/
  | lost
  deriving DecidableEq

structure Reception where
  oracle : Oracle
  fate : Fate := .returns
  /-- The error, if the call fails. -/
  message : String := "unavailable"

/-- The result of a call, whether it takes effect, and the desk after it. -/
def consult (x : Reception) (op : DeskOp) (d : Desk) : Except String op.Res × Bool × Desk :=
  match Desk.answer x.oracle op d with
  | none => (.error x.message, false, d)
  | some (v, d') =>
    match if total op then .returns else x.fate with
    | .returns => (.ok v, true, d')
    | .refused => (.error x.message, false, d)
    | .lost => (.error x.message, true, d')

/-! ### Histories -/

/-- A request of a user. -/
structure Visitor where
  user : Principal
  number : ℕ
  deriving DecidableEq

/-- What was posted, and what is left to do for it. -/
structure Posted where
  dto : CreateTransactionDto
  idempotencyKey : Option String
  program : DeskProgram NewTransaction

/-- A call that was made. -/
structure Call where
  visitor : Visitor
  op : DeskOp
  result : Except String op.Res
  took : Bool
  /-- The desk that it found. -/
  found : Desk
  /-- The response to the request, if this was its last call. -/
  reply : Option (Except String NewTransaction)

structure Hall where
  desk : Desk := {}
  posted : Visitor → Option Posted := fun _ => none
  log : List Call := []

/-- Time passes, and the tables change that the service only reads. -/
structure Outside where
  elapsed : ℕ
  merchants : List Merchant
  merchantQrCodes : List MerchantQrCode
  wallets : List Wallet

inductive Turn where
  | arrive (v : Visitor) (dto : CreateTransactionDto) (idempotencyKey : Option String)
  /-- The next call of a request is answered. -/
  | proceed (v : Visitor) (x : Reception)
  | outside (x : Outside)

/-- The response, once there is one. -/
def response : DeskProgram NewTransaction → Option (Except String NewTransaction)
  | .done r => some r
  | .await _ _ => none

namespace Hall

variable (h : Hall)

def become (v : Visitor) (p : Posted) : Hall :=
  { h with posted := Function.update h.posted v (some p) }

def happen (x : Outside) : Hall :=
  { h with desk.backend :=
    { h.desk.backend with
      clock := h.desk.backend.clock + x.elapsed
      merchants := x.merchants
      merchantQrCodes := x.merchantQrCodes
      wallets := x.wallets } }

/-- The next call of a request. -/
def call (v : Visitor) (x : Reception) (dto : CreateTransactionDto) (idempotencyKey : Option String)
    (op : DeskOp) (k : Except String op.Res → DeskProgram NewTransaction) : Hall where
  desk := (consult x op h.desk).2.2
  posted := Function.update h.posted v
    (some { dto, idempotencyKey, program := k (consult x op h.desk).1 })
  log := h.log ++ [
    { visitor := v, op, result := (consult x op h.desk).1, took := (consult x op h.desk).2.1
      found := h.desk, reply := response (k (consult x op h.desk).1) }]

/-- A visitor posts one request, and a request that has its response does nothing. -/
def turn (js : Js) (h : Hall) : Turn → Hall
  | .arrive v dto idempotencyKey =>
    match h.posted v with
    | some _ => h
    | none => h.become v { dto, idempotencyKey
                           program := TransactionsController.create js v.user dto idempotencyKey }
  | .proceed v x =>
    match h.posted v with
    | some ⟨dto, idempotencyKey, .await op k⟩ => h.call v x dto idempotencyKey op k
    | _ => h
  | .outside x => h.happen x

end Hall

/-- The hall after a history. -/
def play (js : Js) (H : List Turn) : Hall := H.foldl (Hall.turn js) {}

/-- The request is about to draw an identifier. -/
def Hall.draws (h : Hall) (v : Visitor) : Bool :=
  ((h.posted v).bind (·.program.next)).any fun
    | .service ⟨_, .uuid⟩ => true
    | _ => false

/-- The generator does not hand out an identifier twice. -/
def Hall.Admits (h : Hall) : Turn → Prop
  | .proceed v x => h.draws v → x.oracle.uuid ∉ h.desk.backend.uuids
  | _ => True

instance (h : Hall) : (t : Turn) → Decidable (h.Admits t)
  | .proceed v x => inferInstanceAs (Decidable (h.draws v → x.oracle.uuid ∉ h.desk.backend.uuids))
  | .arrive _ _ _ | .outside _ => .isTrue trivial

/-- A history that can happen. -/
abbrev Proper (js : Js) (H : List Turn) : Prop :=
  Unwinding.Possible (Hall.turn js) Hall.Admits {} H

/-! ### Calls are answered as at any desk -/

section Consult

variable {x : Reception} {op : DeskOp} {d : Desk}

lemma deskTotal_iff : DeskTotal op ↔ total op := by
  cases op with
  | service c =>
    obtain ⟨source, op⟩ := c
    cases op with
    | now => simp [DeskTotal, Total, total]
    | uuid => simp [DeskTotal, Total, total]
    | sleep ms => simp [DeskTotal, Total, total]
    | _ => simp [DeskTotal, Total, total]
  | _ => simp [DeskTotal, total]

/-- A call fails, with or without effect, or returns. -/
lemma consult_cases (x : Reception) (op : DeskOp) (d : Desk) :
    (consult x op d = (.error x.message, false, d) ∧
        (total op → Desk.answer x.oracle op d = none)) ∨
      ∃ v d', Desk.answer x.oracle op d = some (v, d') ∧
        (consult x op d = (.ok v, true, d') ∨
          ¬total op ∧ consult x op d = (.error x.message, true, d')) := by
  rw [consult]
  cases hans : Desk.answer x.oracle op d with
  | none => exact .inl ⟨rfl, fun _ => rfl⟩
  | some vd =>
    obtain ⟨v, d'⟩ := vd
    by_cases htotal : total op
    · rw [if_pos htotal]
      exact .inr ⟨v, d', rfl, .inl rfl⟩
    · rw [if_neg htotal]
      cases x.fate with
      | returns => exact .inr ⟨v, d', rfl, .inl rfl⟩
      | refused => exact .inl ⟨rfl, fun h => absurd h htotal⟩
      | lost => exact .inr ⟨v, d', rfl, .inr ⟨htotal, rfl⟩⟩

/-- What a request is answered in a history is what it may be answered at the desk: it returns, or it
fails with or without effect. -/
theorem consult_faulty (w : Async.Logged Desk DeskOp DeskOp.Res String)
    (hfresh : ∀ source, op = .service ⟨source, .uuid⟩ → x.oracle.uuid ∉ w.state.backend.uuids) :
    Async.faulty DeskReturns DeskTotal op w (consult x op w.state).1
      { state := (consult x op w.state).2.2, calls := w.calls ++ [⟨op, (consult x op w.state).1⟩] } := by
  refine ⟨rfl, ?_⟩
  rcases consult_cases x op w.state with ⟨heq, hnone⟩ | ⟨v, d', hans, heq | ⟨htotal, heq⟩⟩
  · simp only [heq]
    refine ⟨fun htotal => ?_, .inl trivial⟩
    have hans := hnone (deskTotal_iff.mp htotal)
    cases op with
    | service c =>
      obtain ⟨source, op⟩ := c
      rcases htotal with rfl | rfl | ⟨ms, rfl⟩
      · cases hans
      · simp [Desk.answer, Backend.answer, hfresh source rfl] at hans
      · cases hans
    | _ => exact htotal
  · simp only [heq]
    exact ⟨x.oracle, hans⟩
  · simp only [heq]
    exact ⟨fun h => htotal (deskTotal_iff.mp h), .inr ⟨v, x.oracle, hans⟩⟩

end Consult

/-! ### What a request asks for -/

/-- The columns of a new transaction that are unique. -/
inductive Unique where
  | id
  | publicId
  | settlementId
  | settledId

def Unique.of (t : NewTransaction) : Unique → String
  | .id => t.row.id
  | .publicId => t.row.publicId
  | .settlementId => t.settlement.id
  | .settledId => t.settlement.transactionId

/-- What the column holds. -/
def Unique.values (b : Backend) : Unique → List String
  | .id => b.transactions.map (·.id)
  | .publicId => b.transactions.map (·.publicId)
  | .settlementId => b.settlementInstructions.map (·.id)
  | .settledId => b.settlementInstructions.map (·.transactionId)

/-- The identifier that a call was answered with. -/
def handed : (op : DeskOp) → Except String op.Res → Option String
  | .service ⟨_, .uuid⟩, .ok id => some id
  | _, _ => none

/-- The transaction that a call wrote. -/
def created : DeskOp → Bool → Option NewTransaction
  | .service ⟨_, .createTransaction t⟩, true => some t
  | _, _ => none

/-- The response that a call stored: `upsert` leaves the row that there is. -/
def stored : DeskOp → Bool → Desk → Option ApiIdempotencyKey
  | .upsertIdempotencyKey row, true, d => if (d.find row.scope row.key).isSome then none else some row
  | _, _, _ => none

/-- The identifiers that a request was given. -/
def learn (given : List String) (op : DeskOp) (r : Except String op.Res) : List String :=
  (handed op r).toList ++ given

/-- What the service asks for: identifiers, what everybody may read, and writes of its own. -/
def MayAsk (user : Principal) (given : List String) : Op → Prop
  | .now | .uuid | .findWallet _ | .findMerchant _ | .findActiveQrCode _ _ | .fetchRates
  | .createAdminLog _ | .createReward _ => True
  | .createTransaction t => t.row.userId = user.id ∧ ∀ c : Unique, c.of t ∈ given
  | _ => False

/-- A response is saved for the user that it belongs to. -/
structure Saves (user : Principal) (row : ApiIdempotencyKey) : Prop where
  userId : row.userId = some user.id
  responseBody : ∃ t, row.responseBody = some t ∧ t.row.userId = user.id

/-- What a request asks for once it has looked its key up. -/
def May (user : Principal) (given : List String) : DeskOp → Prop
  | .service c => MayAsk user given c.op
  | .findIdempotencyKey _ _ => False
  | .upsertIdempotencyKey row => Saves user row

section Programs

variable {js : Js} {user : Principal} {dto : CreateTransactionDto} {idempotencyKey : Option String}
  {k : String} {given : List String}

/-- The controller's `create` after the lookup. -/
def rest (js : Js) (user : Principal) (dto : CreateTransactionDto) (idempotencyKey : Option String) :
    DeskProgram NewTransaction := do
  let result ← atDesk (Transactions.createResult js user dto)
  TransactionsController.save user result (truthy idempotencyKey)
  pure result

/-- What the lookup leads to. -/
def looked (js : Js) (user : Principal) (dto : CreateTransactionDto) (idempotencyKey : Option String) :
    Except String (Option ApiIdempotencyKey) → DeskProgram NewTransaction
  | .error e => .done (.error e)
  | .ok existing =>
    match existing.bind (·.responseBody) with
    | some t => .done (.ok t)
    | none => rest js user dto idempotencyKey

lemma create_of_none (h : truthy idempotencyKey = none) :
    TransactionsController.create js user dto idempotencyKey = rest js user dto idempotencyKey := by
  rw [TransactionsController.create, rest, h]
  rfl

lemma create_of_some (h : truthy idempotencyKey = some k) :
    TransactionsController.create js user dto idempotencyKey =
      .await (.findIdempotencyKey "transaction.create" k) (looked js user dto idempotencyKey) := by
  rw [TransactionsController.create, h]
  show Program.await (.findIdempotencyKey "transaction.create" k : DeskOp) _ = _
  congr 1
  funext r
  cases r with
  | error e => rfl
  | ok existing =>
    rw [looked, rest, h]
    show Program.bind (.done (.ok (Option.bind existing (·.responseBody)))) _ = _
    cases Option.bind existing (·.responseBody) with
    | none => rfl
    | some t => rfl

/-- What the service asks for, at the desk. -/
lemma tracked_atDesk {α : Type} {p : Service α} {Q : α → List String → Prop}
    (h : p.Tracked (fun given c r => learn given (.service c) r) (fun given c => MayAsk user given c.op)
      given Q) : (atDesk p).Tracked learn (May user) given Q := by
  induction p generalizing given with
  | done r =>
    cases r with
    | ok a => exact h
    | error e => trivial
  | await c k ih => exact ⟨h.1, fun r => ih r (h.2 r)⟩

/-- The checks and the quote. -/
lemma tracked_checking {α : Type} {p : Service α} {Q : α → List String → Prop} (h : p.All Checking)
    (hQ : ∀ a given, Q a given) :
    p.Tracked (fun given c r => learn given (.service c) r) (fun given c => MayAsk user given c.op)
      given Q := by
  apply tracked_of_all h _ hQ
  rintro ⟨source, op⟩ ⟨rfl, hop⟩ given
  cases op with
  | now | uuid | findWallet | findMerchant | findActiveQrCode | fetchRates => trivial
  | _ => exact hop.elim

/-- The service writes a transaction of its user, under identifiers that it was given. -/
lemma tracked_createResult :
    (Transactions.createResult js user dto).Tracked (fun given c r => learn given (.service c) r)
      (fun given c => MayAsk user given c.op) given fun t _ => t.row.userId = user.id := by
  have hask : ∀ {op : Op} {given : List String} {Q : op.Res → List String → Prop},
      MayAsk user given op → (∀ v, Q v (learn given (.service ⟨.request, op⟩) (.ok v))) →
      (Api.call .request op).Tracked (fun given c r => learn given (.service c) r)
        (fun given c => MayAsk user given c.op) given Q := fun hop hQ => tracked_perform hop hQ
  refine tracked_bind (tracked_checking Transactions.checking_resolvePayee fun _ _ => trivial)
    (Q := fun _ _ => True) fun payee given _ => ?_
  refine tracked_bind (tracked_checking Transactions.checking_createQuote fun _ _ => trivial)
    (Q := fun _ _ => True) fun quote given _ => ?_
  refine tracked_bind (hask trivial fun id => rfl)
    (Q := fun id given' => given' = id :: given) fun id given hgiven => ?_
  subst hgiven
  refine tracked_bind (hask trivial fun id => rfl)
    (Q := fun publicId given' => given' = publicId :: id :: _) fun publicId given hgiven => ?_
  subst hgiven
  refine tracked_bind (hask trivial fun id => rfl)
    (Q := fun settlementId given' => given' = settlementId :: publicId :: id :: _)
    fun settlementId given hgiven => ?_
  subst hgiven
  refine tracked_bind (hask ?_ fun _ => trivial) (Q := fun _ _ => True) fun _ given _ => ?_
  · exact ⟨rfl, fun c => by cases c <;> simp [Unique.of, Transactions.newTransaction]⟩
  refine tracked_bind (hask trivial fun _ => trivial) (Q := fun _ _ => True) fun _ given _ => ?_
  refine tracked_bind (hask trivial fun _ => trivial) (Q := fun _ _ => True) fun _ given _ => ?_
  refine tracked_bind (hask trivial fun _ => trivial) (Q := fun _ _ => True) fun _ given _ => ?_
  exact tracked_pure rfl

lemma tracked_rest : (rest js user dto idempotencyKey).Tracked learn (May user) given
    fun t _ => t.row.userId = user.id := by
  refine tracked_bind (tracked_atDesk tracked_createResult) fun result given hresult => ?_
  refine tracked_bind (Q := fun _ _ => True) ?_ fun _ given _ => tracked_pure hresult
  cases truthy idempotencyKey with
  | none => exact tracked_pure trivial
  | some k =>
    refine tracked_bind (Q := fun _ _ => True) (tracked_perform trivial fun _ => trivial)
      fun date given _ => ?_
    exact tracked_perform ⟨rfl, result, rfl, hresult⟩ fun _ => trivial

end Programs

/-! ### What a call does -/

/-- The calls of a request. -/
def Posts : DeskOp → Prop
  | .service ⟨_, op⟩ => match op with
    | .now | .uuid | .findWallet _ | .findMerchant _ | .findActiveQrCode _ _ | .fetchRates
    | .createAdminLog _ | .createReward _ | .createTransaction _ => True
    | _ => False
  | _ => True

/-- What requests only read is the same. -/
structure SameReads (d d' : Desk) : Prop where
  clock : d'.backend.clock = d.backend.clock
  merchants : d'.backend.merchants = d.backend.merchants
  merchantQrCodes : d'.backend.merchantQrCodes = d.backend.merchantQrCodes
  wallets : d'.backend.wallets = d.backend.wallets

/-- A call with its result, and what it does to the desk. -/
structure Does (op : DeskOp) (r : Except String op.Res) (took : Bool) (d d' : Desk) : Prop where
  reads : SameReads d d'
  uuids : d'.backend.uuids = (handed op r).toList ++ d.backend.uuids
  fresh : ∀ id, handed op r = some id → id ∉ d.backend.uuids
  values : ∀ c : Unique, c.values d'.backend = c.values d.backend ++ ((created op took).map c.of).toList
  keys : d'.apiIdempotencyKeys = d.apiIdempotencyKeys ++ (stored op took d).toList

section Does

variable {user : Principal} {given : List String} {op : DeskOp} {d d' : Desk} {o : Oracle}
  {x : Reception}

lemma May.posts (h : May user given op) : Posts op := by
  cases op with
  | service c =>
    obtain ⟨source, op⟩ := c
    cases op with
    | now | uuid | findWallet | findMerchant | findActiveQrCode | fetchRates | createAdminLog
    | createReward | createTransaction => trivial
    | _ => exact h.elim
  | findIdempotencyKey scope key => trivial
  | upsertIdempotencyKey row => trivial

lemma Does.refl {r : Except String op.Res} (hr : handed op r = none) (d : Desk) :
    Does op r false d d := by
  have hcreated : created op false = none := by
    cases op with
    | service c =>
      obtain ⟨source, op⟩ := c
      cases op <;> rfl
    | _ => rfl
  have hstored : stored op false d = none := by cases op <;> rfl
  refine ⟨⟨rfl, rfl, rfl, rfl⟩, ?_, fun id hid => ?_, fun c => ?_, ?_⟩
  · rw [hr]
    rfl
  · rw [hr] at hid
    cases hid
  · rw [hcreated]
    exact (List.append_nil _).symm
  · rw [hstored]
    exact (List.append_nil _).symm

lemma does_answer (hop : Posts op) {v : op.Res} (hans : Desk.answer o op d = some (v, d')) :
    Does op (.ok v) true d d' := by
  cases op with
  | service c =>
    obtain ⟨source, op⟩ := c
    rw [Desk.answer, Option.map_eq_some_iff] at hans
    obtain ⟨⟨v, b⟩, hans, heq⟩ := hans
    cases heq
    cases op with
    | now | findWallet | findMerchant | findActiveQrCode | fetchRates | createAdminLog =>
      cases hans
      exact ⟨⟨rfl, rfl, rfl, rfl⟩, rfl, fun _ h => (by cases h),
        fun c => (by cases c <;> exact (List.append_nil _).symm), (List.append_nil _).symm⟩
    | uuid =>
      rw [Backend.answer] at hans
      split_ifs at hans with hmem
      cases hans
      refine ⟨⟨rfl, rfl, rfl, rfl⟩, rfl, fun id h => ?_,
        fun c => (by cases c <;> exact (List.append_nil _).symm), (List.append_nil _).symm⟩
      cases h
      exact hmem
    | createReward reward =>
      rw [Backend.answer] at hans
      split_ifs at hans
      cases hans
      exact ⟨⟨rfl, rfl, rfl, rfl⟩, rfl, fun _ h => (by cases h),
        fun c => (by cases c <;> exact (List.append_nil _).symm), (List.append_nil _).symm⟩
    | createTransaction t =>
      rw [Backend.answer] at hans
      split_ifs at hans
      cases hans
      refine ⟨⟨rfl, rfl, rfl, rfl⟩, rfl, fun _ h => (by cases h), fun c => ?_,
        (List.append_nil _).symm⟩
      cases c <;> exact List.map_append
    | _ => exact hop.elim
  | findIdempotencyKey scope key =>
    cases hans
    exact ⟨⟨rfl, rfl, rfl, rfl⟩, rfl, fun _ h => (by cases h), fun c => (List.append_nil _).symm,
      (List.append_nil _).symm⟩
  | upsertIdempotencyKey row =>
    rw [Desk.answer] at hans
    cases hfind : d.find row.scope row.key with
    | some existing =>
      rw [hfind] at hans
      cases hans
      refine ⟨⟨rfl, rfl, rfl, rfl⟩, rfl, fun _ h => (by cases h), fun c => (List.append_nil _).symm, ?_⟩
      simp [stored, hfind]
    | none =>
      rw [hfind] at hans
      cases hans
      refine ⟨⟨rfl, rfl, rfl, rfl⟩, rfl, fun _ h => (by cases h), fun c => (List.append_nil _).symm, ?_⟩
      simp [stored, hfind]

/-- An identifier that is drawn is not lost. -/
lemma handed_of_not_total (hop : ¬total op) (r : Except String op.Res) : handed op r = none := by
  cases op with
  | service c =>
    obtain ⟨source, op⟩ := c
    cases op with
    | uuid => exact absurd rfl hop
    | _ => rfl
  | _ => rfl

lemma handed_error (op : DeskOp) (e : String) : handed op (.error e) = none := by
  cases op with
  | service c =>
    obtain ⟨source, op⟩ := c
    cases op <;> rfl
  | _ => rfl

/-- What every call of a request does. -/
theorem does_consult (hop : Posts op) :
    Does op (consult x op d).1 (consult x op d).2.1 d (consult x op d).2.2 := by
  rcases consult_cases x op d with ⟨heq, -⟩ | ⟨v, d', hans, heq | ⟨htotal, heq⟩⟩
  · simp only [heq]
    exact .refl (handed_error op _) d
  · simp only [heq]
    exact does_answer hop hans
  · simp only [heq]
    have hdoes := does_answer hop hans
    refine ⟨hdoes.reads, ?_, fun id hid => ?_, hdoes.values, hdoes.keys⟩
    · rw [hdoes.uuids, handed_of_not_total htotal, handed_error]
    · rw [handed_error] at hid
      cases hid

/-- A lookup that returns tells what is stored. -/
lemma consult_lookup (x : Reception) (scope key : String) (d : Desk) :
    (consult x (.findIdempotencyKey scope key) d).1 = .ok (d.find scope key) ∨
      (consult x (.findIdempotencyKey scope key) d).1 = .error x.message := by
  obtain ⟨o, fate, message⟩ := x
  cases fate with
  | returns => exact .inl rfl
  | refused => exact .inr rfl
  | lost => exact .inr rfl

lemma eq_of_created {took : Bool} {t : NewTransaction} (h : created op took = some t) :
    (∃ source, op = .service ⟨source, .createTransaction t⟩) ∧ took = true := by
  cases took with
  | false =>
    cases op with
    | service c =>
      obtain ⟨source, op⟩ := c
      cases op <;> cases h
    | _ => cases h
  | true =>
    cases op with
    | service c =>
      obtain ⟨source, op⟩ := c
      cases op with
      | createTransaction t' =>
        cases h
        exact ⟨⟨source, rfl⟩, rfl⟩
      | _ => cases h
    | _ => cases h

lemma eq_of_stored {took : Bool} {row : ApiIdempotencyKey} (h : stored op took d = some row) :
    op = .upsertIdempotencyKey row ∧ took = true ∧ d.find row.scope row.key = none := by
  cases op with
  | upsertIdempotencyKey row' =>
    cases took with
    | false => cases h
    | true =>
      rw [stored] at h
      split_ifs at h with hfind
      cases h
      exact ⟨rfl, rfl, Option.not_isSome_iff_eq_none.mp hfind⟩
  | _ => cases took <;> cases h

end Does

/-! ### What holds in every hall -/

/-- The identifier that a call gave to its request. -/
def Call.given (c : Call) : Option String := handed c.op c.result

/-- The request was given the identifier. -/
def Hall.Given (h : Hall) (v : Visitor) (id : String) : Prop :=
  ∃ c ∈ h.log, c.visitor = v ∧ c.given = some id

/-- How far a request is: at its lookup, past it, or answered. -/
inductive Stage (js : Js) (h : Hall) (v : Visitor) (p : Posted) : Prop
  | looking (k : String) (hprogram : p.program =
      .await (.findIdempotencyKey "transaction.create" k) (looked js v.user p.dto p.idempotencyKey))
  | asking (given : List String) (hgiven : ∀ id ∈ given, h.Given v id)
      (htracked : p.program.Tracked learn (May v.user) given fun t _ => t.row.userId = v.user.id)
  | answered (r : Except String NewTransaction) (hprogram : p.program = .done r)

/-- A lookup that returns is answered with what is stored, and leads to the response that is stored, if
there is one. -/
def Call.Looks : Call → Prop
  | ⟨_, .findIdempotencyKey scope key, .ok existing, _, found, reply⟩ =>
    existing = found.find scope key ∧
      reply = ((found.find scope key).bind (·.responseBody)).map Except.ok ∧
      ∀ row, found.find scope key = some row → row.responseBody.isSome
  | ⟨_, .findIdempotencyKey _ _, .error e, _, _, reply⟩ => reply = some (.error e)
  | _ => True

/-- Identifiers are given once, and unique columns hold given ones; a stored response is that of the
user who stored it, and there is one under each key. -/
structure Inv (js : Js) (h : Hall) : Prop where
  given_mem : ∀ v id, h.Given v id → id ∈ h.desk.backend.uuids
  given_unique : ∀ v v' id, h.Given v id → h.Given v' id → v = v'
  values : ∀ (c : Unique), ∀ id ∈ c.values h.desk.backend, id ∈ h.desk.backend.uuids
  keys : ∀ row ∈ h.desk.apiIdempotencyKeys, ∃ user, Saves user row
  unique : h.desk.apiIdempotencyKeys.Pairwise fun row row' =>
    ¬(row.scope = row'.scope ∧ row.key = row'.key)
  posted : ∀ v p, h.posted v = some p → Stage js h v p
  log : ∀ c ∈ h.log, c.Looks

section Inv

variable {js : Js} {h : Hall} {v w : Visitor} {x : Reception} {dto : CreateTransactionDto}
  {idempotencyKey : Option String} {op : DeskOp} {k : Except String op.Res → DeskProgram NewTransaction}
  {id : String}

@[simp] lemma posted_become_self {p : Posted} : (h.become v p).posted v = some p :=
  Function.update_self ..

lemma posted_become_of_ne {p : Posted} (hw : w ≠ v) : (h.become v p).posted w = h.posted w :=
  Function.update_of_ne hw ..

@[simp] lemma posted_call_self : (h.call v x dto idempotencyKey op k).posted v =
    some ⟨dto, idempotencyKey, k (consult x op h.desk).1⟩ := Function.update_self ..

lemma posted_call_of_ne (hw : w ≠ v) :
    (h.call v x dto idempotencyKey op k).posted w = h.posted w := Function.update_of_ne hw ..

lemma given_call : (h.call v x dto idempotencyKey op k).Given w id ↔
    h.Given w id ∨ v = w ∧ handed op (consult x op h.desk).1 = some id := by
  constructor
  · rintro ⟨c, hc, rfl, hid⟩
    rcases List.mem_append.mp hc with hc | hc
    · exact .inl ⟨c, hc, rfl, hid⟩
    · obtain rfl := List.mem_singleton.mp hc
      exact .inr ⟨rfl, hid⟩
  · rintro (⟨c, hc, hv, hid⟩ | ⟨rfl, hid⟩)
    · exact ⟨c, List.mem_append_left _ hc, hv, hid⟩
    · exact ⟨_, List.mem_append_right _ (List.mem_singleton_self _), rfl, hid⟩

lemma Stage.mono {h' : Hall} {p : Posted} (hs : Stage js h v p)
    (hgiven : ∀ id, h.Given v id → h'.Given v id) : Stage js h' v p := by
  cases hs with
  | looking k hprogram => exact .looking k hprogram
  | asking given hgiven' htracked => exact .asking given (fun id hid => hgiven id (hgiven' id hid)) htracked
  | answered r hprogram => exact .answered r hprogram

/-- A request that is about to make a call is at its lookup or past it. -/
lemma Stage.await_cases (hs : Stage js h v ⟨dto, idempotencyKey, .await op k⟩) :
    (∃ key, op = .findIdempotencyKey "transaction.create" key ∧
        HEq k (looked js v.user dto idempotencyKey)) ∨
      ∃ given, (∀ id ∈ given, h.Given v id) ∧ May v.user given op ∧
        ∀ r, (k r).Tracked learn (May v.user) (learn given op r) fun t _ => t.row.userId = v.user.id := by
  cases hs with
  | looking key hprogram =>
    obtain ⟨hop, hk⟩ := Program.await.inj hprogram
    exact .inl ⟨key, hop, hk⟩
  | asking given hgiven htracked => exact .inr ⟨given, hgiven, htracked.1, htracked.2⟩
  | answered r hprogram => cases hprogram

lemma Stage.posts (hs : Stage js h v ⟨dto, idempotencyKey, .await op k⟩) : Posts op := by
  rcases hs.await_cases with ⟨key, rfl, -⟩ | ⟨given, -, hmay, -⟩
  · trivial
  · exact hmay.posts

/-- What the call does to the desk. -/
lemma does_call (hs : Stage js h v ⟨dto, idempotencyKey, .await op k⟩) :
    Does op (consult x op h.desk).1 (consult x op h.desk).2.1 h.desk
      (h.call v x dto idempotencyKey op k).desk := does_consult hs.posts

/-- What the lookup leads to is a stage. -/
lemma stage_looked {p : Posted} {r : Except String (Option ApiIdempotencyKey)}
    (hp : p.program = looked js v.user p.dto p.idempotencyKey r) : Stage js h v p := by
  cases r with
  | error e => exact .answered _ hp
  | ok existing =>
    rw [looked] at hp
    cases hbody : existing.bind (·.responseBody) with
    | some t =>
      rw [hbody] at hp
      exact .answered _ hp
    | none =>
      rw [hbody] at hp
      refine .asking [] (fun _ hid => absurd hid (List.not_mem_nil)) ?_
      rw [hp]
      exact tracked_rest

lemma Stage.call (hs : Stage js h v ⟨dto, idempotencyKey, .await op k⟩) :
    Stage js (h.call v x dto idempotencyKey op k) v
      ⟨dto, idempotencyKey, k (consult x op h.desk).1⟩ := by
  rcases hs.await_cases with ⟨key, rfl, hk⟩ | ⟨given, hgiven, -, htracked⟩
  · obtain rfl := eq_of_heq hk
    exact stage_looked rfl
  · refine .asking _ (fun id hid => given_call.mpr ?_) (htracked _)
    rcases List.mem_append.mp hid with hid | hid
    · exact .inr ⟨rfl, Option.mem_toList.mp hid⟩
    · exact .inl (hgiven id hid)

/-- What a request writes has identifiers that it was given. -/
lemma Stage.given_of_created (hs : Stage js h v ⟨dto, idempotencyKey, .await op k⟩) {took : Bool}
    {t : NewTransaction} (ht : created op took = some t) (c : Unique) : h.Given v (c.of t) := by
  obtain ⟨⟨source, rfl⟩, -⟩ := eq_of_created ht
  rcases hs.await_cases with ⟨key, hop, -⟩ | ⟨given, hgiven, hmay, -⟩
  · cases hop
  · exact hgiven _ (hmay.2 c)

/-- What a request stores is its user's. -/
lemma Stage.saves (hs : Stage js h v ⟨dto, idempotencyKey, .await op k⟩) {took : Bool} {d : Desk}
    {row : ApiIdempotencyKey} (hrow : stored op took d = some row) : Saves v.user row := by
  obtain ⟨rfl, -, -⟩ := eq_of_stored hrow
  rcases hs.await_cases with ⟨key, hop, -⟩ | ⟨given, -, hmay, -⟩
  · cases hop
  · exact hmay

lemma response_looked (js : Js) (user : Principal) (dto : CreateTransactionDto)
    (idempotencyKey : Option String) (existing : Option ApiIdempotencyKey) :
    response (looked js user dto idempotencyKey (.ok existing)) =
      (existing.bind (·.responseBody)).map Except.ok := by
  rw [looked]
  cases existing.bind (·.responseBody) with
  | some t => rfl
  | none => rfl

/-- A stored response, when there is one under the key. -/
lemma Inv.stored_body (hinv : Inv js h) {scope key : String} {row : ApiIdempotencyKey}
    (hrow : h.desk.find scope key = some row) :
    ∃ user t, row.userId = some user ∧ row.responseBody = some t ∧ t.row.userId = user := by
  obtain ⟨user, hsaves⟩ := hinv.keys row (List.mem_of_find?_eq_some hrow)
  obtain ⟨t, hbody, ht⟩ := hsaves.responseBody
  exact ⟨user.id, t, hsaves.userId, hbody, ht⟩

lemma inv_init (js : Js) : Inv js {} where
  given_mem v id h := by
    obtain ⟨c, hc, -⟩ := h
    cases hc
  given_unique v w id h := by
    obtain ⟨c, hc, -⟩ := h
    cases hc
  values c id h := by cases c <;> cases h
  keys row h := by cases h
  unique := .nil
  posted v p h := by cases h
  log c h := by cases h

/-- The log entry of a call. -/
lemma Inv.looks (hinv : Inv js h) (hs : Stage js h v ⟨dto, idempotencyKey, .await op k⟩) :
    Call.Looks
      { visitor := v, op, result := (consult x op h.desk).1, took := (consult x op h.desk).2.1
        found := h.desk, reply := response (k (consult x op h.desk).1) } := by
  rcases hs.await_cases with ⟨key, rfl, hk⟩ | ⟨given, -, hmay, -⟩
  · obtain rfl := eq_of_heq hk
    rcases consult_lookup x "transaction.create" key h.desk with heq | heq
    · rw [heq]
      refine ⟨rfl, response_looked .., fun row hrow => ?_⟩
      obtain ⟨user, t, -, hbody, -⟩ := hinv.stored_body hrow
      rw [hbody]
      rfl
    · rw [heq]
      rfl
  · cases op with
    | findIdempotencyKey scope key => exact hmay.elim
    | _ => trivial

lemma Inv.call (hinv : Inv js h) (hs : Stage js h v ⟨dto, idempotencyKey, .await op k⟩) :
    Inv js (h.call v x dto idempotencyKey op k) := by
  have hdoes := does_call (x := x) hs
  have huuids : ∀ id ∈ h.desk.backend.uuids,
      id ∈ (h.call v x dto idempotencyKey op k).desk.backend.uuids := by
    intro id hid
    rw [hdoes.uuids]
    exact List.mem_append_right _ hid
  refine ⟨fun w id hid => ?_, fun w w' id hid hid' => ?_, fun c id hid => ?_, fun row hrow => ?_, ?_,
    fun w p hp => ?_, fun c hc => ?_⟩
  · rcases given_call.mp hid with hid | ⟨-, hid⟩
    · exact huuids id (hinv.given_mem w id hid)
    · rw [hdoes.uuids, hid]
      exact List.mem_cons_self ..
  · rcases given_call.mp hid with hold | ⟨rfl, hnew⟩
    · rcases given_call.mp hid' with hold' | ⟨rfl, hnew'⟩
      · exact hinv.given_unique w w' id hold hold'
      · exact absurd (hinv.given_mem w id hold) (hdoes.fresh id hnew')
    · rcases given_call.mp hid' with hold' | ⟨rfl, -⟩
      · exact absurd (hinv.given_mem w' id hold') (hdoes.fresh id hnew)
      · rfl
  · rw [hdoes.values c] at hid
    rcases List.mem_append.mp hid with hid | hid
    · exact huuids id (hinv.values c id hid)
    · obtain ⟨t, ht, rfl⟩ := Option.map_eq_some_iff.mp (Option.mem_toList.mp hid)
      exact huuids _ (hinv.given_mem v _ (hs.given_of_created ht c))
  · rw [hdoes.keys] at hrow
    rcases List.mem_append.mp hrow with hrow | hrow
    · exact hinv.keys row hrow
    · exact ⟨v.user, hs.saves (Option.mem_toList.mp hrow)⟩
  · rw [hdoes.keys, List.pairwise_append]
    refine ⟨hinv.unique, ?_, fun row hrow row' hrow' => ?_⟩
    · cases stored op (consult x op h.desk).2.1 h.desk with
      | none => exact .nil
      | some row => exact List.pairwise_singleton ..
    · obtain ⟨-, -, hnone⟩ := eq_of_stored (Option.mem_toList.mp hrow')
      exact fun heq => List.find?_eq_none.mp hnone row hrow (decide_eq_true heq)
  · have hgiven : ∀ id, h.Given w id → (h.call v x dto idempotencyKey op k).Given w id :=
      fun id hid => given_call.mpr (.inl hid)
    by_cases hw : w = v
    · subst hw
      rw [posted_call_self] at hp
      cases hp
      exact hs.call
    · rw [posted_call_of_ne hw] at hp
      exact (hinv.posted w p hp).mono hgiven
  · rcases List.mem_append.mp hc with hc | hc
    · exact hinv.log c hc
    · obtain rfl := List.mem_singleton.mp hc
      exact hinv.looks hs

/-- A request that arrives is at its lookup, or has no key. -/
lemma stage_create {p : Posted}
    (hp : p.program = TransactionsController.create js v.user p.dto p.idempotencyKey) :
    Stage js h v p := by
  cases hkey : truthy p.idempotencyKey with
  | none =>
    rw [create_of_none hkey] at hp
    refine .asking [] (fun _ hid => absurd hid List.not_mem_nil) ?_
    rw [hp]
    exact tracked_rest
  | some key =>
    rw [create_of_some hkey] at hp
    exact .looking key hp

/-- **Every turn keeps what holds in every hall.** -/
theorem Inv.turn (hinv : Inv js h) (t : Turn) : Inv js (h.turn js t) := by
  cases t with
  | arrive v dto idempotencyKey =>
    rw [Hall.turn]
    cases hv : h.posted v with
    | some p => exact hinv
    | none =>
      refine { hinv with posted := fun w p hp => Stage.mono (h := h) ?_ fun _ hid => hid }
      by_cases hw : w = v
      · subst hw
        rw [posted_become_self] at hp
        cases hp
        exact stage_create rfl
      · rw [posted_become_of_ne hw] at hp
        exact hinv.posted w p hp
  | proceed v x =>
    rw [Hall.turn]
    cases hv : h.posted v with
    | none => exact hinv
    | some p =>
      obtain ⟨dto, idempotencyKey, program⟩ := p
      cases program with
      | done r => exact hinv
      | await op k => exact hinv.call (hinv.posted v _ hv)
  | outside x =>
    refine { hinv with
      values := fun c id hid => hinv.values c id (by cases c <;> exact hid)
      posted := fun w p hp => (hinv.posted w p hp).mono fun _ hid => hid }

theorem inv_play (js : Js) (H : List Turn) : Inv js (play js H) := by
  have hrun : ∀ h, Inv js h → Inv js (H.foldl (Hall.turn js) h) := by
    induction H with
    | nil => exact fun h hinv => hinv
    | cons t H ih => exact fun h hinv => ih _ (hinv.turn t)
  exact hrun _ (inv_init js)

end Inv

end PayEra.Api.Histories
