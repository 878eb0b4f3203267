import PayEra.Ramps.Database
import PayEra.Api.Database
import PayEra.Lib.Json
import PayEra.Lib.Script

/-!
# KYC

`apps/api/src/kyc/kyc.service.ts`. A webhook looks its user up by the reference of the applicant, and
then writes the status by the user's id; in the meantime another verification may have been started,
with another reference. A user is verified for the current reference as long as no webhook that reports
a completion writes to a user whose verification was started again since its lookup.
-/

namespace PayEra.Api.Kyc

open Ramps (KycStatus)
open Async (Program Event Journal Setting Script upon)
open Async.Program Async.Script

/-! ### Data -/

/-- The condition that Prisma takes a value for, on a column of optional strings. A string means equality,
an object is a filter, and there are values that Prisma refuses. -/
structure Prisma where
  where' : Json → Option (Option String → Bool)
  where_str : ∀ s, where' (.str s) = some fun r => decide (r = some s)

structure User where
  id : String
  kycStatus : KycStatus := .NONE
  kycReference : Option String := none
  kycVerifiedAt : Option ℕ := none
  deletedAt : Option ℕ := none
  deriving DecidableEq

structure OutboxEvent where
  aggregateType : String
  aggregateId : String
  eventType : String
  payload : Metadata
  deriving DecidableEq

/-- The body of KYCAID's answer; a field that is missing is `undefined`. -/
structure Applicant where
  applicant_id : Option String
  form_url : Option String

/-- KYCAID's answer. -/
structure Response where
  ok : Bool
  statusText : String
  json : Except String Applicant

structure Registry where
  users : List User := []
  adminLogs : List AdminLog := []
  outboxEvents : List OutboxEvent := []

def Registry.user (d : Registry) (id : String) : Option User := d.users.find? (·.id = id)

/-! ### Calls -/

inductive Op where
  /-- The `findFirst` of a webhook. -/
  | findUser (applicantId : Json)
  /-- The `$transaction` of a webhook. -/
  | recordStatus (userId : String) (previousStatus kycStatus : KycStatus)
  | createApplicant
  /-- The `update` of `createVerification`; `undefined` leaves the reference. -/
  | startVerification (userId : String) (applicantId : Option String)
  | createAdminLog (log : AdminLog)

abbrev Op.Res : Op → Type
  | .findUser _ => Option User
  | .createApplicant => Response
  | _ => Unit

/-- What the calls leave open. -/
structure Oracle where
  now : ℕ
  response : Response

def User.record (u : User) (kycStatus : KycStatus) (now : ℕ) : User :=
  { u with
    kycStatus
    kycVerifiedAt := if kycStatus = .VERIFIED then some now else u.kycVerifiedAt }

def User.start (u : User) (applicantId : Option String) : User :=
  { u with kycReference := applicantId <|> u.kycReference, kycStatus := .PENDING }

/-- What a call does when it returns. -/
def Registry.answer (prisma : Prisma) (o : Oracle) : (op : Op) → Registry → Option (op.Res × Registry)
  | .findUser applicantId, d =>
    (prisma.where' applicantId).map fun p =>
      (d.users.find? fun u => p u.kycReference && u.deletedAt.isNone, d)
  | .recordStatus userId previousStatus kycStatus, d =>
    (d.user userId).map fun _ => ((), { d with
      users := updateWhere (·.id = userId) (·.record kycStatus o.now) d.users
      adminLogs := d.adminLogs ++
        [{ actorUserId := none, action := "KYC_STATUS_UPDATED", targetType := "USER"
           targetId := userId
           metadata := [("previousStatus", previousStatus.name), ("newStatus", kycStatus.name),
             ("provider", "KYCAID")] }]
      outboxEvents := d.outboxEvents ++
        [{ aggregateType := "USER", aggregateId := userId, eventType := "USER_KYC_UPDATED"
           payload := [("userId", userId), ("kycStatus", kycStatus.name)] }] })
  | .createApplicant, d => some (o.response, d)
  | .startVerification userId applicantId, d =>
    (d.user userId).map fun _ => ((), { d with
      users := updateWhere (·.id = userId) (·.start applicantId) d.users })
  | .createAdminLog log, d => some ((), { d with adminLogs := d.adminLogs ++ [log] })

/-! ### The service -/

abbrev Service (α : Type) := Program Op Op.Res String α

def call (op : Op) : Service op.Res := Program.perform op

namespace KycService

/-- The status that a webhook reports. -/
def kycStatus (status : Json) : KycStatus :=
  if status.isStr "completed" then .VERIFIED
  else if status.isStr "declined" ∨ status.isStr "rejected" then .REJECTED
  else .PENDING

/-- The answer says whether the webhook was a `success`. -/
def processWebhook (payload : Json) : Service Bool := do
  let applicantId : Option Json ← Program.done (payload.get "applicant_id")
  let status : Option Json ← Program.done (payload.get "status")
  match applicantId.filter Json.truthy, status.filter Json.truthy with
  | some applicantId, some status =>
    let user : Option User ← call (.findUser applicantId)
    match user with
    | none => pure false
    | some user =>
      call (.recordStatus user.id user.kycStatus (kycStatus status))
      pure true
  | _, _ => pure false

/-- The answer is the URL of the form. -/
def createVerification (configured : Bool) (userId : String) : Service (Option String) := do
  if configured = false then throw "KYCAID not configured" else
    let response : Response ← call .createApplicant
    if response.ok = false then throw ("KYCAID error: " ++ response.statusText) else
      let data : Applicant ← Program.done response.json
      call (.startVerification userId data.applicant_id)
      call (.createAdminLog
        { actorUserId := some userId, action := "KYC_VERIFICATION_STARTED", targetType := "USER"
          targetId := userId
          metadata := (data.applicant_id.map fun id => ("applicantId", id)).toList })
      pure data.form_url

end KycService

/-! ### Sessions -/

inductive Asked where
  | webhook (payload : Json)
  | start (userId : String)

def Asked.program (configured : Bool) : Asked → Service Unit
  | .webhook payload => do
    let _ ← KycService.processWebhook payload
  | .start userId => do
    let _ ← KycService.createVerification configured userId

def Returns (prisma : Prisma) (op : Op) (d : Registry) (v : op.Res) (d' : Registry) : Prop :=
  ∃ o, Registry.answer prisma o op d = some (v, d')

/-- Nobody is verified yet. -/
structure Registry.Opened (d : Registry) : Prop where
  unique : (d.users.map (·.id)).Nodup
  unverified : ∀ id u, d.user id = some u → u.kycStatus ≠ .VERIFIED

/-- The rest of the system leaves the columns of KYC alone; users are created without. -/
structure Registry.Other (d d' : Registry) : Prop where
  unique : (d.users.map (·.id)).Nodup → (d'.users.map (·.id)).Nodup
  kept : ∀ id u, d.user id = some u → ∃ u', d'.user id = some u' ∧ u'.kycStatus = u.kycStatus ∧
    u'.kycReference = u.kycReference
  created : ∀ id u, d.user id = none → d'.user id = some u → u.kycStatus = .NONE

/-- What happens in a session. -/
abbrev Happening := Event Asked Op (Except String Unit)

abbrev Happening.Res (e : Happening) : Type := Async.Event.Res Op.Res e

abbrev Clinic := Journal Registry Asked Op Op.Res String Unit

/-- A call that took effect. -/
abbrev Done := Async.Effect Registry Op

abbrev InProgress := Program Happening (Event.Res Op.Res) String Unit

abbrev ClinicCondition :=
  Multiset InProgress → (e : Happening) → Clinic → Except String (Happening.Res e) → Prop

/-- Any interleaving of webhooks and verifications that are started, with any failures. -/
abbrev clinicStaffing (prisma : Prisma) (configured : Bool) (cond : ClinicCondition) :
    Setting Clinic Happening (Event.Res Op.Res) String :=
  Async.sessions (Returns prisma) (fun _ => False) (fun _ => False) (Asked.program configured)
    Registry.Opened Registry.Other cond

abbrev clinic (prisma : Prisma) (configured : Bool) (cond : ClinicCondition) :=
  Async.system (clinicStaffing prisma configured cond)

abbrev ClinicState := Async.Pool Clinic Happening (Event.Res Op.Res) String

/-! ### Completions that were received -/

/-- The webhook reports that an applicant has completed the verification. -/
def Completes (payload : Json) (applicantId : String) : Prop :=
  payload.get "applicant_id" = .ok (some (.str applicantId)) ∧
    payload.get "status" = .ok (some (.str "completed"))

/-- A completion has been received for the applicant. -/
def Received (w : Clinic) (applicantId : String) : Prop :=
  ∃ n payload, w.Begun n (.webhook payload) ∧ Completes payload applicantId

/-- Users are verified for their current reference. -/
def Belongs (w : Clinic) : Prop :=
  ∀ id u, w.state.user id = some u → u.kycStatus = .VERIFIED →
    ∃ applicantId, u.kycReference = some applicantId ∧ Received w applicantId

/-- The call has started a verification of the user. -/
def Starts (id : String) (e : Done) : Prop := ∃ applicantId, e.op = .startVerification id applicantId

/-- The lookup of a webhook. -/
def Op.Looks : Op → Prop
  | .findUser _ => True
  | _ => False

/-- A completion names its applicant by a string, if it names one at all. -/
def Named (payload : Json) : Prop :=
  payload.get "status" = .ok (some (.str "completed")) → ∀ applicantId,
    payload.get "applicant_id" = .ok (some applicantId) → applicantId.truthy →
      ∃ s, applicantId = .str s

/-- Completions name their applicants, and none is written to a user whose verification was started
again since the session has looked the user up. -/
def current : ClinicCondition := fun _ e w _ =>
  match e with
  | .begin _ (.webhook payload) => Named payload
  | .call n (.recordStatus id _ .VERIFIED) => ¬Async.Missed (Starts id) Op.Looks n w.effects
  | _ => True

/-! ### What calls do to a user -/

/-- What becomes of a user. -/
def Op.touch (o : Oracle) : Op → User → User
  | .recordStatus id _ kycStatus, u => if u.id = id then u.record kycStatus o.now else u
  | .startVerification id applicantId, u => if u.id = id then u.start applicantId else u
  | _, u => u

section Touch

variable {prisma : Prisma} {d d' : Registry} {o : Oracle} {op : Op} {id : String} {u : User}

@[simp] lemma touch_id (o : Oracle) (op : Op) (u : User) : (op.touch o u).id = u.id := by
  cases op with
  | recordStatus i previousStatus kycStatus =>
    rw [Op.touch]
    split_ifs
    · rfl
    · rfl
  | startVerification i applicantId =>
    rw [Op.touch]
    split_ifs
    · rfl
    · rfl
  | _ => rfl

lemma id_of_user (h : d.user id = some u) : u.id = id := by simpa using List.find?_some h

/-- The users after a call. -/
lemma users_answer {v : op.Res} (h : Registry.answer prisma o op d = some (v, d')) :
    d'.users = d.users.map (op.touch o) := by
  cases op with
  | findUser applicantId =>
    obtain ⟨p, -, heq⟩ := Option.map_eq_some_iff.mp h
    cases heq
    exact (List.map_id' d.users).symm
  | recordStatus i previousStatus kycStatus =>
    obtain ⟨u, -, heq⟩ := Option.map_eq_some_iff.mp h
    cases heq
    simp only [updateWhere, decide_eq_true_eq]
    rfl
  | createApplicant =>
    cases h
    exact (List.map_id' d.users).symm
  | startVerification i applicantId =>
    obtain ⟨u, -, heq⟩ := Option.map_eq_some_iff.mp h
    cases heq
    simp only [updateWhere, decide_eq_true_eq]
    rfl
  | createAdminLog log =>
    cases h
    exact (List.map_id' d.users).symm

lemma user_answer {v : op.Res} (h : Registry.answer prisma o op d = some (v, d')) (id : String) :
    d'.user id = (d.user id).map (op.touch o) := by
  rw [Registry.user, users_answer h, List.find?_map, Registry.user]
  congr 2
  funext u
  simp

lemma nodup_answer {v : op.Res} (h : Registry.answer prisma o op d = some (v, d'))
    (hd : (d.users.map (·.id)).Nodup) : (d'.users.map (·.id)).Nodup := by
  rw [users_answer h, List.map_map]
  have hid : (fun u : User => u.id) ∘ op.touch o = fun u => u.id := by
    funext u
    exact touch_id o op u
  rwa [hid]

/-- A user that is looked up has the reference. -/
lemma returns_findUser {s : String} {v : Option User} (hd : (d.users.map (·.id)).Nodup)
    (h : Returns prisma (.findUser (.str s)) d v d') (hv : v = some u) :
    d.user u.id = some u ∧ u.kycReference = some s := by
  obtain ⟨o, h⟩ := h
  rw [Registry.answer, prisma.where_str, Option.map_some] at h
  obtain ⟨hfind, -⟩ := Prod.mk.inj (Option.some.inj h)
  rw [hv] at hfind
  have hmem := List.mem_of_find?_eq_some hfind
  have hp := List.find?_some hfind
  simp only [Bool.and_eq_true, decide_eq_true_eq] at hp
  refine ⟨?_, hp.1⟩
  obtain ⟨u', hu'⟩ : ∃ u', d.user u.id = some u' :=
    Option.isSome_iff_exists.mp (List.find?_isSome.mpr ⟨u, hmem, decide_eq_true rfl⟩)
  rw [hu', List.inj_on_of_nodup_map hd (List.mem_of_find?_eq_some hu') hmem (id_of_user hu')]

end Touch

/-! ### The script -/

/-- Where a session is: what it was asked, and the user that it has found. -/
abbrev Place := Asked × Option User

/-- A webhook looks its applicant up, and writes what it reports to the user that it has found. -/
def script : Script Asked Op Op.Res String Place where
  start q := (q, none)
  may κ
    | .findUser applicantId => ∃ payload, κ.1 = .webhook payload ∧
        payload.get "applicant_id" = .ok (some applicantId)
    | .recordStatus id _ kycStatus => ∃ payload applicantId status u, κ = (.webhook payload, some u) ∧
        payload.get "applicant_id" = .ok (some applicantId) ∧ applicantId.truthy ∧
          payload.get "status" = .ok (some status) ∧ u.id = id ∧ kycStatus = KycService.kycStatus status
    | _ => True
  leads κ
    | .findUser _, .ok found, κ' => κ' = (κ.1, found)
    | .findUser _, .error _, κ' => κ' = (κ.1, none)
    | _, _, κ' => κ' = κ

section Admits

variable {configured : Bool} {q : Asked} {κ : Place}

/-- No postcondition. -/
abbrev anywhere {α : Type} : Except String α → Place → Prop := upon (fun _ _ => True) fun _ => True

lemma admits_processWebhook (payload : Json) :
    script.Admits (KycService.processWebhook payload) (.webhook payload, none) anywhere := by
  have hget (key : String) : script.Admits (Program.done (payload.get key)) (.webhook payload, none)
      (upon (fun a κ => κ = (.webhook payload, none) ∧ payload.get key = .ok a) fun _ => True) := by
    cases h : payload.get key with
    | ok a => exact ⟨rfl, rfl⟩
    | error e => trivial
  refine admits_bind (hget "applicant_id") ?_
  rintro applicantId κ ⟨rfl, hid⟩
  refine admits_bind (hget "status") ?_
  rintro status κ ⟨rfl, hstatus⟩
  split
  · rename_i a b ha hb
    obtain ⟨ha, htruthy⟩ := Option.filter_eq_some_iff.mp ha
    have hb := (Option.filter_eq_some_iff.mp hb).1
    subst ha hb
    refine admits_call ⟨payload, rfl, hid⟩ (fun _ _ _ => trivial) ?_
    rintro found κ rfl
    cases found with
    | none => trivial
    | some user =>
      exact admits_call ⟨payload, a, b, user, rfl, hid, htruthy, hstatus, rfl, rfl⟩ (fun _ _ _ => trivial)
        fun _ κ _ => trivial
  · trivial

lemma admits_createVerification {userId : String} :
    script.Admits (KycService.createVerification configured userId) κ anywhere := by
  rw [KycService.createVerification]
  split_ifs
  · trivial
  refine admits_call trivial (fun _ _ _ => trivial) fun response κ _ => ?_
  split_ifs
  · trivial
  refine admits_bind (R := fun _ _ => True) (upon_true response.json κ) fun data κ _ => ?_
  refine admits_call trivial (fun _ _ _ => trivial) fun _ κ _ => ?_
  exact admits_call trivial (fun _ _ _ => trivial) fun _ κ _ => trivial

/-- **Every session keeps to the script.** -/
theorem admits_program (q : Asked) :
    script.Admits (q.program configured) (script.start q) fun _ _ => True := by
  suffices h : script.Admits (q.program configured) (q, none) anywhere from h.mono fun _ _ _ => trivial
  cases q with
  | webhook payload => exact admits_bind (admits_processWebhook payload) fun _ _ _ => trivial
  | start userId => exact admits_bind admits_createVerification fun _ _ _ => trivial

end Admits

/-! ### The invariant -/

/-- The user still has the reference, or the session `n` has missed that another verification was
started. -/
def Held (n : ℕ) (id applicantId : String) (w : Clinic) : Prop :=
  (∃ u, w.state.user id = some u ∧ u.kycReference = some applicantId) ∨
    Async.Missed (Starts id) Op.Looks n w.effects

/-- Users are verified for their current reference, and what the webhooks have found is current unless
they have missed something. -/
structure Attending (w : Clinic) (f : Multiset (Option (ℕ × Place))) : Prop where
  unique : (w.state.users.map (·.id)).Nodup
  belongs : Belongs w
  held : ∀ n payload u, some (n, (.webhook payload, some u)) ∈ f → ∀ applicantId,
    payload.get "applicant_id" = .ok (some (.str applicantId)) → Held n u.id applicantId w

/-- A session is asked what its place says. -/
def Knows (n : ℕ) (κ : Place) (w : Clinic) : Prop :=
  w.Begun n κ.1 ∧ ∀ payload, κ.1 = .webhook payload → Named payload

section Attending

variable {prisma : Prisma} {w w' : Clinic} {f : Multiset (Option (ℕ × Place))} {n m : ℕ} {κ : Place}
  {op : Op} {r : Except String op.Res} {id applicantId : String}

abbrev Happens (prisma : Prisma) (e : Happening) (w : Clinic) (r : Except String (Happening.Res e))
    (w' : Clinic) : Prop :=
  Async.happens (Returns prisma) (fun _ => False) (fun _ => False) e w r w'

/-- Nothing that was received is forgotten. -/
lemma Received.mono (h : Received w applicantId) (hentries : w.entries ⊆ w'.entries) :
    Received w' applicantId := by
  obtain ⟨n, payload, hbegun, hcompletes⟩ := h
  exact ⟨n, payload, hentries hbegun, hcompletes⟩

lemma entries_subset {e : Happening} {r : Except String (Happening.Res e)} (h : Happens prisma e w r w') :
    w.entries ⊆ w'.entries := by
  rw [Async.happens_entries h]
  exact List.subset_append_left ..

lemma Belongs.congr (h : Belongs w) (hstate : w'.state = w.state) (hentries : w.entries ⊆ w'.entries) :
    Belongs w' := by
  intro id u hu hverified
  rw [hstate] at hu
  obtain ⟨applicantId, href, hreceived⟩ := h id u hu hverified
  exact ⟨applicantId, href, hreceived.mono hentries⟩

lemma Held.congr (h : Held n id applicantId w) (hstate : w'.state = w.state)
    (heffects : w'.effects = w.effects) : Held n id applicantId w' := by
  rw [Held, hstate, heffects]
  exact h

/-- A call keeps what is held, unless it is the session's own lookup. -/
lemma Held.happens (h : Held n id applicantId w) (hcall : Happens prisma (.call m op) w r w')
    (hop : m = n → ¬op.Looks) : Held n id applicantId w' := by
  rcases Async.happens_call hcall with ⟨hstate, heffects⟩ | ⟨⟨v, o, hanswer⟩, heffects⟩
  · exact h.congr hstate heffects
  rw [Held, heffects, Async.missed_snoc]
  rcases h with ⟨u, hu, href⟩ | hmissed
  · by_cases hstarts : Starts id ⟨m, op, w.state⟩
    · exact .inr (.inl hstarts)
    · refine .inl ⟨op.touch o u, by rw [user_answer hanswer, hu]; rfl, ?_⟩
      cases op with
      | startVerification i a =>
        rw [Op.touch]
        split_ifs with hi
        · rw [id_of_user hu] at hi
          exact absurd ⟨a, by rw [hi]⟩ hstarts
        · exact href
      | recordStatus i previousStatus kycStatus =>
        rw [Op.touch]
        split_ifs
        · exact href
        · exact href
      | _ => exact href
  · exact .inr (.inr ⟨hmissed, hop⟩)

/-- The status of a completion. -/
lemma completed_of_verified {status : Json} (h : KycService.kycStatus status = .VERIFIED) :
    status = .str "completed" := by
  rw [KycService.kycStatus] at h
  split_ifs at h with hcompleted
  cases status with
  | str s =>
    rw [Json.isStr, decide_eq_true_eq] at hcompleted
    rw [hcompleted]
  | _ => cases hcompleted

/-- A call keeps users verified for their current reference. -/
lemma Belongs.happens (h : Belongs w) (hmay : script.may κ op) (hknows : Knows n κ w)
    (hheld : ∀ payload u, κ = (.webhook payload, some u) → ∀ applicantId,
      payload.get "applicant_id" = .ok (some (.str applicantId)) → Held n u.id applicantId w)
    {rest : Multiset InProgress} (hcurrent : current rest (.call n op) w r)
    (hcall : Happens prisma (.call n op) w r w') : Belongs w' := by
  have hentries := entries_subset hcall
  rcases Async.happens_call hcall with ⟨hstate, -⟩ | ⟨⟨v, o, hanswer⟩, -⟩
  · exact h.congr hstate hentries
  intro id u' hu' hverified
  rw [user_answer hanswer] at hu'
  obtain ⟨u, hu, rfl⟩ := Option.map_eq_some_iff.mp hu'
  have hold (hsame : op.touch o u = u) : ∃ applicantId,
      (op.touch o u).kycReference = some applicantId ∧ Received w' applicantId := by
    rw [hsame] at hverified ⊢
    obtain ⟨applicantId, href, hreceived⟩ := h id u hu hverified
    exact ⟨applicantId, href, hreceived.mono hentries⟩
  cases op with
  | recordStatus i previousStatus kycStatus =>
    by_cases hi : u.id = i
    swap
    · exact hold (if_neg hi)
    have htouch : Op.touch o (.recordStatus i previousStatus kycStatus) u = u.record kycStatus o.now :=
      if_pos hi
    obtain ⟨payload, a, status, found, rfl, hget, htruthy, hstatus, hfound, rfl⟩ := hmay
    rw [htouch] at hverified ⊢
    have hcompleted : KycService.kycStatus status = .VERIFIED := hverified
    have hstr := completed_of_verified hcompleted
    subst hstr
    obtain ⟨s, rfl⟩ := hknows.2 payload rfl hstatus a hget htruthy
    rcases hheld payload found rfl s hget with ⟨u₀, hu₀, href⟩ | hmissed
    · rw [hfound, ← hi, id_of_user hu, hu] at hu₀
      obtain rfl := Option.some.inj hu₀
      exact ⟨s, href, n, payload, hentries hknows.1, hget, hstatus⟩
    · rw [hfound] at hmissed
      exact absurd hmissed hcurrent
  | startVerification i applicantId =>
    by_cases hi : u.id = i
    · have htouch : Op.touch o (.startVerification i applicantId) u = u.start applicantId := if_pos hi
      rw [htouch] at hverified
      cases hverified
    · exact hold (if_neg hi)
  | _ => exact hold rfl

/-- Every call but the lookup leaves a session where it is. -/
lemma leads_same (hop : ¬op.Looks) (r : Except String op.Res) : script.leads κ op r κ := by
  cases op with
  | findUser applicantId => exact absurd trivial hop
  | _ => rfl

/-- What is held when a user is found. -/
lemma held_of_findUser {x : Json} {found : Option User} {u : User}
    (hunique : (w.state.users.map (·.id)).Nodup) (hfound : found = some u)
    (hcall : Happens prisma (.call n (.findUser x)) w (.ok found) w') (hx : x = .str applicantId) :
    Held n u.id applicantId w' := by
  subst hx
  obtain ⟨-, ⟨o, hanswer⟩, -⟩ := hcall
  obtain ⟨hu, href⟩ := returns_findUser hunique ⟨o, hanswer⟩ hfound
  exact .inl ⟨u, by rw [user_answer hanswer, hu]; rfl, href⟩

lemma nodup_happens (hcall : Happens prisma (.call n op) w r w')
    (h : (w.state.users.map (·.id)).Nodup) : (w'.state.users.map (·.id)).Nodup := by
  rcases Async.happens_call hcall with ⟨hstate, -⟩ | ⟨⟨v, o, hanswer⟩, -⟩
  · rwa [hstate]
  · exact nodup_answer hanswer h

lemma Knows.agrees (h : Knows n κ w) (hagrees : w.Agrees n w') : Knows n κ w' :=
  ⟨hagrees.begun.mpr h.1, h.2⟩

lemma Knows.happens {e : Happening} {r : Except String (Happening.Res e)} (h : Knows n κ w)
    (hhappens : Happens prisma e w r w') : Knows n κ w' :=
  ⟨entries_subset hhappens h.1, h.2⟩

end Attending

/-- The condition without the other sessions. -/
abbrev currently (e : Happening) (w : Clinic) (r : Except String (Happening.Res e)) : Prop :=
  current 0 e w r

lemma attending_keeps {prisma : Prisma} : script.Keeps (Returns prisma) (fun _ => False)
    (fun _ => False) (β := Unit) currently Attending Knows where
  own _ _ _ _ hagrees h := h.agrees hagrees
  begin n q w f r w' hbase hentries heffects hallowed hhappens := by
    have hsubset := entries_subset hhappens
    obtain ⟨rfl, -, rfl⟩ := hhappens
    refine ⟨⟨hbase.unique, hbase.belongs.congr rfl hsubset, fun m payload u hmem a ha => ?_⟩, ?_, ?_⟩
    · rcases Multiset.mem_cons.mp hmem with heq | hmem
      · cases heq
      · exact (hbase.held m payload u (Multiset.mem_cons_of_mem hmem) a ha).congr rfl rfl
    · exact List.mem_append_right _ (List.mem_singleton.mpr rfl)
    · rintro payload hq
      obtain rfl : q = .webhook payload := hq
      exact hallowed
  finish n κ a w f r w' hinv hmine hallowed hhappens := by
    have hsubset := entries_subset hhappens
    obtain ⟨-, rfl⟩ := hhappens
    refine ⟨hinv.base.unique, hinv.base.belongs.congr rfl hsubset, fun m payload u hmem a ha => ?_⟩
    rcases Multiset.mem_cons.mp hmem with heq | hmem
    · cases heq
    · exact (hinv.base.held m payload u (Multiset.mem_cons_of_mem hmem) a ha).congr rfl rfl
  call n κ op w f r w' hmay hinv hmine hallowed hhappens := by
    have hbelongs : Belongs w' := by
      refine hinv.base.belongs.happens hmay hmine (fun payload u hκ a ha => ?_) hallowed hhappens
      subst hκ
      exact hinv.base.held n payload u (Multiset.mem_cons_self ..) a ha
    have hothers {m : ℕ} {payload : Json} {u : User} (hmem : some (m, (Asked.webhook payload, some u)) ∈ f)
        (a : String) (ha : payload.get "applicant_id" = .ok (some (.str a))) : Held m u.id a w' := by
      have hne : n ≠ m := hinv.number_ne rfl hmem rfl
      exact (hinv.base.held m payload u (Multiset.mem_cons_of_mem hmem) a ha).happens hhappens
        fun heq => absurd heq hne
    by_cases hop : op.Looks
    swap
    · refine ⟨κ, leads_same hop r, ⟨nodup_happens hhappens hinv.base.unique, hbelongs, ?_⟩,
        hmine.happens hhappens⟩
      intro m payload u hmem a ha
      rcases Multiset.mem_cons.mp hmem with heq | hmem
      · cases heq
        exact (hinv.base.held n payload u (Multiset.mem_cons_self ..) a ha).happens hhappens fun _ => hop
      · exact hothers hmem a ha
    cases op with
    | findUser x =>
      cases r with
      | error e =>
        refine ⟨(κ.1, none), rfl, ⟨nodup_happens hhappens hinv.base.unique, hbelongs, ?_⟩,
          hmine.happens hhappens⟩
        intro m payload u hmem a ha
        rcases Multiset.mem_cons.mp hmem with heq | hmem
        · obtain ⟨-, heq⟩ := Prod.mk.inj (Option.some.inj heq)
          cases (Prod.mk.inj heq).2
        · exact hothers hmem a ha
      | ok found =>
        refine ⟨(κ.1, found), rfl, ⟨nodup_happens hhappens hinv.base.unique, hbelongs, ?_⟩,
          hmine.happens hhappens⟩
        intro m payload u hmem a ha
        rcases Multiset.mem_cons.mp hmem with heq | hmem
        · obtain ⟨rfl, heq⟩ := Prod.mk.inj (Option.some.inj heq)
          obtain ⟨hasked, hfound⟩ := Prod.mk.inj heq
          obtain ⟨payload', hκ, hget⟩ := hmay
          rw [hκ] at hasked
          cases hasked
          rw [hget] at ha
          exact held_of_findUser hinv.base.unique hfound.symm hhappens (by cases ha; rfl)
        · exact hothers hmem a ha
    | _ => exact hop.elim

lemma Belongs.other {w w' : Clinic} (h : Belongs w) (hentries : w'.entries = w.entries)
    (hother : Registry.Other w.state w'.state) : Belongs w' := by
  intro id u' hu' hverified
  cases hu : w.state.user id with
  | none =>
    rw [hother.created id u' hu hu'] at hverified
    cases hverified
  | some u =>
    obtain ⟨u'', hu'', hstatus, href⟩ := hother.kept id u hu
    obtain rfl := Option.some.inj (hu'.symm.trans hu'')
    rw [hstatus] at hverified
    obtain ⟨applicantId, hold, hreceived⟩ := h id u hu hverified
    exact ⟨applicantId, href.trans hold, hreceived.mono (by rw [hentries]; exact List.Subset.refl _)⟩

lemma Held.other {w w' : Clinic} {n : ℕ} {id applicantId : String} (h : Held n id applicantId w)
    (heffects : w'.effects = w.effects) (hother : Registry.Other w.state w'.state) :
    Held n id applicantId w' := by
  rcases h with ⟨u, hu, href⟩ | hmissed
  · obtain ⟨u', hu', -, href'⟩ := hother.kept id u hu
    exact .inl ⟨u', hu', href'.trans href⟩
  · exact .inr (by rwa [heffects])

theorem attending_governs {prisma : Prisma} {configured : Bool} :
    Async.Governs ((script.protocol currently Attending Knows).discipline (Returns prisma)
      (fun _ => False) (fun _ => False)) (clinicStaffing prisma configured current) := by
  refine attending_keeps.governs ?_ ?_ ?_ (fun _ _ _ _ h => h) admits_program
  · rintro w hopened hentries -
    refine ⟨hopened.unique, fun id u hu hverified => ?_, fun n payload u hmem => ?_⟩
    · exact absurd hverified (hopened.unverified id u hu)
    · exact absurd hmem (Multiset.notMem_zero _)
  · intro w f h
    refine ⟨h.unique, h.belongs, fun n payload u hmem => ?_⟩
    rcases Multiset.mem_cons.mp hmem with heq | hmem
    · cases heq
    · exact h.held n payload u hmem
  · intro w w' f hentries heffects hother h
    refine ⟨hother.unique h.unique, h.belongs.other hentries hother, fun n payload u hmem a ha => ?_⟩
    exact (h.held n payload u hmem a ha).other heffects hother

/-- **KYC verification belongs to the current applicant** as long as completions are written in time: a
user who is verified has the reference of a completion that was received, and where none was received for
the reference by then, a new one has been. -/
theorem verification_is_current {prisma : Prisma} {configured : Bool} {s t : ClinicState}
    {tr : List (Transition.Move ClinicState (Async.Label Happening (Event.Res Op.Res) String))}
    (hs : (clinic prisma configured current).Reachable s)
    (hrun : (clinic prisma configured current).Run s tr t) :
    Belongs t.world ∧ ∀ id u applicantId, t.world.state.user id = some u → u.kycStatus = .VERIFIED →
      u.kycReference = some applicantId → ¬Received s.world applicantId →
        ∃ n payload, Completes payload applicantId ∧ t.world.Begun n (.webhook payload) ∧
          ¬s.world.Begun n (.webhook payload) := by
  obtain ⟨f, -, hinv⟩ := Async.reachable_sound attending_governs (hs.run hrun)
  refine ⟨hinv.base.belongs, fun id u applicantId hu hverified href hnot => ?_⟩
  obtain ⟨applicantId', href', n, payload, hbegun, hcompletes⟩ := hinv.base.belongs id u hu hverified
  obtain rfl := Option.some.inj (href.symm.trans href')
  exact ⟨n, payload, hcompletes, hbegun, fun hbefore => hnot ⟨n, payload, hbefore, hcompletes⟩⟩

/-! ### A completion that is late -/

namespace LateCompletion

/-- Only strings are taken. -/
def prisma : Prisma where
  where'
    | .str s => some fun r => decide (r = some s)
    | _ => none
  where_str _ := rfl

/-- What is answered when KYCAID has the given applicant. -/
def reply (applicantId : String) (op : Op) (d : Registry) : Except String op.Res × Registry :=
  match Registry.answer prisma { now := 1, response := { ok := true, statusText := "OK", json := .ok {
      applicant_id := some applicantId, form_url := none } } } op d with
  | some (v, d') => (.ok v, d')
  | none => (.error "refused", d)

lemma played_reply (applicantId : String) (op : Op) (d : Registry) :
    Async.Played (Returns prisma) (fun _ => False) op d (reply applicantId op d) := by
  rw [reply]
  cases hanswer : Registry.answer prisma _ op d with
  | none => exact id
  | some vd => exact ⟨_, hanswer⟩

/-- The first events of one more session. -/
def asked (applicantId : String) (n : ℕ) (q : Asked) (k : ℕ) (w : Clinic) : InProgress × Clinic :=
  (Async.session n q (q.program true)).runFor (Async.journalled (reply applicantId)) k w

section Asked

variable {cond : ClinicCondition} {C : (e : Happening) → Clinic → Except String (Happening.Res e) → Bool}
  {w : Clinic} {threads : Multiset InProgress} {p : InProgress}

lemma run_more (applicantId : String) (k : ℕ)
    (hC : ∀ e w r, C e w r → Async.unused e w ∧ cond threads e w r)
    (h : p.checkFor (Async.journalled (reply applicantId)) C k w) :
    ∃ tr, (clinic prisma true cond).Run ⟨w, p ::ₘ threads⟩ tr
      ⟨(p.runFor (Async.journalled (reply applicantId)) k w).2,
        (p.runFor (Async.journalled (reply applicantId)) k w).1 ::ₘ threads⟩ :=
  Async.run_journalled (played_reply applicantId) hC h

lemma run_asked (applicantId : String) {n : ℕ} {q : Asked} (k : ℕ)
    (hC : ∀ e w r, C e w r → Async.unused e w ∧ cond threads e w r)
    (h : (Async.session n q (q.program true)).checkFor (Async.journalled (reply applicantId)) C k w) :
    ∃ tr, (clinic prisma true cond).Run ⟨w, threads⟩ tr
      ⟨(asked applicantId n q k w).2, (asked applicantId n q k w).1 ::ₘ threads⟩ := by
  obtain ⟨tr, hrun⟩ := run_more applicantId k hC h
  have hstart : (clinic prisma true cond).Step ⟨w, threads⟩
      (.start (Async.session n q (q.program true)))
      ⟨w, Async.session n q (q.program true) ::ₘ threads⟩ := ⟨⟨n, q, rfl⟩, rfl, rfl⟩
  exact ⟨_, (Transition.System.Run.single hstart).append hrun⟩

end Asked

def anyHappening : ClinicCondition := fun _ _ _ _ => True

def opening : Clinic where
  state := { users := [{ id := "bob" }] }

lemma opening_init {cond : ClinicCondition} : (clinic prisma true cond).Init ⟨opening, 0⟩ := by
  refine ⟨⟨⟨by decide, fun id u hu => ?_⟩, rfl, rfl⟩, rfl⟩
  have hmem := List.mem_of_find?_eq_some hu
  obtain rfl := List.mem_singleton.mp hmem
  decide

def completes (applicantId : String) : Json :=
  .obj [("applicant_id", .str applicantId), ("status", .str "completed")]

/-- Bob starts a verification. -/
def started : InProgress × Clinic := asked "A" 0 (.start "bob") 6 opening

/-- Its completion is reported, and Bob has been looked up. -/
def reported : InProgress × Clinic := asked "A" 1 (.webhook (completes "A")) 2 started.2

/-- The report is written at once. -/
def verified : InProgress × Clinic := asked "A" 1 (.webhook (completes "A")) 4 started.2

/-- Meanwhile he starts another verification. -/
def restarted : InProgress × Clinic := asked "B" 2 (.start "bob") 6 reported.2

/-- The report of the first one is written. -/
def overwritten : InProgress × Clinic :=
  reported.1.runFor (Async.journalled (reply "B")) 2 restarted.2

/-- The report is written right after the lookup. -/
def prompt (e : Happening) (w : Clinic) : Bool :=
  match e with
  | .begin _ (.webhook payload) =>
    match payload.get "applicant_id" with
    | .ok (some (.str _)) => true
    | _ => false
  | .call n (.recordStatus _ _ .VERIFIED) =>
    match w.effects.getLast? with
    | some ⟨m, .findUser _, _⟩ => m = n
    | _ => false
  | _ => true

lemma current_of_prompt {rest : Multiset InProgress} {e : Happening} {w : Clinic}
    {r : Except String (Happening.Res e)} (h : prompt e w = true) : current rest e w r := by
  cases e with
  | begin n q =>
    cases q with
    | start userId => trivial
    | webhook payload =>
      intro _ a ha _
      rw [prompt, ha] at h
      cases a with
      | str s => exact ⟨s, rfl⟩
      | _ => cases h
  | finish n a => trivial
  | call n op =>
    cases op with
    | recordStatus id previousStatus kycStatus =>
      cases kycStatus with
      | VERIFIED =>
        rw [prompt] at h
        split at h
        · rename_i m x d hlast
          obtain ⟨before, heq⟩ := List.getLast?_eq_some_iff.mp hlast
          show ¬Async.Missed _ _ _ _
          rw [heq, Async.missed_snoc]
          rintro (⟨applicantId, hop⟩ | ⟨-, hlooks⟩)
          · cases hop
          · exact hlooks (of_decide_eq_true h) trivial
        · cases h
      | _ => trivial
    | _ => trivial

/-- A webhook about the applicant has begun. -/
def tells (applicantId : String) (e : Async.Entry Asked Op Op.Res String Unit) : Bool :=
  match e.1 with
  | .begin _ (.webhook payload) =>
    match payload.get "applicant_id" with
    | .ok (some x) => x.isStr applicantId
    | _ => false
  | _ => false

lemma any_of_received {w : Clinic} {applicantId : String} (h : Received w applicantId) :
    w.entries.any (tells applicantId) = true := by
  obtain ⟨n, payload, hbegun, hget, -⟩ := h
  refine List.any_eq_true.mpr ⟨_, hbegun, ?_⟩
  simp [tells, hget, Json.isStr]

end LateCompletion

/-- A verification is completed. -/
theorem verification_is_current_of_completed : ∃ (prisma : Prisma) (configured : Bool)
    (s t : ClinicState)
    (tr : List (Transition.Move ClinicState (Async.Label Happening (Event.Res Op.Res) String))),
    (clinic prisma configured current).Reachable s ∧ (clinic prisma configured current).Run s tr t ∧
      (t.world.state.user "bob").map (·.kycStatus) = some .VERIFIED ∧ Belongs t.world := by
  have hC (threads : Multiset InProgress) (e : Happening) (w : Clinic)
      (r : Except String (Happening.Res e))
      (h : (Async.unused e w && LateCompletion.prompt e w) = true) :
      Async.unused e w ∧ current threads e w r := by
    rw [Bool.and_eq_true] at h
    exact ⟨h.1, LateCompletion.current_of_prompt h.2⟩
  have hstarted : ∃ tr, (clinic LateCompletion.prisma true current).Run ⟨LateCompletion.opening, 0⟩ tr
      ⟨LateCompletion.started.2, LateCompletion.started.1 ::ₘ 0⟩ :=
    LateCompletion.run_asked "A" 6 (hC 0) (by decide +kernel)
  obtain ⟨tr₁, hrun₁⟩ := hstarted
  have hverified : ∃ tr, (clinic LateCompletion.prisma true current).Run
      ⟨LateCompletion.started.2, LateCompletion.started.1 ::ₘ 0⟩ tr ⟨LateCompletion.verified.2, _⟩ :=
    LateCompletion.run_asked "A" 4 (hC _) (by decide +kernel)
  obtain ⟨tr₂, hrun₂⟩ := hverified
  have hreach : (clinic LateCompletion.prisma true current).Reachable
      ⟨LateCompletion.started.2, LateCompletion.started.1 ::ₘ 0⟩ :=
    (Transition.System.Reachable.init LateCompletion.opening_init).run hrun₁
  exact ⟨_, _, _, _, _, hreach, hrun₂, by decide +kernel, (verification_is_current hreach hrun₂).1⟩

/-- The first completion is written after another verification was started. -/
theorem late_completion_verifies : ∃ (prisma : Prisma) (configured : Bool) (t : ClinicState),
    (clinic prisma configured LateCompletion.anyHappening).Reachable t ∧
      (t.world.state.user "bob").map (fun u => (u.kycStatus, u.kycReference)) =
        some (.VERIFIED, some "B") ∧ ¬Received t.world "B" ∧ ¬Belongs t.world := by
  have hC (threads : Multiset InProgress) (e : Happening) (w : Clinic)
      (r : Except String (Happening.Res e)) (h : Async.unused e w = true) :
      Async.unused e w ∧ LateCompletion.anyHappening threads e w r := ⟨h, trivial⟩
  have hstarted : ∃ tr, (clinic LateCompletion.prisma true LateCompletion.anyHappening).Run
      ⟨LateCompletion.opening, 0⟩ tr
      ⟨LateCompletion.started.2, LateCompletion.started.1 ::ₘ 0⟩ :=
    LateCompletion.run_asked "A" 6 (hC 0) (by decide +kernel)
  obtain ⟨tr₁, hrun₁⟩ := hstarted
  have hreported : ∃ tr, (clinic LateCompletion.prisma true LateCompletion.anyHappening).Run
      ⟨LateCompletion.started.2, LateCompletion.started.1 ::ₘ 0⟩ tr
      ⟨LateCompletion.reported.2, LateCompletion.reported.1 ::ₘ LateCompletion.started.1 ::ₘ 0⟩ :=
    LateCompletion.run_asked "A" 2 (hC _) (by decide +kernel)
  obtain ⟨tr₂, hrun₂⟩ := hreported
  have hrestarted : ∃ tr, (clinic LateCompletion.prisma true LateCompletion.anyHappening).Run
      ⟨LateCompletion.reported.2, LateCompletion.reported.1 ::ₘ LateCompletion.started.1 ::ₘ 0⟩ tr
      ⟨LateCompletion.restarted.2, LateCompletion.restarted.1 ::ₘ LateCompletion.reported.1 ::ₘ
        LateCompletion.started.1 ::ₘ 0⟩ :=
    LateCompletion.run_asked "B" 6 (hC _) (by decide +kernel)
  obtain ⟨tr₃, hrun₃⟩ := hrestarted
  have hswap := Multiset.cons_swap LateCompletion.restarted.1 LateCompletion.reported.1
    (LateCompletion.started.1 ::ₘ 0)
  rw [hswap] at hrun₃
  have hwritten : ∃ tr, (clinic LateCompletion.prisma true LateCompletion.anyHappening).Run
      ⟨LateCompletion.restarted.2, LateCompletion.reported.1 ::ₘ LateCompletion.restarted.1 ::ₘ
        LateCompletion.started.1 ::ₘ 0⟩ tr
      ⟨LateCompletion.overwritten.2, _⟩ := LateCompletion.run_more "B" 2 (hC _) (by decide +kernel)
  obtain ⟨tr₄, hrun₄⟩ := hwritten
  have hrun := ((hrun₁.append hrun₂).append hrun₃).append hrun₄
  have huser :
      (LateCompletion.overwritten.2.state.user "bob").map (fun u => (u.kycStatus, u.kycReference)) =
        some (.VERIFIED, some "B") := by decide +kernel
  have hnot : ¬Received LateCompletion.overwritten.2 "B" := fun h =>
    absurd (LateCompletion.any_of_received h) (by decide +kernel)
  refine ⟨_, _, _, (Transition.System.Reachable.init LateCompletion.opening_init).run hrun, huser, hnot,
    fun hbelongs => ?_⟩
  obtain ⟨u, hu, heq⟩ := Option.map_eq_some_iff.mp huser
  obtain ⟨hstatus, href⟩ := Prod.mk.inj heq
  obtain ⟨applicantId, href', hreceived⟩ := hbelongs "bob" u hu hstatus
  obtain rfl := Option.some.inj (href'.symm.trans href)
  exact hnot hreceived

end PayEra.Api.Kyc
