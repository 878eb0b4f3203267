import PayEra.Api.Kyc
import PayEra.Lib.Execution

/-!
# The order of KYC webhooks

KYCAID delivers a webhook more than once, and in any order. Each delivery overwrites the status of the
user, and one that is not final overwrites it by `PENDING`. So the user ends with the outcome of the
verification if and only if the webhook that tells it is delivered last.
-/

namespace PayEra.Api.Kyc

open Ramps (KycStatus)
open Transition (System Move)
open Async (Executes)
open Async.Program

/-! ### What a webhook tells -/

/-- The outcome of a verification, if the status tells one. -/
def verdict (status : Json) : Option KycStatus :=
  if status.isStr "completed" then some .VERIFIED
  else if status.isStr "declined" ∨ status.isStr "rejected" then some .REJECTED
  else none

/-- The outcome that a webhook tells. -/
def outcome (payload : Json) : Option KycStatus :=
  (payload.get "status").toOption.join.bind verdict

/-- The webhook is one of the applicant, and has a status. -/
structure Reports (payload : Json) (applicantId : String) (status : Json) : Prop where
  applicant : payload.get "applicant_id" = .ok (some (.str applicantId))
  reported : payload.get "status" = .ok (some status)
  named : applicantId ≠ ""
  told : status.truthy = true

/-- The applicant is the current one of the user, and of nobody else. -/
structure Registry.Applies (d : Registry) (id applicantId : String) : Prop where
  unique : (d.users.map (·.id)).Nodup
  current : ∃ u, d.user id = some u ∧ u.kycReference = some applicantId ∧ u.deletedAt = none
  sole : ∀ u ∈ d.users, u.kycReference = some applicantId → u.id = id

def Registry.status (d : Registry) (id : String) : Option KycStatus := (d.user id).map (·.kycStatus)

abbrev Attempted := Async.Attempt Registry Op Op.Res String

/-- The webhooks of the applicant, one after the other; every call returns, and others leave the users
alone. -/
def deliveries (prisma : Prisma) (id applicantId : String) : System Registry (Json × List Attempted) :=
  Async.oneByOne (Returns prisma) (fun _ => True) (fun d d' => d'.users = d.users)
    (fun d => d.Applies id applicantId) (fun payload => ∃ status, Reports payload applicantId status)
    KycService.processWebhook

/-- The webhooks, in the order of their delivery. -/
def delivered (tr : List (Move Registry (Json × List Attempted))) : List Json := tr.map (·.label.1)

/-- The webhooks tell one outcome. -/
structure OneOutcome (o : KycStatus) (payloads : Multiset Json) : Prop where
  told : ∃ payload ∈ payloads, outcome payload = some o
  same : ∀ payload ∈ payloads, ∀ o', outcome payload = some o' → o' = o

section Deliveries

variable {prisma : Prisma} {d d' : Registry} {id applicantId : String} {payload status : Json}
  {tr : List (Move Registry (Json × List Attempted))} {o : KycStatus} {payloads : Multiset Json}

lemma kycStatus_eq (status : Json) : KycService.kycStatus status = (verdict status).getD .PENDING := by
  rw [KycService.kycStatus, verdict]
  split_ifs
  · rfl
  · rfl
  · rfl

lemma outcome_of_reports (h : Reports payload applicantId status) : outcome payload = verdict status := by
  rw [outcome, h.reported]
  rfl

/-- A status is written that is an outcome if and only if it was told. -/
lemma kycStatus_eq_iff (ho : verdict status = some o ∨ o ≠ .PENDING) :
    KycService.kycStatus status = o ↔ verdict status = some o := by
  rw [kycStatus_eq]
  cases hverdict : verdict status with
  | none =>
    rw [hverdict] at ho
    rcases ho with ho | ho
    · cases ho
    · exact iff_of_false (fun heq => ho heq.symm) (fun heq => by cases heq)
  | some o' => exact ⟨fun heq => congrArg some heq, Option.some.inj⟩

lemma ne_pending_of_verdict (h : verdict status = some o) : o ≠ .PENDING := by
  rintro rfl
  rw [verdict] at h
  split_ifs at h
  · cases Option.some.inj h
  · cases Option.some.inj h

lemma OneOutcome.ne_pending (h : OneOutcome o payloads) : o ≠ .PENDING := by
  obtain ⟨payload, -, houtcome⟩ := h.told
  obtain ⟨status, -, hverdict⟩ := Option.bind_eq_some_iff.mp houtcome
  exact ne_pending_of_verdict hverdict

/-! ### One webhook -/

/-- What a webhook does with the user that it has found. -/
def recordFound (status : Json) : Option User → Service Bool
  | none => pure false
  | some user => do
    call (.recordStatus user.id user.kycStatus (KycService.kycStatus status))
    pure true

lemma processWebhook_eq (h : Reports payload applicantId status) :
    KycService.processWebhook payload = call (.findUser (.str applicantId)) >>= recordFound status := by
  have hnamed : (Json.str applicantId).truthy = true := decide_eq_true h.named
  have hdone (value : Option Json) (f : Option Json → Service Bool) :
      (Async.Program.done (.ok value) >>= f) = f value := rfl
  rw [KycService.processWebhook, h.applicant, h.reported]
  simp only [hdone, Option.filter_some_pos hnamed, Option.filter_some_pos h.told]
  congr 1

/-- The lookup finds the user. -/
lemma found_of_applies (h : d.Applies id applicantId) : ∃ u, d.user id = some u ∧
    (d.users.find? fun u => decide (u.kycReference = some applicantId) && u.deletedAt.isNone) = some u := by
  obtain ⟨u, hu, href, hdeleted⟩ := h.current
  refine ⟨u, hu, ?_⟩
  have hmem : u ∈ d.users := List.mem_of_find?_eq_some hu
  cases hfound : d.users.find? fun u => decide (u.kycReference = some applicantId) &&
      u.deletedAt.isNone with
  | none =>
    rw [List.find?_eq_none] at hfound
    refine absurd ?_ (hfound u hmem)
    rw [href, hdeleted]
    simp
  | some u' =>
    have hmem' : u' ∈ d.users := List.mem_of_find?_eq_some hfound
    have hfits := List.find?_some hfound
    rw [Bool.and_eq_true, decide_eq_true_eq] at hfits
    have hid : u'.id = u.id := (h.sole u' hmem' hfits.1).trans (id_of_user hu).symm
    rw [List.inj_on_of_nodup_map h.unique hmem' hmem hid]

/-- A webhook writes its status to the user, and nothing else to the users. -/
lemma users_of_webhook {requests : List Attempted} {r : Except String Bool}
    (h : Executes (Returns prisma) (fun _ => True) (fun d d' : Registry => d'.users = d.users)
      (KycService.processWebhook payload) d requests r d')
    (happlies : d.Applies id applicantId) (hreports : Reports payload applicantId status) :
    ∃ now, d'.users = updateWhere (·.id = id) (·.record (KycService.kycStatus status) now) d.users := by
  obtain ⟨u, hu, hfinds⟩ := found_of_applies happlies
  rw [processWebhook_eq hreports] at h
  rcases h.of_perform_bind with ⟨found, d₁, d₂, rest, -, ⟨o, hfind⟩, hother, hrest⟩ |
    ⟨e, took, d₁, -, -, hgoes, -⟩
  · rw [Registry.answer, prisma.where_str, Option.map_some] at hfind
    obtain ⟨hfound, rfl⟩ := Prod.mk.inj (Option.some.inj hfind)
    rw [hfinds] at hfound
    subst hfound
    rcases hrest.of_perform_bind with ⟨_, d₃, d₄, rest', -, ⟨o', hwrite⟩, hother', hdone⟩ |
      ⟨e, took, d₃, -, -, hgoes, -⟩
    · obtain ⟨-, -, rfl⟩ := hdone.of_done
      obtain ⟨u₁, -, heq⟩ := Option.map_eq_some_iff.mp hwrite
      cases heq
      refine ⟨o'.now, ?_⟩
      rw [hother', ← hother, id_of_user hu]
    · exact absurd trivial hgoes.1
  · exact absurd trivial hgoes.1

lemma applies_of_users {kycStatus : KycStatus} {now : ℕ} (h : d.Applies id applicantId)
    (husers : d'.users = updateWhere (·.id = id) (·.record kycStatus now) d.users) :
    d'.Applies id applicantId ∧ d'.status id = some kycStatus := by
  obtain ⟨u, hu, href, hdeleted⟩ := h.current
  have hrow : d'.user id = some (u.record kycStatus now) := by
    have hkey : (updateWhere (·.id = id) (·.record kycStatus now) d.users).find? (·.id = id) =
        (d.users.find? (·.id = id)).map fun u => if id = id then u.record kycStatus now else u :=
      find?_updateWhere_key (f := fun u : User => u.record kycStatus now) (fun _ => rfl) id id
    rw [Registry.user, husers]
    refine hkey.trans ?_
    rw [show d.users.find? (fun r => decide (r.id = id)) = some u from hu, Option.map_some, if_pos rfl]
  refine ⟨⟨?_, ⟨_, hrow, href, hdeleted⟩, fun u' hu' href' => ?_⟩, ?_⟩
  · rw [husers, updateWhere, List.map_map]
    refine (congrArg List.Nodup (List.map_congr_left fun u _ => ?_)).mp h.unique
    rw [Function.comp_apply]
    split_ifs
    · rfl
    · rfl
  · rw [husers, updateWhere] at hu'
    obtain ⟨u₀, hu₀, rfl⟩ := List.mem_map.mp hu'
    split_ifs at href' ⊢ with hid
    · exact of_decide_eq_true hid
    · exact h.sole u₀ hu₀ href'
  · rw [Registry.status, hrow]
    rfl

/-- A delivery keeps the applicant, and writes what it reports. -/
lemma delivery_step {label : Json × List Attempted}
    (hstep : (deliveries prisma id applicantId).Step d label d') (happlies : d.Applies id applicantId) :
    d'.Applies id applicantId ∧ ∃ status, Reports label.1 applicantId status ∧
      d'.status id = some (KycService.kycStatus status) := by
  obtain ⟨⟨status, hreports⟩, r, hexecutes⟩ := hstep
  obtain ⟨now, husers⟩ := users_of_webhook hexecutes happlies hreports
  obtain ⟨happlies', hstatus⟩ := applies_of_users happlies husers
  exact ⟨happlies', status, hreports, hstatus⟩

/-- Every webhook of the applicant can be delivered. -/
lemma exists_delivery (happlies : d.Applies id applicantId)
    (hreports : Reports payload applicantId status) :
    ∃ requests d', (deliveries prisma id applicantId).Step d (payload, requests) d' := by
  obtain ⟨u, hu, hfinds⟩ := found_of_applies happlies
  have o : Oracle := ⟨0, false, "", .error ""⟩
  have hfind : Registry.answer prisma o (.findUser (.str applicantId)) d = some (some u, d) := by
    rw [Registry.answer, prisma.where_str, Option.map_some, hfinds]
  obtain ⟨d', hwrite⟩ : ∃ d', Registry.answer prisma o
      (.recordStatus u.id u.kycStatus (KycService.kycStatus status)) d = some ((), d') := by
    rw [Registry.answer, id_of_user hu, hu]
    exact ⟨_, rfl⟩
  obtain ⟨requests, hexecutes⟩ : ∃ requests, Executes (Returns prisma) (fun _ => True)
      (fun d d' : Registry => d'.users = d.users) (KycService.processWebhook payload) d requests
      (.ok true) d' := by
    rw [processWebhook_eq hreports]
    exact ⟨_, .perform_bind ⟨o, hfind⟩ rfl (.perform_bind ⟨o, hwrite⟩ rfl (.done _ _))⟩
  exact ⟨requests, d', ⟨status, hreports⟩, .ok true, hexecutes⟩

/-! ### Many webhooks -/

/-- The status is what the last webhook reports. -/
lemma delivery_run (hrun : (deliveries prisma id applicantId).Run d tr d')
    (happlies : d.Applies id applicantId) : d'.Applies id applicantId ∧
      ∀ payload ∈ (delivered tr).getLast?, ∃ status, Reports payload applicantId status ∧
        d'.status id = some (KycService.kycStatus status) := by
  induction hrun with
  | nil =>
    refine ⟨happlies, fun payload hlast => ?_⟩
    cases hlast
  | snoc hrun hstep ih =>
    obtain ⟨happlies', status, hreports, hstatus⟩ := delivery_step hstep ih.1
    refine ⟨happlies', fun payload hlast => ?_⟩
    rw [delivered, List.map_append, List.map_singleton, List.getLast?_concat] at hlast
    obtain rfl := Option.some.inj hlast
    exact ⟨status, hreports, hstatus⟩

/-- The webhooks can be delivered in every order. -/
lemma exists_run (prisma : Prisma) {l : List Json} (happlies : d.Applies id applicantId)
    (hl : ∀ payload ∈ l, ∃ status, Reports payload applicantId status) :
    ∃ tr d', (deliveries prisma id applicantId).Run d tr d' ∧ delivered tr = l := by
  induction l using List.reverseRecOn with
  | nil => exact ⟨[], d, .nil d, rfl⟩
  | append_singleton l payload ih =>
    obtain ⟨tr, d₁, hrun, rfl⟩ := ih fun payload' h' => hl payload' (List.mem_append_left _ h')
    obtain ⟨status, hreports⟩ := hl payload (List.mem_append_right _ (List.mem_singleton_self _))
    obtain ⟨requests, d', hstep⟩ := exists_delivery (delivery_run hrun happlies).1 hreports
    refine ⟨_, d', hrun.snoc hstep, ?_⟩
    rw [delivered, List.map_append]
    rfl

/-- The user ends with the outcome if and only if the last webhook tells it. -/
lemma status_iff_last (hrun : (deliveries prisma id applicantId).Run d tr d')
    (happlies : d.Applies id applicantId) (hone : OneOutcome o (delivered tr)) :
    d'.status id = some o ↔ ∃ payload, (delivered tr).getLast? = some payload ∧
      outcome payload = some o := by
  obtain ⟨payload₀, hmem, -⟩ := hone.told
  obtain ⟨payload, hlast⟩ : ∃ payload, (delivered tr).getLast? = some payload :=
    Option.isSome_iff_exists.mp (List.getLast?_isSome.mpr (List.ne_nil_of_mem hmem))
  obtain ⟨status, hreports, hstatus⟩ := (delivery_run hrun happlies).2 payload hlast
  rw [hstatus, Option.some_inj, kycStatus_eq_iff (.inr hone.ne_pending), ← outcome_of_reports hreports]
  constructor
  · intro houtcome
    exact ⟨payload, hlast, houtcome⟩
  · rintro ⟨payload', hlast', houtcome⟩
    obtain rfl := Option.some.inj (hlast.symm.trans hlast')
    exact houtcome

end Deliveries

/-- In whatever order the webhooks of a verification are delivered, the user ends with its outcome, if
and only if all of them tell the outcome. In a given order it is the last one that has to. -/
theorem outcome_iff {prisma : Prisma} {d : Registry} {id applicantId : String} {o : KycStatus}
    {payloads : Multiset Json} (happlies : d.Applies id applicantId)
    (hreports : ∀ payload ∈ payloads, ∃ status, Reports payload applicantId status)
    (hone : OneOutcome o payloads) :
    ((∀ tr d', (deliveries prisma id applicantId).Run d tr d' → ↑(delivered tr) = payloads →
      d'.status id = some o) ↔ ∀ payload ∈ payloads, outcome payload = some o) ∧
    ∀ tr d', (deliveries prisma id applicantId).Run d tr d' → ↑(delivered tr) = payloads →
      (d'.status id = some o ↔
        ∃ payload, (delivered tr).getLast? = some payload ∧ outcome payload = some o) := by
  refine ⟨⟨fun hall payload hmem => ?_, fun hall tr d' hrun htr => ?_⟩, fun tr d' hrun htr => ?_⟩
  · -- the order in which this webhook is the last one
    obtain ⟨rest, rfl⟩ := Multiset.exists_cons_of_mem hmem
    induction rest using Quotient.inductionOn with | h l
    have hperm : (↑(l ++ [payload]) : Multiset Json) = payload ::ₘ ↑l :=
      Multiset.coe_eq_coe.mpr (List.perm_append_singleton payload l)
    have hl : ∀ payload' ∈ l ++ [payload], ∃ status, Reports payload' applicantId status := by
      intro payload' h'
      refine hreports payload' ?_
      rw [← Multiset.mem_coe, hperm] at h'
      exact h'
    obtain ⟨tr, d', hrun, htr⟩ := exists_run prisma happlies hl
    have hmultiset : ↑(delivered tr) = payload ::ₘ (↑l : Multiset Json) := by rw [htr, hperm]
    obtain ⟨payload', hlast, houtcome⟩ := (status_iff_last hrun happlies (by rwa [hmultiset])).mp
      (hall tr d' hrun hmultiset)
    rw [htr, List.getLast?_concat] at hlast
    obtain rfl := Option.some.inj hlast
    exact houtcome
  · subst htr
    rw [status_iff_last hrun happlies hone]
    obtain ⟨payload, hmem, -⟩ := hone.told
    have hnil := List.ne_nil_of_mem (Multiset.mem_coe.mp hmem)
    exact ⟨_, List.getLast?_eq_some_getLast hnil, hall _ (List.getLast_mem hnil)⟩
  · subst htr
    exact status_iff_last hrun happlies hone

/-! ### A webhook that is late -/

namespace LateWebhook

def webhook (status : String) : Json :=
  .obj [("applicant_id", .str "A"), ("status", .str status)]

/-- A user whose verification has begun. -/
def applied : Registry where
  users := [{ id := "user", kycStatus := .PENDING, kycReference := some "A" }]

lemma applies_applied : applied.Applies "user" "A" := by
  refine ⟨by decide, ⟨_, rfl, rfl, rfl⟩, fun u hu _ => ?_⟩
  obtain rfl := List.mem_singleton.mp hu
  rfl

lemma reports_webhook {status : String} (h : status ≠ "") :
    Reports (webhook status) "A" (.str status) := ⟨rfl, rfl, by decide, decide_eq_true h⟩

end LateWebhook

/-- Two completions leave the user verified. -/
theorem outcome_iff_of_repeated : ∃ tr d',
    (deliveries LateCompletion.prisma "user" "A").Run LateWebhook.applied tr d' ∧
    delivered tr = [LateWebhook.webhook "completed", LateWebhook.webhook "completed"] ∧
    d'.status "user" = some .VERIFIED := by
  have houtcome : outcome (LateWebhook.webhook "completed") = some .VERIFIED := by rfl
  have heq {payload : Json}
      (h : payload ∈ [LateWebhook.webhook "completed", LateWebhook.webhook "completed"]) :
      payload = LateWebhook.webhook "completed" := by simpa using h
  have hl : ∀ payload ∈ [LateWebhook.webhook "completed", LateWebhook.webhook "completed"],
      ∃ status, Reports payload "A" status := by
    intro payload h
    rw [heq h]
    exact ⟨_, LateWebhook.reports_webhook (by decide)⟩
  have hone : OneOutcome .VERIFIED
      (↑[LateWebhook.webhook "completed", LateWebhook.webhook "completed"] : Multiset Json) := by
    refine ⟨⟨_, List.mem_cons_self .., houtcome⟩, fun payload h o ho => ?_⟩
    rw [heq h, houtcome] at ho
    exact (Option.some.inj ho).symm
  obtain ⟨tr, d', hrun, htr⟩ := exists_run LateCompletion.prisma LateWebhook.applies_applied hl
  refine ⟨tr, d', hrun, htr, (outcome_iff LateWebhook.applies_applied hl hone).1.mpr ?_ tr d' hrun ?_⟩
  · intro payload h
    rw [heq h]
    exact houtcome
  · rw [htr]

/-- A webhook that is not final is delivered after the completion: the user is not verified any
more. -/
theorem late_pending_downgrades : ∃ tr d', LateWebhook.applied.Applies "user" "A" ∧
    (deliveries LateCompletion.prisma "user" "A").Run LateWebhook.applied tr d' ∧
    delivered tr = [LateWebhook.webhook "completed", LateWebhook.webhook "pending"] ∧
    OneOutcome .VERIFIED ↑(delivered tr) ∧ d'.status "user" = some .PENDING := by
  have hl : ∀ payload ∈ [LateWebhook.webhook "completed", LateWebhook.webhook "pending"],
      ∃ status, Reports payload "A" status := by
    intro payload h
    rcases List.mem_cons.mp h with rfl | h
    · exact ⟨_, LateWebhook.reports_webhook (by decide)⟩
    · obtain rfl := List.mem_singleton.mp h
      exact ⟨_, LateWebhook.reports_webhook (by decide)⟩
  obtain ⟨tr, d', hrun, htr⟩ := exists_run LateCompletion.prisma LateWebhook.applies_applied hl
  refine ⟨tr, d', LateWebhook.applies_applied, hrun, htr, ⟨?_, fun payload h o ho => ?_⟩, ?_⟩
  · rw [htr]
    exact ⟨_, List.mem_cons_self .., rfl⟩
  · rw [htr] at h
    rcases List.mem_cons.mp h with rfl | h
    · exact (Option.some.inj ho).symm
    · obtain rfl := List.mem_singleton.mp h
      cases ho
  · obtain ⟨status, hreports, hstatus⟩ := (delivery_run hrun LateWebhook.applies_applied).2 _
      (by rw [htr]; rfl)
    have hpending : Reports (LateWebhook.webhook "pending") "A" (.str "pending") :=
      LateWebhook.reports_webhook (by decide)
    have hboth := hreports.reported.symm.trans hpending.reported
    obtain rfl : status = .str "pending" := Option.some.inj (Except.ok.inj hboth)
    exact hstatus

end PayEra.Api.Kyc
