import PayEra.Api.Identifiers

/-!
# A merchant's status on and off chain

What the reviews do to the two statuses of a merchant is an abstract machine on pairs. The books
refine it, so whether the statuses agree after a review is read off a finite table.
-/

namespace PayEra.Api.Merchants

open Soroban Transition
open MerchantRegistry (Keyed)
open SorobanService (ServiceCall uuidToBytes32)

/-! ### The abstract machine -/

/-- The status of a merchant in the database and, if it is registered, on chain. -/
structure Statuses where
  row : MerchantStatus
  record : Option MerchantRegistry.MerchantStatus
  deriving DecidableEq

/-- What a review does to its merchant: write the row and tell the registry, write the row alone, or
leave the status as it is. -/
inductive Act where
  | approve | reject | suspend
  | write (status : MerchantStatus)
  | keep
  deriving DecidableEq

/-- The registry has no way back from a rejection. -/
def approved : Option MerchantRegistry.MerchantStatus → Option MerchantRegistry.MerchantStatus
  | some .rejected => some .rejected
  | _ => some .approved

/-- Only pending merchants are rejected. -/
def rejected : Option MerchantRegistry.MerchantStatus → Option MerchantRegistry.MerchantStatus
  | some .pending => some .rejected
  | k => k

/-- Only approved merchants are suspended. -/
def suspended : Option MerchantRegistry.MerchantStatus → Option MerchantRegistry.MerchantStatus
  | some .approved => some .suspended
  | k => k

def Act.turn : Act → Statuses → Statuses
  | .approve, s => ⟨.APPROVED, approved s.record⟩
  | .reject, s => ⟨.REJECTED, rejected s.record⟩
  | .suspend, s => ⟨.SUSPENDED, suspended s.record⟩
  | .write status, s => ⟨status, s.record⟩
  | .keep, s => s

structure Agree (s : Statuses) : Prop where
  approved : s.row = .APPROVED ↔ s.record = some .approved
  rejected : s.row = .REJECTED → s.record = some .rejected ∨ s.record = none
  suspended : s.row = .SUSPENDED → s.record = some .suspended

/-- The records on chain that an act gets along with. -/
def Act.Fits : Act → Option MerchantRegistry.MerchantStatus → Prop
  | .approve, k => k ≠ some .rejected
  | .reject, k => k = none ∨ k = some .pending ∨ k = some .rejected
  | .suspend, k => k = some .approved ∨ k = some .suspended
  | .write .PENDING, k => k ≠ some .approved
  | .write .APPROVED, k => k = some .approved
  | .write .REJECTED, k => k = none ∨ k = some .rejected
  | .write .SUSPENDED, k => k = some .suspended
  | .keep, _ => True

instance (a : Act) (k : Option MerchantRegistry.MerchantStatus) : Decidable (a.Fits k) :=
  match a with
  | .approve | .write .PENDING => inferInstanceAs (Decidable (k ≠ _))
  | .reject => inferInstanceAs (Decidable (k = none ∨ k = some .pending ∨ k = some .rejected))
  | .suspend => inferInstanceAs (Decidable (k = some .approved ∨ k = some .suspended))
  | .write .REJECTED => inferInstanceAs (Decidable (k = none ∨ k = some .rejected))
  | .write .APPROVED | .write .SUSPENDED => inferInstanceAs (Decidable (k = some _))
  | .keep => .isTrue trivial

section Machine

variable {k : Option MerchantRegistry.MerchantStatus}

lemma agree_pending : Agree ⟨.PENDING, k⟩ ↔ k ≠ some .approved := by
  constructor
  · rintro ⟨h, -, -⟩ rfl
    cases h.mpr rfl
  · intro h
    exact ⟨⟨nofun, fun h' => absurd h' h⟩, nofun, nofun⟩

lemma agree_approved : Agree ⟨.APPROVED, k⟩ ↔ k = some .approved := by
  constructor
  · intro h
    exact h.approved.mp rfl
  · rintro rfl
    exact ⟨⟨fun _ => rfl, fun _ => rfl⟩, nofun, nofun⟩

lemma agree_rejected : Agree ⟨.REJECTED, k⟩ ↔ k = none ∨ k = some .rejected := by
  constructor
  · intro h
    exact (h.rejected rfl).symm
  · intro h
    refine ⟨⟨nofun, ?_⟩, fun _ => h.symm, nofun⟩
    rintro rfl
    simp at h

lemma agree_suspended : Agree ⟨.SUSPENDED, k⟩ ↔ k = some .suspended := by
  constructor
  · intro h
    exact h.suspended rfl
  · rintro rfl
    exact ⟨⟨nofun, nofun⟩, nofun, fun _ => rfl⟩

lemma approved_eq : approved k = some .approved ↔ k ≠ some .rejected := by
  rcases k with _ | k
  · simp [approved]
  · cases k <;> simp [approved]

lemma rejected_eq : rejected k = none ∨ rejected k = some .rejected ↔
    k = none ∨ k = some .pending ∨ k = some .rejected := by
  rcases k with _ | k
  · simp [rejected]
  · cases k <;> simp [rejected]

lemma suspended_eq : suspended k = some .suspended ↔
    k = some .approved ∨ k = some .suspended := by
  rcases k with _ | k
  · simp [suspended]
  · cases k <;> simp [suspended]

/-- An act keeps the agreement on exactly the records that it fits. -/
theorem agree_turn_iff {s : Statuses} (h : Agree s) (a : Act) :
    Agree (a.turn s) ↔ a.Fits s.record := by
  cases a with
  | approve => exact agree_approved.trans approved_eq
  | reject => exact agree_rejected.trans rejected_eq
  | suspend => exact agree_suspended.trans suspended_eq
  | write status =>
    cases status with
    | PENDING => exact agree_pending
    | APPROVED => exact agree_approved
    | REJECTED => exact agree_rejected
    | SUSPENDED => exact agree_suspended
  | keep => exact iff_of_true h trivial

end Machine

/-! ### The registry -/

/-- The status of a merchant's record. -/
def recordOf (s : MerchantRegistry.Storage) (id : Uuid) :
    Option MerchantRegistry.MerchantStatus :=
  (s.merchant (uuidToBytes32 id.text)).map MerchantRegistry.MerchantRecord.status

/-- The registry answers the platform's key. -/
structure Operable (p : Platform) (s : MerchantRegistry.Storage) : Prop where
  live : s.Live
  admin : s.admin = some p.platform
  keyed : Keyed s

section Registry

variable {p : Platform} {s s' : MerchantRegistry.Storage} {target id : Uuid} {ledger : ℕ}
  {r : MerchantRegistry.MerchantRecord} {ev : MerchantRegistry.Event} {c : ServiceCall}
  {e : MerchantRegistry.Entry}

lemma Operable.administers (hs : Operable p s) (ledger : ℕ) :
    MerchantRegistry.Administers (p.env ledger) s p.platform where
  live := hs.live
  admin := hs.admin
  auth := by simp [Env.auth, Platform.env]

lemma Operable.write (hs : Operable p s) : Operable p ((s.writeMerchant r).publish ev) where
  live := hs.live
  admin := hs.admin
  keyed := by
    intro b r' hr'
    rcases update_eq_some.mp hr' with ⟨rfl, rfl⟩ | ⟨-, hr'⟩
    · rfl
    · exact hs.keyed b r' hr'

lemma recordOf_write_self (h : r.merchantId = uuidToBytes32 id.text) :
    recordOf ((s.writeMerchant r).publish ev) id = some r.status := by
  have hwrite : ((s.writeMerchant r).publish ev).merchant (uuidToBytes32 id.text) = some r := by
    rw [← h]
    exact Function.update_self _ _ _
  rw [recordOf, hwrite, Option.map_some]

lemma recordOf_write_of_ne (h : r.merchantId = uuidToBytes32 target.text) (hne : id ≠ target) :
    recordOf ((s.writeMerchant r).publish ev) id = recordOf s id := by
  have hbytes : uuidToBytes32 id.text ≠ r.merchantId := by
    rw [h]
    exact fun heq => hne (uuidToBytes32_inj.mp heq)
  have hwrite : ((s.writeMerchant r).publish ev).merchant =
      Function.update s.merchant r.merchantId (some r) := rfl
  rw [recordOf, hwrite, Function.update_of_ne hbytes, recordOf]

/-- The registry has gone from `s` to `s'`: the record of `target` has moved by `f`, and no other. -/
structure Told (p : Platform) (target : Uuid)
    (f : Option MerchantRegistry.MerchantStatus → Option MerchantRegistry.MerchantStatus)
    (s s' : MerchantRegistry.Storage) : Prop where
  operable : Operable p s'
  self : recordOf s' target = f (recordOf s target)
  other : ∀ id, id ≠ target → recordOf s' id = recordOf s id

lemma Told.trans {f g} {s'' : MerchantRegistry.Storage} (h : Told p target f s s')
    (h' : Told p target g s' s'') : Told p target (g ∘ f) s s'' where
  operable := h'.operable
  self := by rw [h'.self, h.self, Function.comp_apply]
  other := fun id hne => (h'.other id hne).trans (h.other id hne)

lemma Operable.told (hs : Operable p s) : Told p target (fun k => k) s s where
  operable := hs
  self := rfl
  other := fun _ _ => rfl

lemma Operable.told_write (hs : Operable p s) (r : MerchantRegistry.MerchantRecord)
    (ev : MerchantRegistry.Event) (h : r.merchantId = uuidToBytes32 target.text) :
    Told p target (fun _ => some r.status) s ((s.writeMerchant r).publish ev) where
  operable := hs.write
  self := recordOf_write_self h
  other := fun _ hne => recordOf_write_of_ne h hne

lemma getMerchant_eq (hs : Operable p s) :
    getMerchant p ledger id.text s = s.merchant (uuidToBytes32 id.text) := by
  have hrun : ∀ r, (MerchantRegistry.getMerchant (uuidToBytes32 id.text)).run (p.env ledger) s =
      .ok (r, s) ↔ s.merchant (uuidToBytes32 id.text) = some r := by
    intro r
    simp [MerchantRegistry.getMerchant, hs.live.1]
  cases h : s.merchant (uuidToBytes32 id.text) with
  | none =>
    rw [getMerchant, Option.map_eq_none_iff, Call.reply_eq_none]
    intro r t hrt
    simp only [MerchantRegistry.getMerchant, Call.run_bind,
      MerchantRegistry.run_requireInitialized, MerchantRegistry.run_readMerchant] at hrt
    obtain ⟨-, _, ⟨-, rfl⟩, hr, -⟩ := hrt
    rw [h] at hr
    cases hr
  | some r => rw [getMerchant, Call.reply_eq_some.mpr ((hrun r).mpr h), Option.map_some]

/-- A call that the host binds to an entrypoint runs it. -/
lemma send_eq {i : Invocation} (hi : SorobanService.invocation p.toSdk c = some i)
    (hbind : Host.bind i = some (.merchantRegistry e)) :
    send p ledger c s = ((MerchantRegistry.exec e).reply (p.env ledger) s).map Prod.snd := by
  simp only [send, hi, hbind, Option.bind_eq_bind, Option.bind_some]

lemma send_eq_some {i : Invocation} (hi : SorobanService.invocation p.toSdk c = some i)
    (hbind : Host.bind i = some (.merchantRegistry e)) :
    send p ledger c s = some s' ↔
      (MerchantRegistry.exec e).run (p.env ledger) s = .ok ((), s') := by
  rw [send_eq hi hbind, Option.map_eq_some_iff]
  constructor
  · rintro ⟨⟨u, t⟩, h, rfl⟩
    exact Call.reply_eq_some.mp h
  · intro h
    exact ⟨((), s'), Call.reply_eq_some.mpr h, rfl⟩

lemma bind_review {method : Method} {entry : Bytes32 → MerchantRegistry.Entry}
    (h : ∀ b, Host.merchantRegistry method [.bytes b] = (Host.bytes32 b).map entry) :
    Host.bind ⟨.merchantRegistry, method, [SorobanService.idBytes target.text]⟩ =
      some (.merchantRegistry (entry (uuidToBytes32 target.text))) := by
  simp only [Host.bind, SorobanService.idBytes, h, bytes32_bytes, Option.map_some]

/-- A status call moves the record from the statuses that it admits, and is otherwise refused. -/
lemma told_of_sync {t : Moment} {i : Invocation} {status : MerchantRegistry.MerchantStatus}
    (admits : MerchantRegistry.MerchantStatus → Prop)
    {publishes : MerchantRegistry.MerchantRecord → MerchantRegistry.Event}
    {f : Option MerchantRegistry.MerchantStatus → Option MerchantRegistry.MerchantStatus}
    (hi : SorobanService.invocation p.toSdk c = some i)
    (hbind : Host.bind i = some (.merchantRegistry e))
    (hrun : ∀ {env : Env} {s s' : MerchantRegistry.Storage},
      (MerchantRegistry.exec e).run env s = .ok ((), s') ↔
        ∃ adm r, MerchantRegistry.Administers env s adm ∧
          s.merchant (uuidToBytes32 target.text) = some r ∧ admits r.status ∧
          s' = (s.writeMerchant { r with status, updatedLedger := env.ledger }).publish
            (publishes r))
    (hnone : f none = none) (hadmits : ∀ k, admits k → f (some k) = some status)
    (hrefuses : ∀ k, ¬admits k → f (some k) = some k) (hs : Operable p s) :
    Told p target f s (AdminService.sync p t c s) := by
  cases h : send p t.reviewed c s with
  | some s' =>
    obtain ⟨adm, r, -, hr, hadmit, rfl⟩ := hrun.mp ((send_eq_some hi hbind).mp h)
    have hkey : r.merchantId = uuidToBytes32 target.text := hs.keyed _ _ hr
    have htold := hs.told_write { r with status, updatedLedger := (p.env t.reviewed).ledger }
      (publishes r) hkey
    have hrecord : recordOf s target = some r.status := by rw [recordOf, hr, Option.map_some]
    rw [AdminService.sync, h, Option.getD_some]
    refine ⟨htold.operable, ?_, htold.other⟩
    rw [htold.self, hrecord, hadmits _ hadmit]
  | none =>
    rw [AdminService.sync, h, Option.getD_none]
    refine ⟨hs, ?_, fun _ _ => rfl⟩
    cases hr : s.merchant (uuidToBytes32 target.text) with
    | none => rw [recordOf, hr, Option.map_none, hnone]
    | some r =>
      rw [recordOf, hr, Option.map_some, hrefuses]
      intro hadmit
      rw [(send_eq_some hi hbind).mpr
        (hrun.mpr ⟨p.platform, r, hs.administers _, hr, hadmit, rfl⟩)] at h
      cases h

lemma told_of_approve (t : Moment) (hs : Operable p s) :
    Told p target (fun k => k.bind fun _ => approved k) s
      (AdminService.sync p t (.approveMerchant target.text) s) := by
  refine told_of_sync (· ≠ .rejected) rfl
    (bind_review fun b => Option.map_eq_bind.symm) MerchantRegistry.run_approveMerchant rfl ?_ ?_ hs
  · intro k hk
    exact approved_eq.mpr (by simpa using hk)
  · intro k hk
    obtain rfl := not_not.mp hk
    rfl

lemma told_of_reject (t : Moment) (hs : Operable p s) :
    Told p target rejected s (AdminService.sync p t (.rejectMerchant target.text) s) := by
  refine told_of_sync (· = .pending) rfl
    (bind_review fun b => Option.map_eq_bind.symm) MerchantRegistry.run_rejectMerchant rfl ?_ ?_ hs
  · rintro k rfl
    rfl
  · intro k hk
    cases k <;> first | rfl | exact absurd rfl hk

lemma told_of_suspend (t : Moment) (hs : Operable p s) :
    Told p target suspended s (AdminService.sync p t (.suspendMerchant target.text) s) := by
  refine told_of_sync (· = .approved) rfl
    (bind_review fun b => Option.map_eq_bind.symm) MerchantRegistry.run_suspendMerchant rfl ?_ ?_ hs
  · rintro k rfl
    rfl
  · intro k hk
    cases k <;> first | rfl | exact absurd rfl hk

/-- A registration fails or adds a pending record. -/
lemma told_of_register (ledger : ℕ) (q : RegisterMerchant) (hq : q.merchantId = target.text)
    (hs : Operable p s) (hnone : s.merchant (uuidToBytes32 target.text) = none) :
    (p.address q.owner = none ∧ send p ledger (.registerMerchant q) s = none) ∨
      ∃ s', send p ledger (.registerMerchant q) s = some s' ∧
        Told p target (fun _ => some .pending) s s' := by
  cases howner : p.address q.owner with
  | none =>
    left
    have hi : SorobanService.invocation p.toSdk (.registerMerchant q) = none := by
      simp only [SorobanService.invocation, SorobanService.registerMerchant, howner,
        Option.bind_eq_bind, Option.bind_none]
    refine ⟨rfl, ?_⟩
    rw [send, hi]
    rfl
  | some owner =>
    right
    have hi : ∃ i, SorobanService.invocation p.toSdk (.registerMerchant q) = some i := by
      simp only [SorobanService.invocation, SorobanService.registerMerchant, howner]
      exact ⟨_, rfl⟩
    obtain ⟨i, hi⟩ := hi
    have hbind := bind_registerMerchant howner hi
    rw [hq] at hbind
    refine ⟨_, (send_eq_some hi hbind).mpr (MerchantRegistry.run_registerMerchant.mpr
      ⟨p.platform, hs.administers ledger, hnone, rfl⟩), ?_⟩
    exact hs.told_write (MerchantRegistry.freshMerchant ledger (uuidToBytes32 target.text) owner
      (uuidToBytes32 q.upiIdHash) (uuidToBytes32 q.metadataHash)) _ rfl

/-- An approval registers the merchant if need be. -/
lemma told_of_syncApproval (t : Moment) (before : MerchantRow) (hs : Operable p s) :
    ∃ f, Told p before.id f s (AdminService.syncApproval p t before s) ∧
      (p.address (AdminService.registration p before).owner ≠ none →
        f (recordOf s before.id) = approved (recordOf s before.id)) := by
  rw [AdminService.syncApproval, getMerchant_eq hs]
  cases hr : s.merchant (uuidToBytes32 before.id.text) with
  | some r =>
    refine ⟨_, told_of_approve t hs, fun _ => ?_⟩
    rw [recordOf, hr, Option.map_some, Option.bind_some]
  | none =>
    rcases told_of_register t.registered (AdminService.registration p before) rfl hs hr with
      ⟨howner, hsend⟩ | ⟨s', hsend, htold⟩
    · rw [hsend]
      exact ⟨_, hs.told, fun hne => absurd howner hne⟩
    · rw [hsend]
      refine ⟨_, htold.trans (told_of_approve t htold.operable), fun _ => ?_⟩
      rw [recordOf, hr, Option.map_none]
      rfl

end Registry

/-! ### The books refine the machine -/

def Books.statuses (d : Books) (id : Uuid) : Option Statuses :=
  (d.find id).map fun row => ⟨row.status, recordOf d.registry id⟩

/-- A merchant whose registration succeeds: the registry takes its owner for an address. -/
def Registrable (p : Platform) (id : Uuid) (d : Books) : Prop :=
  ∃ row, d.find id = some row ∧ p.address (AdminService.registration p row).owner ≠ none

/-- What every review of a run relies on. -/
structure Ready (p : Platform) (id : Uuid) (d : Books) : Prop where
  operable : Operable p d.registry
  registrable : Registrable p id d

def Review.target : Review → Uuid
  | .adminApprove _ merchantId _ | .adminReject _ merchantId _ | .adminSuspend _ merchantId _ =>
    merchantId
  | .update _ id _ | .approve _ id | .reject id | .suspend id => id

/-- The act of a review. An update writes the status that an admin asks for, unless it is refused. -/
def Review.act (d : Books) : Review → Act
  | .adminApprove _ _ _ => .approve
  | .adminReject _ _ _ => .reject
  | .adminSuspend _ _ _ => .suspend
  | .update owner id dto =>
    if owner.role = .ADMIN ∧ MerchantsService.vpaTaken id dto d = false then
      dto.status.elim .keep .write
    else .keep
  | .approve _ _ => .write .APPROVED
  | .reject _ => .write .REJECTED
  | .suspend _ => .write .SUSPENDED

/-- The act of a review on one merchant. -/
def Review.actOn (id : Uuid) (d : Books) (r : Review) : Act :=
  if r.target = id then r.act d else .keep

section Refinement

variable {p : Platform} {d d' : Books} {id target : Uuid} {row : MerchantRow} {a : Act}
  {data : MerchantRow → MerchantRow}

/-- An update of a row that keeps what a review keeps. -/
structure Amends (data : MerchantRow → MerchantRow) : Prop where
  id : ∀ r, (data r).id = r.id
  ownerUserId : ∀ r, (data r).ownerUserId = r.ownerUserId

lemma id_of_find (h : d.find id = some row) : row.id = id := by
  simpa using List.find?_some h

lemma find_update (h : Amends data) :
    (d.update target data).find id = (d.find id).map fun r => if target = id then data r else r :=
  find?_updateWhere_key h.id id target

/-- The merchant has done the act, and can be reviewed further. -/
structure Refines (p : Platform) (id : Uuid) (a : Act) (d d' : Books) : Prop where
  ready : Ready p id d'
  statuses : d'.statuses id = (d.statuses id).map a.turn

lemma Refines.refl (h : Ready p id d) : Refines p id .keep d d where
  ready := h
  statuses := by
    cases d.statuses id <;> rfl

/-- A row is written, and the registry is told. -/
lemma refines_of_told (hready : Ready p id d) (hamends : Amends data)
    (hmerchants : d'.merchants = (d.update target data).merchants)
    {f : Option MerchantRegistry.MerchantStatus → Option MerchantRegistry.MerchantStatus}
    (htold : Told p target f d.registry d'.registry)
    (hact : ∀ row, target = id → d.find id = some row →
      p.address (AdminService.registration p row).owner ≠ none →
      (⟨(data row).status, f (recordOf d.registry id)⟩ : Statuses) =
        a.turn ⟨row.status, recordOf d.registry id⟩) :
    Refines p id (if target = id then a else .keep) d d' := by
  obtain ⟨row, hrow, howner⟩ := hready.registrable
  have hfind : d'.find id = some (if target = id then data row else row) := by
    have hupdate : (d.update target data).find id = _ := find_update hamends
    rw [hrow, Option.map_some] at hupdate
    rw [Books.find, hmerchants]
    exact hupdate
  refine ⟨⟨htold.operable, _, hfind, ?_⟩, ?_⟩
  · have hown : (if target = id then data row else row).ownerUserId = row.ownerUserId := by
      split_ifs
      · exact hamends.ownerUserId row
      · rfl
    rw [AdminService.registration, hown]
    exact howner
  · rw [Books.statuses, Books.statuses, hfind, hrow, Option.map_some, Option.map_some,
      Option.map_some]
    by_cases heq : target = id
    · subst heq
      rw [if_pos rfl, if_pos rfl, htold.self, hact row rfl hrow howner]
    · rw [if_neg heq, if_neg heq, htold.other id (Ne.symm heq)]
      rfl

/-- A review of a merchant that is not there changes nothing. -/
lemma Refines.of_missing (hready : Ready p id d) (hfind : d.find target = none) :
    Refines p id (if target = id then a else .keep) d d := by
  have hne : target ≠ id := by
    rintro rfl
    obtain ⟨row, hrow, -⟩ := hready.registrable
    rw [hrow] at hfind
    cases hfind
  rw [if_neg hne]
  exact .refl hready

/-- The reviews of the admin service. -/
lemma refines_review {actor : Principal} {action : String}
    {onChain : MerchantRow → MerchantRegistry.Storage → MerchantRegistry.Storage}
    (hready : Ready p id d) (hamends : Amends data)
    (h : ∀ row, d.find target = some row →
      ∃ f, Told p target f d.registry (onChain row d.registry) ∧
        (p.address (AdminService.registration p row).owner ≠ none →
          (⟨(data row).status, f (recordOf d.registry target)⟩ : Statuses) =
            a.turn ⟨row.status, recordOf d.registry target⟩)) :
    Refines p id (if target = id then a else .keep) d
      (d.settle (AdminService.review actor target action data onChain d)) := by
  cases hfind : d.find target with
  | none =>
    simp only [AdminService.review, hfind]
    exact .of_missing hready hfind
  | some row =>
    obtain ⟨f, htold, hturn⟩ := h row hfind
    simp only [AdminService.review, hfind]
    refine refines_of_told (f := f) hready hamends rfl htold ?_
    rintro row' rfl hrow' howner
    rw [hfind] at hrow'
    obtain rfl := Option.some.inj hrow'
    exact hturn howner

/-- The reviews of the merchants service write the row alone. -/
lemma refines_updateRow (hready : Ready p id d) (hamends : Amends data)
    (h : ∀ row, (⟨(data row).status, recordOf d.registry target⟩ : Statuses) =
      a.turn ⟨row.status, recordOf d.registry target⟩) :
    Refines p id (if target = id then a else .keep) d
      (d.settle (MerchantsService.updateRow target data d)) := by
  cases hfind : d.find target with
  | none =>
    simp only [MerchantsService.updateRow, hfind]
    exact .of_missing hready hfind
  | some row =>
    simp only [MerchantsService.updateRow, hfind]
    refine refines_of_told hready hamends rfl hready.operable.told ?_
    rintro row rfl - -
    exact h row

/-- An update is refused, keeps the status, or writes what an admin asked for. -/
lemma refines_update {owner : Principal} {dto : UpdateMerchantDto} {date : ℕ}
    (hready : Ready p id d) :
    Refines p id ((Review.update owner target dto).actOn id d) d
      (d.settle (MerchantsService.update owner target dto date d)) := by
  have hrefused : (Review.update owner target dto).act d = .keep →
      Refines p id ((Review.update owner target dto).actOn id d) d d := by
    intro hact
    rw [Review.actOn, hact, ite_self]
    exact .refl hready
  cases hfind : d.find target with
  | none =>
    simp only [MerchantsService.update, MerchantsService.findOne, hfind]
    exact .of_missing hready hfind
  | some row =>
    by_cases haccess : owner.role = .ADMIN ∨ row.ownerUserId = some owner.id
    · cases htaken : MerchantsService.vpaTaken target dto d with
      | true =>
        simp only [MerchantsService.update, MerchantsService.findOne, hfind, Option.elim,
          pure_bind, if_pos haccess, htaken, if_true]
        exact hrefused (if_neg (by simp [htaken]))
      | false =>
        simp only [MerchantsService.update, MerchantsService.findOne, hfind, Option.elim,
          pure_bind, if_pos haccess, htaken, Bool.false_eq_true, if_false]
        refine refines_updateRow hready ⟨fun _ => rfl, fun _ => rfl⟩ fun r => ?_
        by_cases hadmin : owner.role = .ADMIN
        · simp only [Review.act, htaken, hadmin, and_self, if_true]
          cases dto.status <;> rfl
        · simp only [Review.act, hadmin, false_and, if_false]
          rfl
    · have hadmin : owner.role ≠ .ADMIN := fun h => haccess (.inl h)
      simp only [MerchantsService.update, MerchantsService.findOne, hfind, Option.elim,
        pure_bind, if_neg haccess]
      exact hrefused (if_neg fun h => hadmin h.1)

/-- **Refinement.** -/
theorem Review.refines (hready : Ready p id d) (r : Review) (t : Moment) :
    Refines p id (r.actOn id d) d (r.after p t d) := by
  cases r with
  | adminApprove actor merchantId dto =>
    refine refines_review hready ⟨fun _ => rfl, fun _ => rfl⟩ fun row hrow => ?_
    obtain rfl : row.id = merchantId := id_of_find hrow
    obtain ⟨f, htold, hf⟩ := told_of_syncApproval t row hready.operable
    exact ⟨f, htold, fun howner => congrArg (Statuses.mk .APPROVED) (hf howner)⟩
  | adminReject actor merchantId dto =>
    exact refines_review hready ⟨fun _ => rfl, fun _ => rfl⟩ fun row hrow =>
      ⟨rejected, told_of_reject t hready.operable, fun _ => rfl⟩
  | adminSuspend actor merchantId dto =>
    exact refines_review hready ⟨fun _ => rfl, fun _ => rfl⟩ fun row hrow =>
      ⟨suspended, told_of_suspend t hready.operable, fun _ => rfl⟩
  | update owner id' dto => exact refines_update hready
  | approve admin id' => exact refines_updateRow hready ⟨fun _ => rfl, fun _ => rfl⟩ fun _ => rfl
  | reject id' => exact refines_updateRow hready ⟨fun _ => rfl, fun _ => rfl⟩ fun _ => rfl
  | suspend id' => exact refines_updateRow hready ⟨fun _ => rfl, fun _ => rfl⟩ fun _ => rfl

end Refinement

/-! ### Runs -/

section Runs

variable {p : Platform} {d₀ d : Books} {id : Uuid} {tr : List (Move Books (Review × Moment))}

lemma operable_of_init (h : (system p).Init d) : Operable p d.registry := by
  obtain ⟨⟨ledger, hreach⟩, hadmin, hpaused⟩ := h
  exact ⟨⟨MerchantRegistry.initialized_of_reachable hreach, hpaused⟩, hadmin,
    MerchantRegistry.keyed_of_reachable hreach⟩

/-- The merchant's statuses agree. -/
def Agrees (id : Uuid) (d : Books) : Prop := ∀ s ∈ d.statuses id, Agree s

/-- A review that fits what is on chain when it begins. -/
def Fitting (id : Uuid) (m : Move Books (Review × Moment)) : Prop :=
  (m.label.1.actOn id m.pre).Fits (recordOf m.pre.registry id)

/-- **Agreement.** The statuses of a merchant agree after every review of a run exactly if every
review fits. -/
theorem statuses_agree_iff (p : Platform) (id : Uuid) (d₀ d : Books)
    (tr : List (Move Books (Review × Moment))) (h₀ : (system p).Init d₀)
    (hregistrable : Registrable p id d₀) (hagrees : Agrees id d₀)
    (h : (system p).Run d₀ tr d) :
    (∀ m ∈ tr, Agrees id m.post) ↔ ∀ m ∈ tr, Fitting id m := by
  refine h.forall_post_iff (I := Ready p id) ⟨operable_of_init h₀, hregistrable⟩ hagrees ?_ ?_
  · rintro d ⟨r, t⟩ d' hready rfl
    exact (r.refines hready t).ready
  · rintro d ⟨r, t⟩ d' hready hagree rfl
    obtain ⟨row, hrow, -⟩ := hready.registrable
    have hpre : d.statuses id = some ⟨row.status, recordOf d.registry id⟩ := by
      rw [Books.statuses, hrow, Option.map_some]
    have hpost := (r.refines hready t).statuses
    rw [hpre, Option.map_some] at hpost
    rw [Agrees, hpost]
    refine Iff.trans ?_ (agree_turn_iff (hagree _ hpre) (r.actOn id d))
    exact ⟨fun h => h _ rfl, fun h s hs => Option.some.inj hs ▸ h⟩

end Runs

/-! ### A merchant that is approved and then rejected -/

def sampleId : Uuid where
  digits := List.replicate 32 'a'
  length_eq := List.length_replicate
  lower c hc := by
    rw [List.eq_of_mem_replicate hc]
    decide

/-- The platform's key, and the address that stands in for a missing owner. -/
def samplePlatform : Platform where
  address s := if s = AdminService.platformDefault then some ⟨7⟩ else none
  platform := ⟨1⟩
  registry := ⟨100⟩
  sha256 _ := ""

/-- A new merchant over a new registry. -/
def sampleBooks : Books where
  merchants := [{ id := sampleId, ownerUserId := none, displayName := "Shop", defaultUpiVpa := none }]
  registry := (MerchantRegistry.constructor ⟨1⟩).commit (samplePlatform.env 5) {}

def sampleAdmin : Principal := ⟨"admin", .ADMIN⟩

def sampleMoment : Moment := ⟨0, 6, 7⟩

lemma sampleBooks_init : (system samplePlatform).Init sampleBooks :=
  ⟨⟨5, .init ⟨samplePlatform.env 5, ⟨⟨1⟩, rfl⟩, rfl⟩⟩, rfl, rfl⟩

lemma sampleBooks_registrable : Registrable samplePlatform sampleId sampleBooks :=
  ⟨_, rfl, by decide⟩

lemma sampleBooks_agrees : Agrees sampleId sampleBooks := by
  rintro s hs
  obtain rfl : (⟨.PENDING, none⟩ : Statuses) = s := Option.some.inj hs
  exact agree_pending.mpr nofun

lemma run_review {p : Platform} {d₀ d : Books} {tr : List (Move Books (Review × Moment))}
    (h : (system p).Run d₀ tr d) (r : Review) (t : Moment) :
    (system p).Run d₀ (tr ++ [⟨d, (r, t), r.after p t d⟩]) (r.after p t d) := h.snoc rfl

/-- The registry does not reject a merchant that it has approved, and the admin service does not
mind. -/
theorem rejected_merchant_stays_approved : ∃ p id d₀ tr d, (system p).Init d₀ ∧
    Registrable p id d₀ ∧ Agrees id d₀ ∧ (system p).Run d₀ tr d ∧
      ¬∀ m ∈ tr, Agrees id m.post := by
  have h := Transition.System.Run.nil (M := system samplePlatform) sampleBooks
  have h := run_review h (.adminApprove sampleAdmin sampleId {}) sampleMoment
  have h := run_review h (.adminReject sampleAdmin sampleId {}) sampleMoment
  refine ⟨_, sampleId, _, _, _, sampleBooks_init, sampleBooks_registrable, sampleBooks_agrees, h, ?_⟩
  intro hall
  have hlast := hall _ (List.mem_append_right _ (List.mem_singleton_self _))
    ⟨.REJECTED, some .approved⟩ (by decide +kernel)
  exact absurd (hlast.rejected rfl) (by decide)

/-- A merchant that is approved, suspended and approved again. -/
theorem statuses_agree_iff_of_resumed_merchant : ∃ d₀ tr d,
    (system samplePlatform).Run d₀ tr d ∧ tr.length = 3 ∧ ∀ m ∈ tr, Agrees sampleId m.post := by
  have h := Transition.System.Run.nil (M := system samplePlatform) sampleBooks
  have h := run_review h (.adminApprove sampleAdmin sampleId {}) sampleMoment
  have h := run_review h (.adminSuspend sampleAdmin sampleId {}) sampleMoment
  have h := run_review h (.adminApprove sampleAdmin sampleId {}) sampleMoment
  refine ⟨_, _, _, h, rfl, (statuses_agree_iff _ _ _ _ _ sampleBooks_init sampleBooks_registrable
    sampleBooks_agrees h).mpr ?_⟩
  simp only [List.nil_append, List.forall_mem_append, List.forall_mem_singleton, Fitting]
  decide +kernel

end PayEra.Api.Merchants
