import PayEra.Api.Histories

/-!
# Isolation of idempotency keys

Is a request of a user answered the same, and does it do the same, whatever other users post? Is a
stored response replayed to the request that it answered only, and not once it has expired? The table
of keys has columns for all three, the user, a hash of the request and an expiry, but it is looked up
by the key alone.

What a user's requests do depends on what others have stored under their keys, and on nothing else
that others do. Two histories that differ in other users' requests are unwound together: as long as
the user's lookups and saves meet the same rows of others, the two halls are alike for this user.
-/

namespace PayEra.Api.Histories

open Async (Program)
open Unwinding (Parted)

/-! ### The property -/

/-- The call, if it took effect: an `upsert` has stored its row, or none. -/
def effectOf (op : DeskOp) (took : Bool) (row : Option ApiIdempotencyKey) : Option DeskOp :=
  match op with
  | .upsertIdempotencyKey _ => row.map .upsertIdempotencyKey
  | _ => if took then some op else none

def Call.effect (c : Call) : Option DeskOp := effectOf c.op c.took (stored c.op c.took c.found)

/-- What a call of a request did, and the response to the request. -/
structure Deed where
  visitor : Visitor
  effect : Option DeskOp
  reply : Option (Except String NewTransaction)
  deriving DecidableEq

def Call.deed (c : Call) : Deed := ⟨c.visitor, c.effect, c.reply⟩

/-- The calls of a user's requests. -/
def Hall.callsOf (A : String) (h : Hall) : List Call := h.log.filter (·.visitor.user.id = A)

/-- What a user's requests did, with the responses to them. -/
def observed (A : String) (h : Hall) : List Deed := (h.callsOf A).map Call.deed

/-- The requests of a user, and what happens outside. -/
def Turn.seen (A : String) : Turn → Bool
  | .arrive v _ _ | .proceed v _ => v.user.id = A
  | .outside _ => true

/-- The body of a request. -/
def Hall.body (h : Hall) (v : Visitor) : Option CreateTransactionDto := (h.posted v).map (·.dto)

/-- The response that a lookup led to. -/
def Call.replayed : Call → Option NewTransaction
  | ⟨_, .findIdempotencyKey _ _, _, _, _, some (.ok t)⟩ => some t
  | _ => none

/-- The row under the key that is looked up. -/
def Call.row : Call → Option ApiIdempotencyKey
  | ⟨_, .findIdempotencyKey scope key, _, _, found, _⟩ => found.find scope key
  | _ => none

/-- A response is replayed only for a request with the body that produced it. -/
def Bound (h : Hall) : Prop :=
  ∀ c ∈ h.log, ∀ t ∈ c.replayed, ∀ c' ∈ h.log, created c'.op c'.took = some t →
    h.body c'.visitor = h.body c.visitor

/-- A response is not replayed after the expiry of its key. -/
def InTime (h : Hall) : Prop :=
  ∀ c ∈ h.log, c.replayed.isSome → ∀ row ∈ c.row, c.found.backend.clock ≤ row.expiresAt

/-! ### The condition -/

/-- The row under a key, if another user has stored it. -/
def foreign (A scope key : String) (d : Desk) : Option ApiIdempotencyKey :=
  (d.find scope key).filter (·.userId ≠ some A)

/-- What a lookup or a save meets that is another user's. -/
inductive View where
  | looks (responseBody : Option NewTransaction)
  | saves (taken : Bool)
  deriving DecidableEq

def Call.view (A : String) : Call → Option View
  | ⟨_, .findIdempotencyKey scope key, .ok _, _, found, _⟩ =>
    some (.looks ((foreign A scope key found).bind (·.responseBody)))
  | ⟨_, .upsertIdempotencyKey row, _, true, found, _⟩ =>
    some (.saves (foreign A row.scope row.key found).isSome)
  | _ => none

/-- What a user's requests meet, one lookup or save after the other. -/
def views (A : String) (h : Hall) : List View := (h.callsOf A).filterMap (Call.view A)

/-- The row that a lookup returns. -/
def Call.hit : Call → Option ApiIdempotencyKey
  | ⟨_, .findIdempotencyKey scope key, .ok _, _, found, _⟩ => found.find scope key
  | _ => none

/-- No lookup returns the response to another body. -/
def Matching (h : Hall) : Prop :=
  ∀ c ∈ h.log, ∀ row ∈ c.hit, ∀ t ∈ row.responseBody, ∀ c' ∈ h.log,
    created c'.op c'.took = some t → h.body c'.visitor = h.body c.visitor

/-- No lookup returns a row that has expired. -/
def Current (h : Hall) : Prop :=
  ∀ c ∈ h.log, ∀ row ∈ c.hit, c.found.backend.clock ≤ row.expiresAt

deriving instance DecidableEq for CreateTransactionDto

section Decidable

variable (h : Hall)

instance : Decidable (Bound h) := inferInstanceAs (Decidable (∀ c ∈ h.log, _))

instance : Decidable (InTime h) := inferInstanceAs (Decidable (∀ c ∈ h.log, _))

instance : Decidable (Matching h) := inferInstanceAs (Decidable (∀ c ∈ h.log, _))

instance : Decidable (Current h) := inferInstanceAs (Decidable (∀ c ∈ h.log, _))

end Decidable

/-! ### Replays -/

section Replays

variable {js : Js} {h : Hall} {c : Call}

/-- What a lookup returns is replayed. -/
lemma Call.Looks.replayed_eq (hc : c.Looks) : c.replayed = c.hit.bind (·.responseBody) := by
  obtain ⟨v, op, r, took, found, reply⟩ := c
  cases op with
  | findIdempotencyKey scope key =>
    cases r with
    | ok existing =>
      obtain ⟨-, rfl, -⟩ := hc
      show Call.replayed ⟨_, _, _, _, _, ((found.find scope key).bind (·.responseBody)).map .ok⟩ =
        (found.find scope key).bind (·.responseBody)
      cases (found.find scope key).bind (·.responseBody) with
      | none => rfl
      | some t => rfl
    | error e =>
      obtain rfl : reply = some (.error e) := hc
      rfl
  | _ => rfl

/-- A row that is returned has a response, and is the row under the key. -/
lemma Call.Looks.of_hit (hc : c.Looks) {row : ApiIdempotencyKey} (hrow : c.hit = some row) :
    c.row = some row ∧ ∃ t, row.responseBody = some t := by
  obtain ⟨v, op, r, took, found, reply⟩ := c
  cases op with
  | findIdempotencyKey scope key =>
    cases r with
    | ok existing => exact ⟨hrow, Option.isSome_iff_exists.mp (hc.2.2 row hrow)⟩
    | error e => cases hrow
  | _ => cases hrow

lemma Call.row_of_hit {row row' : ApiIdempotencyKey} (hrow : c.hit = some row)
    (hrow' : c.row = some row') : row = row' := by
  obtain ⟨v, op, r, took, found, reply⟩ := c
  cases op with
  | findIdempotencyKey scope key =>
    cases r with
    | ok existing => exact Option.some.inj (hrow.symm.trans hrow')
    | error e => cases hrow
  | _ => cases hrow

lemma bound_iff (hinv : Inv js h) : Bound h ↔ Matching h := by
  constructor
  · intro hbound c hc row hrow t ht
    refine hbound c hc t ?_
    rw [(hinv.log c hc).replayed_eq]
    exact Option.mem_bind_iff.mpr ⟨row, hrow, ht⟩
  · intro hmatching c hc t ht
    rw [(hinv.log c hc).replayed_eq] at ht
    obtain ⟨row, hrow, hbody⟩ := Option.mem_bind_iff.mp ht
    exact hmatching c hc row hrow t hbody

lemma inTime_iff (hinv : Inv js h) : InTime h ↔ Current h := by
  constructor
  · intro hintime c hc row hrow
    obtain ⟨hunder, t, ht⟩ := (hinv.log c hc).of_hit hrow
    refine hintime c hc ?_ row hunder
    rw [(hinv.log c hc).replayed_eq, Option.mem_bind_iff.mpr ⟨row, hrow, ht⟩]
    rfl
  · intro hcurrent c hc hreplayed row hunder
    rw [(hinv.log c hc).replayed_eq] at hreplayed
    obtain ⟨t, ht⟩ := Option.isSome_iff_exists.mp hreplayed
    obtain ⟨row', hrow', -⟩ := Option.bind_eq_some_iff.mp ht
    obtain rfl := Call.row_of_hit hrow' hunder
    exact hcurrent c hc row' hrow'

end Replays

/-! ### The same answers -/

section Answers

variable {user : Principal} {given : List String} {op : DeskOp} {d d' : Desk} {x : Reception}

/-- The results of a call depend on the value that it is answered with. -/
lemma consult_congr (h : (Desk.answer x.oracle op d).map Prod.fst =
    (Desk.answer x.oracle op d').map Prod.fst) :
    (consult x op d).1 = (consult x op d').1 ∧ (consult x op d).2.1 = (consult x op d').2.1 := by
  simp only [consult]
  cases hd : Desk.answer x.oracle op d with
  | none =>
    cases hd' : Desk.answer x.oracle op d' with
    | none => exact ⟨rfl, rfl⟩
    | some vd' =>
      rw [hd, hd'] at h
      cases h
  | some vd =>
    cases hd' : Desk.answer x.oracle op d' with
    | none =>
      rw [hd, hd'] at h
      cases h
    | some vd' =>
      rw [hd, hd'] at h
      obtain ⟨v, b⟩ := vd
      obtain ⟨v', b'⟩ := vd'
      obtain rfl : v = v' := Option.some.inj h
      dsimp only
      split <;> exact ⟨rfl, rfl⟩

/-- A new transaction is refused if one of its unique columns is taken. -/
lemma createTransaction_refused {o : Oracle} {b : Backend} {t : NewTransaction} :
    Backend.answer o (.createTransaction t) b = none ↔ ∃ c : Unique, c.of t ∈ c.values b := by
  rw [Backend.answer]
  split_ifs with h
  · refine iff_of_true rfl ?_
    rcases h with h | h
    · obtain ⟨t', ht', heq⟩ := List.any_eq_true.mp h
      rcases of_decide_eq_true heq with heq | heq
      · exact ⟨.id, List.mem_map.mpr ⟨t', ht', heq⟩⟩
      · exact ⟨.publicId, List.mem_map.mpr ⟨t', ht', heq⟩⟩
    · obtain ⟨s, hs, heq⟩ := List.any_eq_true.mp h
      rcases of_decide_eq_true heq with heq | heq
      · exact ⟨.settlementId, List.mem_map.mpr ⟨s, hs, heq⟩⟩
      · exact ⟨.settledId, List.mem_map.mpr ⟨s, hs, heq⟩⟩
  · refine iff_of_false id ?_
    rintro ⟨c, hc⟩
    apply h
    cases c with
    | id =>
      obtain ⟨t', ht', heq⟩ := List.mem_map.mp hc
      exact .inl (List.any_eq_true.mpr ⟨t', ht', decide_eq_true (.inl heq)⟩)
    | publicId =>
      obtain ⟨t', ht', heq⟩ := List.mem_map.mp hc
      exact .inl (List.any_eq_true.mpr ⟨t', ht', decide_eq_true (.inr heq)⟩)
    | settlementId =>
      obtain ⟨s, hs, heq⟩ := List.mem_map.mp hc
      exact .inr (List.any_eq_true.mpr ⟨s, hs, decide_eq_true (.inl heq)⟩)
    | settledId =>
      obtain ⟨s, hs, heq⟩ := List.mem_map.mp hc
      exact .inr (List.any_eq_true.mpr ⟨s, hs, decide_eq_true (.inr heq)⟩)

/-- The service is answered the same where requests read the same, and the same columns are taken. -/
lemma answer_congr {c : Request} (hmay : MayAsk user given c.op) (hreads : SameReads d d')
    (huuid : c.op = .uuid → x.oracle.uuid ∉ d.backend.uuids ∧ x.oracle.uuid ∉ d'.backend.uuids)
    (hvalues : ∀ u : Unique, ∀ id ∈ given, id ∈ u.values d.backend ↔ id ∈ u.values d'.backend) :
    (Desk.answer x.oracle (.service c) d).map Prod.fst =
      (Desk.answer x.oracle (.service c) d').map Prod.fst := by
  obtain ⟨source, op⟩ := c
  simp only [Desk.answer, Option.map_map]
  cases op with
  | now => simp [Backend.answer, hreads.clock]
  | uuid => simp [Backend.answer, huuid rfl]
  | findWallet id => simp [Backend.answer, hreads.wallets]
  | findMerchant id => simp [Backend.answer, hreads.merchants]
  | findActiveQrCode id merchantId => simp [Backend.answer, hreads.merchantQrCodes]
  | fetchRates => rfl
  | createAdminLog log => rfl
  | createReward reward =>
    simp only [Backend.answer]
    split_ifs <;> rfl
  | createTransaction t =>
    have hiff : Backend.answer x.oracle (.createTransaction t) d.backend = none ↔
        Backend.answer x.oracle (.createTransaction t) d'.backend = none := by
      rw [createTransaction_refused, createTransaction_refused]
      exact exists_congr fun u => hvalues u _ (hmay.2 u)
    cases hd : Backend.answer x.oracle (.createTransaction t) d.backend with
    | none =>
      rw [hiff.mp hd]
      rfl
    | some vb =>
      cases hd' : Backend.answer x.oracle (.createTransaction t) d'.backend with
      | none =>
        rw [hiff.mpr hd'] at hd
        cases hd
      | some vb' => rfl
  | _ => exact hmay.elim

end Answers

/-! ### Halls that are alike -/

/-- The rows that a user has stored. -/
def Desk.own (A : String) (d : Desk) : List ApiIdempotencyKey :=
  d.apiIdempotencyKeys.filter (·.userId = some A)

/-- Two halls in which a user's requests have come equally far, and have met and done the same. -/
structure Alike (js : Js) (A : String) (h h' : Hall) : Prop where
  inv : Inv js h
  inv' : Inv js h'
  posted : ∀ v, v.user.id = A → h.posted v = h'.posted v
  given : ∀ v, v.user.id = A → ∀ id, h.Given v id ↔ h'.Given v id
  reads : SameReads h.desk h'.desk
  values : ∀ (u : Unique) v id, v.user.id = A → h.Given v id →
    (id ∈ u.values h.desk.backend ↔ id ∈ u.values h'.desk.backend)
  own : Desk.own A h.desk = Desk.own A h'.desk
  same_observed : observed A h = observed A h'
  same_views : views A h = views A h'

section Alike

variable {js : Js} {A : String} {h h' : Hall} {v : Visitor} {x : Reception}
  {dto : CreateTransactionDto} {idempotencyKey : Option String} {op : DeskOp}
  {k : Except String op.Res → DeskProgram NewTransaction}

lemma SameReads.symm {d d' : Desk} (h : SameReads d d') : SameReads d' d :=
  ⟨h.clock.symm, h.merchants.symm, h.merchantQrCodes.symm, h.wallets.symm⟩

lemma SameReads.trans {d d' d'' : Desk} (h : SameReads d d') (h' : SameReads d' d'') :
    SameReads d d'' :=
  ⟨h'.clock.trans h.clock, h'.merchants.trans h.merchants,
    h'.merchantQrCodes.trans h.merchantQrCodes, h'.wallets.trans h.wallets⟩

lemma Alike.symm (ha : Alike js A h h') : Alike js A h' h where
  inv := ha.inv'
  inv' := ha.inv
  posted v hv := (ha.posted v hv).symm
  given v hv id := (ha.given v hv id).symm
  reads := ha.reads.symm
  values u v id hv hid := (ha.values u v id hv ((ha.given v hv id).mpr hid)).symm
  own := ha.own.symm
  same_observed := ha.same_observed.symm
  same_views := ha.same_views.symm

/-- The log entry of a call. -/
def entry (h : Hall) (v : Visitor) (x : Reception) (op : DeskOp)
    (k : Except String op.Res → DeskProgram NewTransaction) : Call where
  visitor := v
  op := op
  result := (consult x op h.desk).1
  took := (consult x op h.desk).2.1
  found := h.desk
  reply := response (k (consult x op h.desk).1)

lemma callsOf_call (hv : v.user.id = A) : (h.call v x dto idempotencyKey op k).callsOf A =
    h.callsOf A ++ [entry h v x op k] := by
  rw [Hall.callsOf, Hall.call, List.filter_append, Hall.callsOf]
  simp [hv, entry]

lemma observed_call (hv : v.user.id = A) : observed A (h.call v x dto idempotencyKey op k) =
    observed A h ++ [(entry h v x op k).deed] := by
  rw [observed, callsOf_call hv, List.map_append, observed]
  rfl

lemma views_call (hv : v.user.id = A) : views A (h.call v x dto idempotencyKey op k) =
    views A h ++ ((entry h v x op k).view A).toList := by
  rw [views, callsOf_call hv, List.filterMap_append, views, List.filterMap_cons]
  cases (entry h v x op k).view A with
  | none => rfl
  | some a => rfl

lemma callsOf_call_other (hv : v.user.id ≠ A) :
    (h.call v x dto idempotencyKey op k).callsOf A = h.callsOf A := by
  rw [Hall.callsOf, Hall.call, List.filter_append, Hall.callsOf]
  simp [hv]

lemma own_append {d d' : Desk} {rows : List ApiIdempotencyKey}
    (h : d'.apiIdempotencyKeys = d.apiIdempotencyKeys ++ rows) :
    Desk.own A d' = Desk.own A d ++ rows.filter (·.userId = some A) := by
  rw [Desk.own, h, List.filter_append, Desk.own]

/-- A call for another user. -/
lemma Alike.unseen_call (ha : Alike js A h h') (hv : v.user.id ≠ A)
    (hs : Stage js h v ⟨dto, idempotencyKey, .await op k⟩) :
    Alike js A (h.call v x dto idempotencyKey op k) h' := by
  have hdoes := does_call (x := x) hs
  have hne : ∀ w : Visitor, w.user.id = A → v ≠ w := by
    rintro w hw rfl
    exact hv hw
  have hgiven : ∀ w, w.user.id = A → ∀ id,
      (h.call v x dto idempotencyKey op k).Given w id ↔ h.Given w id := by
    intro w hw id
    exact given_call.trans (or_iff_left fun hnew => hne w hw hnew.1)
  refine ⟨ha.inv.call hs, ha.inv', fun w hw => ?_, fun w hw id => ?_, ?_, fun u w id hw hid => ?_, ?_,
    ?_, ?_⟩
  · rw [posted_call_of_ne (hne w hw).symm]
    exact ha.posted w hw
  · exact (hgiven w hw id).trans (ha.given w hw id)
  · exact hdoes.reads.symm.trans ha.reads
  · have hold : h.Given w id := (hgiven w hw id).mp hid
    rw [← ha.values u w id hw hold, hdoes.values u, List.mem_append]
    refine or_iff_left fun hnew => ?_
    obtain ⟨t, ht, rfl⟩ := Option.map_eq_some_iff.mp (Option.mem_toList.mp hnew)
    exact hne w hw (ha.inv.given_unique v w _ (hs.given_of_created ht u) hold)
  · rw [← ha.own, own_append hdoes.keys]
    refine (congrArg (Desk.own A h.desk ++ ·) (List.filter_eq_nil_iff.mpr fun row hrow => ?_)).trans
      (List.append_nil _)
    rw [(hs.saves (Option.mem_toList.mp hrow)).userId]
    simpa using hv
  · rw [← ha.same_observed, observed, callsOf_call_other hv, observed]
  · rw [← ha.same_views, views, callsOf_call_other hv, views]

/-- A call that leads to the same in both halls. -/
lemma Alike.seen_call (ha : Alike js A h h') (hv : v.user.id = A)
    (hs : Stage js h v ⟨dto, idempotencyKey, .await op k⟩)
    (hs' : Stage js h' v ⟨dto, idempotencyKey, .await op k⟩)
    (hk : k (consult x op h.desk).1 = k (consult x op h'.desk).1)
    (hhanded : handed op (consult x op h.desk).1 = handed op (consult x op h'.desk).1)
    (htook : (consult x op h.desk).2.1 = (consult x op h'.desk).2.1)
    (hstored : stored op (consult x op h.desk).2.1 h.desk = stored op (consult x op h'.desk).2.1 h'.desk)
    (hview : (entry h v x op k).view A = (entry h' v x op k).view A) :
    Alike js A (h.call v x dto idempotencyKey op k) (h'.call v x dto idempotencyKey op k) := by
  have hdoes := does_call (x := x) hs
  have hdoes' := does_call (x := x) hs'
  refine ⟨ha.inv.call hs, ha.inv'.call hs', fun w hw => ?_, fun w hw id => ?_, ?_,
    fun u w id hw hid => ?_, ?_, ?_, ?_⟩
  · by_cases hwv : w = v
    · subst hwv
      rw [posted_call_self, posted_call_self, hk]
    · rw [posted_call_of_ne hwv, posted_call_of_ne hwv]
      exact ha.posted w hw
  · rw [given_call, given_call, ha.given w hw id, hhanded]
  · exact (hdoes.reads.symm.trans ha.reads).trans hdoes'.reads
  · rw [hdoes.values u, hdoes'.values u, List.mem_append, List.mem_append, htook]
    refine or_congr_left ?_
    rcases given_call.mp hid with hold | ⟨rfl, hnew⟩
    · exact ha.values u w id hw hold
    · -- a new identifier is in no column
      exact iff_of_false (fun hmem => hdoes.fresh id hnew (ha.inv.values u id hmem))
        fun hmem => hdoes'.fresh id (hhanded ▸ hnew) (ha.inv'.values u id hmem)
  · rw [own_append hdoes.keys, own_append hdoes'.keys, ha.own, hstored]
  · have hstored' := hstored
    rw [htook] at hstored'
    rw [observed_call hv, observed_call hv, ha.same_observed, Call.deed, Call.deed, Call.effect,
      Call.effect]
    simp only [entry, hk, htook, hstored']
  · rw [views_call hv, views_call hv, ha.same_views, hview]

/-- A call that does or leads to something else in the two halls, because it meets something else. -/
lemma Alike.parted (ha : Alike js A h h') (hv : v.user.id = A)
    (hdeed : (entry h v x op k).deed ≠ (entry h' v x op k).deed) {a a' : View}
    (hview : (entry h v x op k).view A = some a) (hview' : (entry h' v x op k).view A = some a')
    (hne : a ≠ a') :
    Parted (observed A (h.call v x dto idempotencyKey op k))
        (observed A (h'.call v x dto idempotencyKey op k)) ∧
      Parted (views A (h.call v x dto idempotencyKey op k))
        (views A (h'.call v x dto idempotencyKey op k)) := by
  constructor
  · rw [observed_call hv, observed_call hv, ha.same_observed]
    exact Unwinding.parted_of_ne hdeed
  · rw [views_call hv, views_call hv, ha.same_views, hview, hview']
    exact Unwinding.parted_of_ne hne

end Alike

/-! ### What others have stored -/

section Foreign

variable {js : Js} {A scope key : String} {h h' : Hall} {d : Desk}

/-- The user's own row under a key. -/
def Desk.findOwn (A scope key : String) (d : Desk) : Option ApiIdempotencyKey :=
  (Desk.own A d).find? fun row => row.scope = scope ∧ row.key = key

lemma find?_filter_of_find? {α : Type} {p q : α → Bool} {l : List α} {a : α} (h : l.find? q = some a)
    (ha : p a) : (l.filter p).find? q = some a := by
  induction l with
  | nil => cases h
  | cons b l ih =>
    by_cases hq : q b
    · rw [List.find?_cons_of_pos hq] at h
      cases h
      rw [List.filter_cons_of_pos ha, List.find?_cons_of_pos hq]
    · rw [List.find?_cons_of_neg hq] at h
      by_cases hp : p b
      · rw [List.filter_cons_of_pos hp, List.find?_cons_of_neg hq]
        exact ih h
      · rw [List.filter_cons_of_neg hp]
        exact ih h

/-- Where no other user has stored a row, the row that is found is the user's own. -/
lemma find_eq_findOwn (hnone : foreign A scope key d = none) :
    d.find scope key = Desk.findOwn A scope key d := by
  cases hfind : d.find scope key with
  | none =>
    symm
    refine List.find?_eq_none.mpr fun row hrow => ?_
    exact List.find?_eq_none.mp hfind row (List.mem_of_mem_filter hrow)
  | some row =>
    rw [foreign, hfind, Option.filter_eq_none_iff] at hnone
    have huser : row.userId = some A := by simpa using hnone row rfl
    exact (find?_filter_of_find? hfind (by simpa using huser)).symm

/-- Where another user has stored a row, the user has none. -/
lemma Inv.findOwn_eq_none (hinv : Inv js h) {row : ApiIdempotencyKey}
    (hrow : foreign A scope key h.desk = some row) : Desk.findOwn A scope key h.desk = none := by
  obtain ⟨hfind, huser⟩ := Option.filter_eq_some_iff.mp hrow
  refine List.find?_eq_none.mpr fun row' hrow' hmatch => ?_
  obtain ⟨hmem', huser'⟩ := List.mem_filter.mp hrow'
  have hmatch' := of_decide_eq_true hmatch
  have hfound : row.scope = scope ∧ row.key = key := by
    simpa using List.find?_some (show h.desk.apiIdempotencyKeys.find? _ = some row from hfind)
  have hne : row' ≠ row := by
    rintro rfl
    simp only [decide_eq_true_eq, ne_eq] at huser huser'
    exact huser huser'
  have hsymm : Std.Symm fun row row' : ApiIdempotencyKey =>
      ¬(row.scope = row'.scope ∧ row.key = row'.key) :=
    ⟨fun _ _ hnot heq => hnot ⟨heq.1.symm, heq.2.symm⟩⟩
  exact hinv.unique.forall hmem' (List.mem_of_find?_eq_some hfind) hne
    ⟨hmatch'.1.trans hfound.1.symm, hmatch'.2.trans hfound.2.symm⟩

/-- The response that another user has stored. -/
lemma Inv.foreign_body (hinv : Inv js h) {row : ApiIdempotencyKey}
    (hrow : foreign A scope key h.desk = some row) :
    ∃ t, row.responseBody = some t ∧ t.row.userId ≠ A := by
  obtain ⟨hfind, huser⟩ := Option.filter_eq_some_iff.mp hrow
  obtain ⟨user, t, hid, hbody, ht⟩ := hinv.stored_body hfind
  refine ⟨t, hbody, ?_⟩
  rintro rfl
  rw [hid, ht] at huser
  simp at huser

end Foreign

/-! ### A call of the user, in both halls -/

section Seen

variable {js : Js} {A : String} {h h' : Hall} {v : Visitor} {x : Reception}
  {dto : CreateTransactionDto} {idempotencyKey : Option String} {k : String}

/-- The halls are alike after the call as well, or have parted. -/
def AlikeOrParted (js : Js) (A : String) (h h' : Hall) : Prop :=
  Alike js A h h' ∨ Parted (observed A h) (observed A h') ∧ Parted (views A h) (views A h')

/-- A call of the service. -/
lemma Alike.service (ha : Alike js A h h') (hv : v.user.id = A) {c : Request}
    {K : Except String c.Res → DeskProgram NewTransaction}
    (hs : Stage js h v ⟨dto, idempotencyKey, .await (.service c) K⟩)
    (hs' : Stage js h' v ⟨dto, idempotencyKey, .await (.service c) K⟩)
    (huuid : c.op = .uuid → x.oracle.uuid ∉ h.desk.backend.uuids ∧
      x.oracle.uuid ∉ h'.desk.backend.uuids) :
    Alike js A (h.call v x dto idempotencyKey (.service c) K)
      (h'.call v x dto idempotencyKey (.service c) K) := by
  rcases hs.await_cases with ⟨key, hop, -⟩ | ⟨given, hgiven, hmay, -⟩
  · cases hop
  · have hasks : MayAsk v.user given c.op := hmay
    have hanswer := answer_congr hasks ha.reads huuid
      fun u id hid => ha.values u v id hv (hgiven id hid)
    obtain ⟨hr, htook⟩ := consult_congr hanswer
    exact ha.seen_call hv hs hs' (congrArg K hr) (congrArg (handed _) hr) htook rfl rfl

lemma AlikeOrParted.symm (hp : AlikeOrParted js A h h') : AlikeOrParted js A h' h := by
  rcases hp with ha | ⟨hobserved, hviews⟩
  · exact .inl ha.symm
  · exact .inr ⟨hobserved.symm, hviews.symm⟩

/-- A response is stored unless there is a row. -/
lemma stored_upsert {row : ApiIdempotencyKey} {took : Bool} {d : Desk} :
    stored (.upsertIdempotencyKey row) took d =
      if took = true ∧ d.find row.scope row.key = none then some row else none := by
  cases took with
  | false => rfl
  | true =>
    rw [stored]
    cases d.find row.scope row.key with
    | none => rfl
    | some existing => rfl

/-- Whether there is a row is the same if it is the same for other users' rows. -/
lemma Alike.find_none_iff (ha : Alike js A h h') {scope key : String}
    (hforeign : (foreign A scope key h.desk).isSome = (foreign A scope key h'.desk).isSome) :
    h.desk.find scope key = none ↔ h'.desk.find scope key = none := by
  cases hf : foreign A scope key h.desk with
  | none =>
    have hf' : foreign A scope key h'.desk = none := by
      rw [hf] at hforeign
      exact Option.not_isSome_iff_eq_none.mp fun hsome => by rw [← hforeign] at hsome; cases hsome
    rw [find_eq_findOwn hf, find_eq_findOwn hf', Desk.findOwn, Desk.findOwn, ha.own]
  | some row =>
    obtain ⟨row', hf'⟩ := Option.isSome_iff_exists.mp (hforeign.symm.trans (by rw [hf]; rfl))
    rw [(Option.filter_eq_some_iff.mp hf).1, (Option.filter_eq_some_iff.mp hf').1]
    exact iff_of_false (Option.some_ne_none _) (Option.some_ne_none _)

lemma view_upsert {row : ApiIdempotencyKey} {K : Except String Unit → DeskProgram NewTransaction}
    (htaken : (consult x (.upsertIdempotencyKey row) h.desk).2.1 = true) :
    (entry h v x (.upsertIdempotencyKey row) K).view A =
      some (.saves (foreign A row.scope row.key h.desk).isSome) := by
  simp only [entry, htaken, Call.view]

/-- Another user's row is in the way in one of the halls only. -/
lemma Alike.upsert_parted (ha : Alike js A h h') (hv : v.user.id = A) {row row' : ApiIdempotencyKey}
    {K : Except String Unit → DeskProgram NewTransaction}
    (htaken : (consult x (.upsertIdempotencyKey row) h.desk).2.1 = true)
    (htaken' : (consult x (.upsertIdempotencyKey row) h'.desk).2.1 = true)
    (hforeign : foreign A row.scope row.key h.desk = some row')
    (hforeign' : foreign A row.scope row.key h'.desk = none) :
    AlikeOrParted js A (h.call v x dto idempotencyKey (.upsertIdempotencyKey row) K)
      (h'.call v x dto idempotencyKey (.upsertIdempotencyKey row) K) := by
  have hfind : h.desk.find row.scope row.key = some row' := (Option.filter_eq_some_iff.mp hforeign).1
  have hfind' : h'.desk.find row.scope row.key = none := by
    rw [find_eq_findOwn hforeign', Desk.findOwn, ← ha.own]
    exact ha.inv.findOwn_eq_none hforeign
  refine .inr (ha.parted hv (fun heq => ?_) (view_upsert htaken) (view_upsert htaken') ?_)
  · have heffect := congrArg Deed.effect heq
    simp only [Call.deed, Call.effect, entry, effectOf, stored_upsert, htaken, htaken', hfind, hfind',
      reduceCtorEq, and_false, and_self, if_true, if_false, Option.map_none, Option.map_some] at heffect
  · rw [hforeign, hforeign']
    simp

/-- A response is saved in both halls, in neither, or another user's is in the way in one of them
only. -/
lemma Alike.upsert (ha : Alike js A h h') (hv : v.user.id = A) {row : ApiIdempotencyKey}
    {K : Except String Unit → DeskProgram NewTransaction}
    (hs : Stage js h v ⟨dto, idempotencyKey, .await (.upsertIdempotencyKey row) K⟩)
    (hs' : Stage js h' v ⟨dto, idempotencyKey, .await (.upsertIdempotencyKey row) K⟩) :
    AlikeOrParted js A (h.call v x dto idempotencyKey (.upsertIdempotencyKey row) K)
      (h'.call v x dto idempotencyKey (.upsertIdempotencyKey row) K) := by
  have hanswer : ∀ d : Desk, (Desk.answer x.oracle (.upsertIdempotencyKey row) d).map Prod.fst =
      some () := by
    intro d
    rw [Desk.answer]
    cases d.find row.scope row.key with
    | none => rfl
    | some existing => rfl
  obtain ⟨hr, htook⟩ := consult_congr ((hanswer h.desk).trans (hanswer h'.desk).symm)
  cases htaken : (consult x (.upsertIdempotencyKey row) h.desk).2.1 with
  | false =>
    have htaken' := htook.symm.trans htaken
    refine .inl (ha.seen_call hv hs hs' (congrArg K hr) rfl htook ?_ ?_)
    · rw [htaken, htaken']
      rfl
    · simp only [entry, htaken, htaken', Call.view]
  | true =>
    have htaken' := htook.symm.trans htaken
    by_cases hforeign : (foreign A row.scope row.key h.desk).isSome =
        (foreign A row.scope row.key h'.desk).isSome
    · refine .inl (ha.seen_call hv hs hs' (congrArg K hr) rfl htook ?_ ?_)
      · simp only [stored_upsert, htaken, htaken', ha.find_none_iff hforeign]
      · rw [view_upsert htaken, view_upsert htaken', hforeign]
    · cases hf : foreign A row.scope row.key h.desk with
      | some row' =>
        cases hf' : foreign A row.scope row.key h'.desk with
        | some row'' => exact absurd (by rw [hf, hf']; rfl) hforeign
        | none => exact ha.upsert_parted hv htaken htaken' hf hf'
      | none =>
        cases hf' : foreign A row.scope row.key h'.desk with
        | some row'' => exact (ha.symm.upsert_parted hv htaken' htaken hf' hf).symm
        | none => exact absurd (by rw [hf, hf']) hforeign

/-- What a lookup is answered with. -/
lemma consult_find (x : Reception) (scope key : String) (d : Desk) :
    consult x (.findIdempotencyKey scope key) d = match x.fate with
      | .returns => (.ok (d.find scope key), true, d)
      | .refused => (.error x.message, false, d)
      | .lost => (.error x.message, true, d) := by
  obtain ⟨o, fate, message⟩ := x
  cases fate <;> rfl

/-- A lookup finds the same response in both halls, unless another user has stored one in one of
them. -/
lemma Alike.body_eq (ha : Alike js A h h') {scope key : String}
    (hforeign : (foreign A scope key h.desk).bind (·.responseBody) =
      (foreign A scope key h'.desk).bind (·.responseBody)) :
    (h.desk.find scope key).bind (·.responseBody) = (h'.desk.find scope key).bind (·.responseBody) := by
  cases hf : foreign A scope key h.desk with
  | some row =>
    obtain ⟨t, hbody, -⟩ := ha.inv.foreign_body hf
    rw [hf, Option.bind_some, hbody] at hforeign
    obtain ⟨row', hf', hbody'⟩ := Option.bind_eq_some_iff.mp hforeign.symm
    rw [(Option.filter_eq_some_iff.mp hf).1, (Option.filter_eq_some_iff.mp hf').1, Option.bind_some,
      Option.bind_some, hbody, hbody']
  | none =>
    cases hf' : foreign A scope key h'.desk with
    | some row' =>
      obtain ⟨t, hbody, -⟩ := ha.inv'.foreign_body hf'
      rw [hf, hf', Option.bind_some, hbody] at hforeign
      cases hforeign
    | none => rw [find_eq_findOwn hf, find_eq_findOwn hf', Desk.findOwn, Desk.findOwn, ha.own]

/-- Another user's response in one of the halls is not what the lookup finds in the other. -/
lemma Alike.body_ne (ha : Alike js A h h') {scope key : String} {row : ApiIdempotencyKey}
    (hrow : foreign A scope key h.desk = some row)
    (hforeign : (foreign A scope key h.desk).bind (·.responseBody) ≠
      (foreign A scope key h'.desk).bind (·.responseBody)) :
    (h.desk.find scope key).bind (·.responseBody) ≠ (h'.desk.find scope key).bind (·.responseBody) := by
  intro heq
  obtain ⟨t, hbody, ht⟩ := ha.inv.foreign_body hrow
  rw [(Option.filter_eq_some_iff.mp hrow).1, Option.bind_some, hbody] at heq
  obtain ⟨row', hrow', hbody'⟩ := Option.bind_eq_some_iff.mp heq.symm
  obtain ⟨user, t', hid, hbody'', ht'⟩ := ha.inv'.stored_body hrow'
  obtain rfl := Option.some.inj (hbody'.symm.trans hbody'')
  apply hforeign
  rw [hrow, Option.bind_some, hbody]
  have huser : row'.userId ≠ some A := by
    rw [hid, ← ht']
    exact fun h => ht (Option.some.inj h)
  rw [foreign, hrow', Option.filter_some, if_pos (by simpa using huser), Option.bind_some, hbody']

/-- A lookup leads to the same in both halls, or meets something else of another user. -/
lemma Alike.lookup (ha : Alike js A h h') (hv : v.user.id = A)
    (hs : Stage js h v ⟨dto, idempotencyKey, .await (.findIdempotencyKey "transaction.create" k)
      (looked js v.user dto idempotencyKey)⟩)
    (hs' : Stage js h' v ⟨dto, idempotencyKey, .await (.findIdempotencyKey "transaction.create" k)
      (looked js v.user dto idempotencyKey)⟩) :
    AlikeOrParted js A
      (h.call v x dto idempotencyKey (.findIdempotencyKey "transaction.create" k)
        (looked js v.user dto idempotencyKey))
      (h'.call v x dto idempotencyKey (.findIdempotencyKey "transaction.create" k)
        (looked js v.user dto idempotencyKey)) := by
  cases hfate : x.fate with
  | returns =>
    by_cases hforeign : (foreign A "transaction.create" k h.desk).bind (·.responseBody) =
        (foreign A "transaction.create" k h'.desk).bind (·.responseBody)
    · have hbody := ha.body_eq hforeign
      refine .inl (ha.seen_call hv hs hs' ?_ ?_ ?_ ?_ ?_)
      · simp only [consult_find, hfate, looked, hbody]
      · rfl
      · simp only [consult_find, hfate]
      · rfl
      · simp only [entry, consult_find, hfate, Call.view, hforeign]
    · have hbody : (h.desk.find "transaction.create" k).bind (·.responseBody) ≠
          (h'.desk.find "transaction.create" k).bind (·.responseBody) := by
        cases hf : foreign A "transaction.create" k h.desk with
        | some row => exact ha.body_ne hf hforeign
        | none =>
          cases hf' : foreign A "transaction.create" k h'.desk with
          | some row' => exact (ha.symm.body_ne hf' (Ne.symm hforeign)).symm
          | none =>
            rw [hf, hf'] at hforeign
            exact absurd rfl hforeign
      have hview : ∀ h : Hall, (entry h v x (.findIdempotencyKey "transaction.create" k)
          (looked js v.user dto idempotencyKey)).view A =
            some (.looks ((foreign A "transaction.create" k h.desk).bind (·.responseBody))) := by
        intro h
        simp only [entry, consult_find, hfate, Call.view]
      refine .inr (ha.parted hv (fun heq => hbody ?_) (hview h) (hview h') ?_)
      · have hreply := congrArg Deed.reply heq
        simp only [Call.deed, entry, consult_find, hfate, response_looked] at hreply
        exact Option.map_injective (fun _ _ h => Except.ok.inj h) hreply
      · exact fun heq => hforeign (View.looks.inj heq)
  | refused | lost =>
    refine .inl (ha.seen_call hv hs hs' ?_ ?_ ?_ ?_ ?_)
    · simp only [consult_find, hfate]
    · rfl
    · simp only [consult_find, hfate]
    · rfl
    · simp only [entry, consult_find, hfate, Call.view]

end Seen

/-! ### Two histories -/

section Turns

variable {js : Js} {A : String} {h h' : Hall} {t : Turn}

lemma log_grows (js : Js) (h : Hall) (t : Turn) : h.log <+: (h.turn js t).log := by
  cases t with
  | arrive v dto idempotencyKey =>
    rw [Hall.turn]
    cases h.posted v with
    | some p => exact List.prefix_rfl
    | none => exact List.prefix_rfl
  | proceed v x =>
    rw [Hall.turn]
    cases h.posted v with
    | none => exact List.prefix_rfl
    | some p =>
      obtain ⟨dto, idempotencyKey, program⟩ := p
      cases program with
      | done r => exact List.prefix_rfl
      | await op k => exact List.prefix_append ..
  | outside x => exact List.prefix_rfl

/-- The arrival of a request of another user. -/
lemma Alike.unseen_become (ha : Alike js A h h') {v : Visitor} {p : Posted} (hv : v.user.id ≠ A)
    (hinv : Inv js (h.become v p)) : Alike js A (h.become v p) h' := by
  refine { ha with inv := hinv, posted := fun w hw => ?_ }
  have hne : w ≠ v := by
    rintro rfl
    exact hv hw
  rw [posted_become_of_ne hne]
  exact ha.posted w hw

/-- The arrival of a request of the user, in both halls. -/
lemma Alike.seen_become (ha : Alike js A h h') {v : Visitor} {p : Posted}
    (hinv : Inv js (h.become v p)) (hinv' : Inv js (h'.become v p)) :
    Alike js A (h.become v p) (h'.become v p) := by
  refine { ha with inv := hinv, inv' := hinv', posted := fun w hw => ?_ }
  by_cases hwv : w = v
  · subst hwv
    rw [posted_become_self, posted_become_self]
  · rw [posted_become_of_ne hwv, posted_become_of_ne hwv]
    exact ha.posted w hw

lemma Alike.unseen_turn (ha : Alike js A h h') (ht : ¬t.seen A) : Alike js A (h.turn js t) h' := by
  have hinv := ha.inv.turn t
  cases t with
  | arrive v dto idempotencyKey =>
    have hv : v.user.id ≠ A := by simpa [Turn.seen] using ht
    rw [Hall.turn] at hinv ⊢
    cases hp : h.posted v with
    | some p => exact ha
    | none =>
      rw [hp] at hinv
      exact ha.unseen_become hv hinv
  | proceed v x =>
    have hv : v.user.id ≠ A := by simpa [Turn.seen] using ht
    rw [Hall.turn]
    cases hp : h.posted v with
    | none => exact ha
    | some p =>
      obtain ⟨dto, idempotencyKey, program⟩ := p
      cases program with
      | done r => exact ha
      | await op k => exact ha.unseen_call hv (ha.inv.posted v _ hp)
  | outside x => exact absurd rfl ht

/-- The next call of a request of the user, in both halls. -/
lemma Alike.seen_proceed (ha : Alike js A h h') {v : Visitor} {x : Reception} (hv : v.user.id = A)
    (hok : h.Admits (.proceed v x)) (hok' : h'.Admits (.proceed v x)) :
    AlikeOrParted js A (h.turn js (.proceed v x)) (h'.turn js (.proceed v x)) := by
  have hposted := ha.posted v hv
  rw [Hall.turn, Hall.turn, ← hposted]
  cases hp : h.posted v with
  | none => exact .inl ha
  | some p =>
    have hp' : h'.posted v = some p := hposted.symm.trans hp
    have hs := ha.inv.posted v p hp
    have hs' := ha.inv'.posted v p hp'
    obtain ⟨dto, idempotencyKey, program⟩ := p
    cases program with
    | done r => exact .inl ha
    | await op k =>
      cases op with
      | service c =>
        refine .inl (ha.service hv hs hs' fun hop => ?_)
        obtain ⟨source, op⟩ := c
        subst hop
        exact ⟨hok (by rw [Hall.draws, hp]; rfl), hok' (by rw [Hall.draws, hp']; rfl)⟩
      | upsertIdempotencyKey row => exact ha.upsert hv hs hs'
      | findIdempotencyKey scope key =>
        rcases hs.await_cases with ⟨key', hop, hk⟩ | ⟨given, -, hmay, -⟩
        · cases hop
          obtain rfl := eq_of_heq hk
          exact ha.lookup hv hs hs'
        · exact hmay.elim

lemma Alike.seen_turn (ha : Alike js A h h') (hok : h.Admits t) (hok' : h'.Admits t)
    (ht : t.seen A) : AlikeOrParted js A (h.turn js t) (h'.turn js t) := by
  cases t with
  | arrive v dto idempotencyKey =>
    have hv : v.user.id = A := of_decide_eq_true ht
    have hposted := ha.posted v hv
    have hinv := ha.inv.turn (.arrive v dto idempotencyKey)
    have hinv' := ha.inv'.turn (.arrive v dto idempotencyKey)
    rw [Hall.turn] at hinv hinv'
    rw [Hall.turn, Hall.turn]
    cases hp : h.posted v with
    | some p =>
      rw [← hposted, hp]
      exact .inl ha
    | none =>
      rw [hp] at hinv
      rw [← hposted, hp] at hinv' ⊢
      exact .inl (ha.seen_become hinv hinv')
  | proceed v x => exact ha.seen_proceed (of_decide_eq_true ht) hok hok'
  | outside x =>
    refine .inl { ha with
      inv := ha.inv.turn (.outside x)
      inv' := ha.inv'.turn (.outside x)
      reads := ⟨?_, rfl, rfl, rfl⟩
      values := fun u w id hw hid => ?_ }
    · exact congrArg (· + x.elapsed) ha.reads.clock
    · have hvalues : ∀ h : Hall, u.values (h.happen x).desk.backend = u.values h.desk.backend := by
        intro h
        cases u <;> rfl
      rw [show h.turn js (.outside x) = h.happen x from rfl,
        show h'.turn js (.outside x) = h'.happen x from rfl, hvalues, hvalues]
      exact ha.values u w id hw hid

/-- What a user's requests did is unwound along with what they met. -/
lemma exact_alike (js : Js) (A : String) : Unwinding.Exact (Hall.turn js) Hall.Admits (Turn.seen A)
    (observed A) (views A) (Alike js A) where
  observed_grows h t := ((log_grows js h t).filter _).map _
  looked_grows h t := ((log_grows js h t).filter _).filterMap _
  same_observed _ _ ha := ha.same_observed
  same_looked _ _ ha := ha.same_views
  symm _ _ ha := ha.symm
  unseen _ _ _ ha _ ht := ha.unseen_turn ht
  both _ _ _ ha hok hok' ht := ha.seen_turn hok hok' ht

lemma alike_init (js : Js) (A : String) : Alike js A {} {} where
  inv := inv_init js
  inv' := inv_init js
  posted _ _ := rfl
  given _ _ _ := Iff.rfl
  reads := ⟨rfl, rfl, rfl, rfl⟩
  values _ _ _ _ _ := Iff.rfl
  own := rfl
  same_observed := rfl
  same_views := rfl

/-- **Isolation of idempotency keys.** In two histories that differ in other users' requests only, a
user's requests do the same and are answered the same, and stored responses are replayed for their own
body and in time, if and only if the user's lookups and saves meet the same of others, and no lookup
returns the response to another body or one that has expired. -/
theorem replay_isolated_iff {H H' : List Turn} (hH : Proper js H) (hH' : Proper js H')
    (hagree : H.filter (Turn.seen A) = H'.filter (Turn.seen A)) :
    (observed A (play js H) = observed A (play js H') ∧ Bound (play js H) ∧ InTime (play js H)) ↔
      views A (play js H) = views A (play js H') ∧ Matching (play js H) ∧ Current (play js H) := by
  have hiff : observed A (play js H) = observed A (play js H') ↔
      views A (play js H) = views A (play js H') :=
    (exact_alike js A).observed_iff hH hH' hagree (alike_init js A)
  exact and_congr hiff (and_congr (bound_iff (inv_play js H)) (inTime_iff (inv_play js H)))

end Turns

/-! ### Two customers and one key -/

namespace OneOrder

open Api.OneOrder (js order)

def customer : Visitor := ⟨Api.OneOrder.customer, 1⟩

def retry : Visitor := ⟨Api.OneOrder.customer, 2⟩

def rival : Visitor := ⟨⟨"rival", .CONSUMER⟩, 1⟩

/-- The shop opens, or so much time passes. -/
def waits (elapsed : ℕ) : Turn :=
  .outside { elapsed, merchants := [Api.OneOrder.merchant], merchantQrCodes := []
             wallets := Api.OneOrder.opened.state.wallets }

/-- A request, and its first `n` calls. -/
def visits (v : Visitor) (dto : CreateTransactionDto) (key : String) (n : ℕ) : List Turn :=
  .arrive v dto (some key) :: (List.range n).map fun i =>
    .proceed v { oracle := { Api.OneOrder.oracle with
      uuid := v.user.id ++ String.ofList (List.replicate (i + v.number) 'u') } }

lemma waits_seen (elapsed : ℕ) (A : String) : (waits elapsed).seen A := rfl

lemma filter_visits (v : Visitor) (dto : CreateTransactionDto) (key : String) (n : ℕ) (A : String) :
    (visits v dto key n).filter (Turn.seen A) = if v.user.id = A then visits v dto key n else [] := by
  by_cases hv : v.user.id = A
  · rw [if_pos hv, List.filter_eq_self]
    simp [visits, Turn.seen, hv]
  · rw [if_neg hv, List.filter_eq_nil_iff]
    simp [visits, Turn.seen, hv]

/-- The rival's order of two hundred rupees, without a wallet. -/
def rivalOrder : CreateTransactionDto := { order with walletId := none, amountInPaise := 20000 }

def day : ℕ := 24 * 60 * 60 * 1000

/-- The customer orders with the key of the rival, whose response has expired. -/
def replaying : List Turn :=
  waits 0 :: visits rival rivalOrder "k" 14 ++ waits (2 * day) :: visits customer order "k" 14

def alone : List Turn := waits 0 :: waits (2 * day) :: visits customer order "k" 14

/-- The customer orders, with another key than the rival, and orders again. -/
def apart : List Turn :=
  waits 0 :: visits rival rivalOrder "r" 14 ++ visits customer order "k" 14 ++ visits retry order "k" 1

def undisturbed : List Turn := waits 0 :: visits customer order "k" 14 ++ visits retry order "k" 1

end OneOrder

/-- The customer gets the rival's transaction, for another body and after its expiry, and orders
nothing. -/
theorem rival_response_replayed : ∃ js A H H', Proper js H ∧ Proper js H' ∧
    H.filter (Turn.seen A) = H'.filter (Turn.seen A) ∧
      observed A (play js H) ≠ observed A (play js H') ∧ ¬Bound (play js H) ∧ ¬InTime (play js H) := by
  refine ⟨Api.OneOrder.js, "customer", OneOrder.replaying, OneOrder.alone,
    by decide +kernel, by decide +kernel, ?_,
    fun heq => ?_, by decide +kernel, by decide +kernel⟩
  · simp [OneOrder.replaying, OneOrder.alone, List.filter_cons, OneOrder.filter_visits, OneOrder.waits_seen,
      OneOrder.rival, OneOrder.customer, Api.OneOrder.customer]
  · have hlength := congrArg List.length heq
    revert hlength
    decide +kernel

/-- The key of the customer is the customer's own. -/
theorem replay_isolated_iff_of_own_key :
    observed "customer" (play Api.OneOrder.js OneOrder.apart) =
        observed "customer" (play Api.OneOrder.js OneOrder.undisturbed) ∧
      Bound (play Api.OneOrder.js OneOrder.apart) ∧ InTime (play Api.OneOrder.js OneOrder.apart) := by
  refine (replay_isolated_iff (by decide +kernel) (by decide +kernel) ?_).mpr
    ⟨by decide +kernel, by decide +kernel, by decide +kernel⟩
  simp [OneOrder.apart, OneOrder.undisturbed, List.filter_cons, OneOrder.filter_visits, OneOrder.waits_seen,
    OneOrder.rival, OneOrder.customer, OneOrder.retry, Api.OneOrder.customer]

end PayEra.Api.Histories
