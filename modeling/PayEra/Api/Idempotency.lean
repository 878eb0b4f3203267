import PayEra.Api.Controller

/-!
# What an idempotency key is good for

The controller looks the key up, creates the transaction and saves the response, one after the other.
Two requests that both look before either has saved create two transactions, and so does a request
that comes after one that has failed to save. If nobody looks in between, a key stands for one
creation.

The ghost state of a session that carries a key says how far it is with it.
-/

namespace PayEra.Api

open Async (Program Event Safe Protocol Discipline upon safe_pure safe_bind)
open Async.Program

/-! ### Creations under a key -/

/-- The session `n` was asked for with the key `k`. -/
def KeyedBy (n : ℕ) (k : String) (w : DeskJournal) : Prop := ∃ v, w.Begun n v ∧ v.key = some k

/-- The session `n` was told that nothing is saved under the key `k`. -/
def Told (n : ℕ) (k : String) (w : DeskJournal) : Prop :=
  ∃ existing : Option ApiIdempotencyKey, existing.bind (·.responseBody) = none ∧
    w.Answered n (.findIdempotencyKey "transaction.create" k) (.ok existing)

/-- The session `n` has written the transaction `t`. -/
def Wrote (n : ℕ) (t : NewTransaction) (w : DeskJournal) : Prop :=
  ∃ d, w.Took n (.service ⟨.request, .createTransaction t⟩) d

/-- The effect is a new transaction of a session with the key `k`. -/
def CreatesUnder (k : String) (w : DeskJournal) (e : Async.Effect Desk DeskOp) : Prop :=
  KeyedBy e.session k w ∧ ∃ t, e.op = .service ⟨.request, .createTransaction t⟩

/-- At most one transaction was written under the key, and every request with this key that was
answered was answered by a transaction that was written under it. -/
structure Idempotent (k : String) (w : DeskJournal) : Prop where
  once : w.effects.Pairwise fun e e' => ¬(CreatesUnder k w e ∧ CreatesUnder k w e')
  answered : ∀ n r, KeyedBy n k w → w.Finished n (.ok r) →
    ∃ t m, r = some t ∧ KeyedBy m k w ∧ Wrote m t w

/-- Creations under one key are one and the same. -/
lemma Idempotent.creation_unique {k : String} {w : DeskJournal} (h : Idempotent k w)
    {e e' : Async.Effect Desk DeskOp} (he : e ∈ w.effects) (he' : e' ∈ w.effects)
    (hcreates : CreatesUnder k w e) (hcreates' : CreatesUnder k w e') : e = e' := by
  by_contra hne
  have hsymm : Std.Symm fun e e' => ¬(CreatesUnder k w e ∧ CreatesUnder k w e') :=
    ⟨fun _ _ hnot hboth => hnot hboth.symm⟩
  exact h.once.forall he he' hne ⟨hcreates, hcreates'⟩

/-- The session is over and has written nothing. -/
def Fruitless (n : ℕ) (w : DeskJournal) : Prop := (∃ a, w.Finished n a) ∧ ∀ t, ¬Wrote n t w

/-- Whenever a key is looked up under which nothing is saved, every session that was told so before is
over and has written nothing. -/
def oneByOne : DeskCondition := fun _ e w _ => match e with
  | .call _ (.findIdempotencyKey scope k) => w.state.find scope k = none →
      ∀ m, KeyedBy m k w → Told m k w → Fruitless m w
  | _ => True

/-! ### The protocol -/

inductive Errand where
  | away
  | keyless (n : ℕ)
  | looking (n : ℕ) (k : String)
  | chosen (n : ℕ) (k : String)
  | wrote (n : ℕ) (k : String) (t : NewTransaction)
  | replaying (n : ℕ) (k : String) (t : NewTransaction)

def Errand.number : Errand → Option ℕ
  | .away => none
  | .keyless n | .looking n _ | .chosen n _ | .wrote n _ _ | .replaying n _ _ => some n

/-- What the sessions share. -/
structure Keys (w : DeskJournal) (f : Multiset Errand) : Prop where
  once : ∀ k, w.effects.Pairwise fun e e' => ¬(CreatesUnder k w e ∧ CreatesUnder k w e')
  told : ∀ k m m', KeyedBy m k w → Told m k w → KeyedBy m' k w → Told m' k w → m ≠ m' →
    Fruitless m w ∨ Fruitless m' w
  wrote : ∀ m k t, KeyedBy m k w → Wrote m t w → Told m k w
  saved : ∀ row ∈ w.state.apiIdempotencyKeys, ∃ t m, row.responseBody = some t ∧
    KeyedBy m row.key w ∧ Wrote m t w
  replayed : ∀ n k t, .replaying n k t ∈ f → ∃ m, KeyedBy m k w ∧ Wrote m t w
  answered : ∀ n k r, KeyedBy n k w → w.Finished n (.ok r) →
    ∃ t m, r = some t ∧ KeyedBy m k w ∧ Wrote m t w

def errands : Protocol Desk Visit DeskOp DeskOp.Res String (Option NewTransaction) Errand where
  number := Errand.number
  idle := .away
  allowed e w r := oneByOne 0 e w r
  link _ _ := True
  base := Keys
  mine ℓ w := match ℓ with
    | .away => True
    | .keyless n => ∀ k, ¬KeyedBy n k w
    | .looking n k => KeyedBy n k w ∧ ∀ t, ¬Wrote n t w
    | .chosen n k => KeyedBy n k w ∧ Told n k w ∧ ∀ t, ¬Wrote n t w
    | .wrote n k t => KeyedBy n k w ∧ Wrote n t w
    | .replaying n k _ => KeyedBy n k w
  ended _ _ _ := True

section Agrees

variable {n : ℕ} {k : String} {t : NewTransaction} {w w' : DeskJournal}

lemma keyedBy_agrees (h : w.Agrees n w') : KeyedBy n k w' ↔ KeyedBy n k w := by
  have hentry : ∀ {w : DeskJournal}, KeyedBy n k w ↔
      ∃ e ∈ w.entries, ∃ v : Visit, e = ⟨.begin n v, .ok ()⟩ ∧ v.key = some k := by
    intro w
    constructor
    · rintro ⟨v, hv, hk⟩
      exact ⟨_, hv, v, rfl, hk⟩
    · rintro ⟨-, hv, v, rfl, hk⟩
      exact ⟨v, hv, hk⟩
  rw [hentry, hentry]
  apply h.exists_entry
  rintro - ⟨v, rfl, -⟩
  rfl

lemma told_agrees (h : w.Agrees n w') : Told n k w' ↔ Told n k w := by
  have hentry : ∀ {w : DeskJournal}, Told n k w ↔ ∃ e ∈ w.entries,
      ∃ existing : Option ApiIdempotencyKey, existing.bind (·.responseBody) = none ∧
        e = ⟨.call n (.findIdempotencyKey "transaction.create" k), .ok existing⟩ := by
    intro w
    constructor
    · rintro ⟨existing, hnone, he⟩
      exact ⟨_, he, existing, hnone, rfl⟩
    · rintro ⟨-, he, existing, hnone, rfl⟩
      exact ⟨existing, hnone, he⟩
  rw [hentry, hentry]
  apply h.exists_entry
  rintro - ⟨existing, -, rfl⟩
  rfl

lemma wrote_agrees (h : w.Agrees n w') : Wrote n t w' ↔ Wrote n t w := by
  have heffect : ∀ {w : DeskJournal}, Wrote n t w ↔ ∃ e ∈ w.effects,
      e.session = n ∧ e.op = .service ⟨.request, .createTransaction t⟩ := by
    intro w
    constructor
    · rintro ⟨d, hd⟩
      exact ⟨_, hd, rfl, rfl⟩
    · rintro ⟨⟨m, op, d⟩, hd, rfl, rfl⟩
      exact ⟨d, hd⟩
  rw [heffect, heffect]
  apply h.exists_effect
  rintro e ⟨he, -⟩
  exact he

end Agrees

lemma errands_lawful : errands.Lawful where
  idle := rfl
  mine n ℓ w w' hn h hmine := by
    cases ℓ with
    | away => cases hn
    | _ =>
      cases hn
      simp only [errands, keyedBy_agrees h, told_agrees h, wrote_agrees h]
      exact hmine
  ended _ _ _ _ _ _ := trivial

/-! ### Calls -/

section Calls

variable {n m : ℕ} {k : String} {t : NewTransaction} {op : DeskOp} {w w' : DeskJournal}
  {r : Except String op.Res} {f : Multiset Errand} {ℓ ℓ' : Errand}

lemma keyedBy_call (h : DeskHappens (.call n op) w r w') : KeyedBy m k w' ↔ KeyedBy m k w := by
  have hbegun : ∀ v, w'.Begun m v ↔ w.Begun m v := fun v =>
    (Async.begun_happens h).trans (or_iff_left fun heq => by cases heq)
  simp only [KeyedBy, hbegun]

lemma finished_call (h : DeskHappens (.call n op) w r w') {a : Except String (Option NewTransaction)} :
    w'.Finished m a ↔ w.Finished m a :=
  (Async.finished_happens h).trans (or_iff_left fun heq => by cases heq)

/-- A key identifies what a session was asked for. -/
lemma key_unique (hinv : errands.Inv w f) {k' : String} (h : KeyedBy n k w) (h' : KeyedBy n k' w) :
    k = k' := by
  obtain ⟨v, hv, hk⟩ := h
  obtain ⟨v', hv', hk'⟩ := h'
  obtain rfl := hinv.asked n v v' hv hv'
  exact Option.some.inj (hk.symm.trans hk')

lemma told_call (h : DeskHappens (.call n op) w r w') (hk : Told m k w') : Told m k w ∨
    m = n ∧ op = .findIdempotencyKey "transaction.create" k ∧
      (w.state.find "transaction.create" k).bind (·.responseBody) = none := by
  obtain ⟨existing, hnone, he⟩ := hk
  rw [Async.Journal.Answered, Async.happens_entries h] at he
  rcases List.mem_append.mp he with he | he
  · exact .inl ⟨existing, hnone, he⟩
  · right
    cases List.mem_singleton.mp he
    obtain ⟨o, hans⟩ := h.2.1
    have hfind := (Prod.mk.inj (Option.some.inj hans)).1
    exact ⟨rfl, rfl, hfind ▸ hnone⟩

lemma told_mono (h : DeskHappens (.call n op) w r w') (hk : Told m k w) : Told m k w' := by
  obtain ⟨existing, hnone, he⟩ := hk
  refine ⟨existing, hnone, ?_⟩
  rw [Async.Journal.Answered, Async.happens_entries h]
  exact List.mem_append_left _ he

lemma wrote_call (h : DeskHappens (.call n op) w r w') (ht : Wrote m t w') :
    Wrote m t w ∨ m = n ∧ op = .service ⟨.request, .createTransaction t⟩ := by
  obtain ⟨d, hd⟩ := ht
  rcases Async.happens_call h with ⟨-, heq⟩ | ⟨-, heq⟩
  · rw [Async.Journal.Took, heq] at hd
    exact .inl ⟨d, hd⟩
  · rw [Async.Journal.Took, heq] at hd
    rcases List.mem_append.mp hd with hd | hd
    · exact .inl ⟨d, hd⟩
    · cases List.mem_singleton.mp hd
      exact .inr ⟨rfl, rfl⟩

lemma wrote_mono {e : Visiting} {r : Except String (Visiting.Res e)} (h : DeskHappens e w r w')
    (ht : Wrote m t w) : Wrote m t w' := by
  obtain ⟨d, hd⟩ := ht
  exact ⟨d, Async.happens_effects h hd⟩

/-- A call of the service leaves the table of keys. -/
lemma keys_service {c : Request} {r : Except String c.Res}
    (h : DeskHappens (.call n (.service c)) w r w') :
    w'.state.apiIdempotencyKeys = w.state.apiIdempotencyKeys := by
  rcases Async.happens_call h with ⟨hstate, -⟩ | ⟨⟨v, o, hans⟩, -⟩
  · rw [hstate]
  · simp only [Desk.answer, Option.map_eq_some_iff] at hans
    obtain ⟨b, -, heq⟩ := hans
    rw [← (Prod.mk.inj heq).2]

/-- What the table of keys holds after a call. -/
lemma keys_call (h : DeskHappens (.call n op) w r w') {row : ApiIdempotencyKey}
    (hrow : row ∈ w'.state.apiIdempotencyKeys) :
    row ∈ w.state.apiIdempotencyKeys ∨ op = .upsertIdempotencyKey row := by
  cases op with
  | service c => exact .inl (keys_service h ▸ hrow)
  | findIdempotencyKey scope key =>
    rcases Async.happens_call h with ⟨hstate, -⟩ | ⟨⟨v, o, hans⟩, -⟩
    · exact .inl (hstate ▸ hrow)
    · have hstate := (Prod.mk.inj (Option.some.inj hans)).2
      exact .inl (hstate ▸ hrow)
  | upsertIdempotencyKey create =>
    rcases Async.happens_call h with ⟨hstate, -⟩ | ⟨⟨v, o, hans⟩, -⟩
    · exact .inl (hstate ▸ hrow)
    · rw [Desk.answer] at hans
      cases hfind : w.state.find create.scope create.key with
      | some existing =>
        rw [hfind] at hans
        have hstate := (Prod.mk.inj (Option.some.inj hans)).2
        exact .inl (hstate ▸ hrow)
      | none =>
        rw [hfind] at hans
        have hstate := (Prod.mk.inj (Option.some.inj hans)).2
        rw [← hstate] at hrow
        rcases List.mem_append.mp hrow with hrow | hrow
        · exact .inl hrow
        · rw [List.mem_singleton.mp hrow]
          exact .inr rfl

/-- A session that is over does nothing any more. -/
lemma Fruitless.call (h : Fruitless m w) (hne : n ≠ m) (hhappens : DeskHappens (.call n op) w r w') :
    Fruitless m w' := by
  obtain ⟨⟨a, ha⟩, hnone⟩ := h
  refine ⟨⟨a, (finished_call hhappens).mpr ha⟩, fun t ht => ?_⟩
  rcases wrote_call hhappens ht with ht | ⟨rfl, -⟩
  · exact hnone t ht
  · exact hne rfl

lemma running_of_number (hinv : errands.Inv w (ℓ ::ₘ f)) (hn : ℓ.number = some n) :
    ∀ a, ¬w.Finished n a := (hinv.running ℓ (Multiset.mem_cons_self ..) n hn).2.1

/-- A session writes a transaction after it was told that nothing is saved, so it is the only one under
its key. -/
lemma Keys.once_step (hinv : errands.Inv w (ℓ ::ₘ f)) (hn : ℓ.number = some n)
    (hhappens : DeskHappens (.call n op) w r w')
    (hcreate : ∀ t, op = .service ⟨.request, .createTransaction t⟩ → ∀ k, KeyedBy n k w →
      Told n k w ∧ ∀ t, ¬Wrote n t w) :
    w'.effects.Pairwise fun e e' => ¬(CreatesUnder k w' e ∧ CreatesUnder k w' e') := by
  have hbase : Keys w (ℓ ::ₘ f) := hinv.base
  have hiff : ∀ e, CreatesUnder k w' e ↔ CreatesUnder k w e := fun e => by
    rw [CreatesUnder, CreatesUnder, keyedBy_call hhappens]
  simp only [hiff]
  rcases Async.happens_call hhappens with ⟨-, heq⟩ | ⟨-, heq⟩
  · rw [heq]
    exact hbase.once k
  · rw [heq, List.pairwise_append]
    refine ⟨hbase.once k, List.pairwise_singleton .., fun e he e' he' => ?_⟩
    obtain rfl := List.mem_singleton.mp he'
    rintro ⟨⟨hkey, t, ht⟩, hkey', t', ht'⟩
    -- two sessions with the key that were both told that nothing is saved
    obtain ⟨htold, hnone⟩ := hcreate t' ht' k hkey'
    have hwrote : Wrote e.session t w := by
      refine ⟨e.found, ?_⟩
      obtain ⟨m, op', d⟩ := e
      subst ht
      exact he
    by_cases hsame : e.session = n
    · exact hnone t (hsame ▸ hwrote)
    · rcases hbase.told k e.session n hkey (hbase.wrote _ k t hkey hwrote) hkey' htold hsame with
        hfruitless | hfruitless
      · exact hfruitless.2 t hwrote
      · obtain ⟨a, ha⟩ := hfruitless.1
        exact running_of_number hinv hn a ha

/-- Of two sessions that were told that nothing is saved under their key, one is over and has written
nothing. -/
lemma Keys.told_step (hinv : errands.Inv w (ℓ ::ₘ f)) (hn : ℓ.number = some n)
    (hone : errands.allowed (.call n op) w r) (hhappens : DeskHappens (.call n op) w r w')
    {m' : ℕ} (hm : KeyedBy m k w') (hmt : Told m k w') (hm' : KeyedBy m' k w') (hmt' : Told m' k w')
    (hne : m ≠ m') : Fruitless m w' ∨ Fruitless m' w' := by
  have hbase : Keys w (ℓ ::ₘ f) := hinv.base
  have hfruitless : ∀ m, Fruitless m w → Fruitless m w' := by
    intro m hm
    apply hm.call _ hhappens
    rintro rfl
    obtain ⟨⟨a, ha⟩, -⟩ := hm
    exact running_of_number hinv hn a ha
  rw [keyedBy_call hhappens] at hm hm'
  have hlooked : ∀ {m m'}, KeyedBy m k w → Told m k w → m' = n →
      op = .findIdempotencyKey "transaction.create" k →
      (w.state.find "transaction.create" k).bind (·.responseBody) = none →
        Fruitless m w ∨ Fruitless m' w := by
    rintro m m' hm hmt rfl rfl hnone
    refine .inl (hone ?_ m hm hmt)
    cases hfind : w.state.find "transaction.create" k with
    | none => rfl
    | some row =>
      obtain ⟨t, -, hbody, -⟩ := hbase.saved row (List.mem_of_find?_eq_some hfind)
      rw [hfind, Option.bind_some, hbody] at hnone
      cases hnone
  have hold : Fruitless m w ∨ Fruitless m' w := by
    rcases told_call hhappens hmt with hmt | ⟨rfl, hop, hnone⟩
    · rcases told_call hhappens hmt' with hmt' | ⟨rfl, hop, hnone⟩
      · exact hbase.told k m m' hm hmt hm' hmt' hne
      · exact hlooked hm hmt rfl hop hnone
    · rcases told_call hhappens hmt' with hmt' | ⟨rfl, -, -⟩
      · exact (hlooked hm' hmt' rfl hop hnone).symm
      · exact absurd rfl hne
  exact hold.imp (hfruitless m) (hfruitless m')

/-- Every call of a session keeps what the sessions share: it writes a transaction only if nothing was
saved under its key, and saves only what was written. -/
theorem Keys.step (hinv : errands.Inv w (ℓ ::ₘ f)) (hn : ℓ.number = some n)
    (hone : errands.allowed (.call n op) w r) (hhappens : DeskHappens (.call n op) w r w')
    (hcreate : ∀ t, op = .service ⟨.request, .createTransaction t⟩ → ∀ k, KeyedBy n k w →
      Told n k w ∧ ∀ t, ¬Wrote n t w)
    (hsave : ∀ row, op = .upsertIdempotencyKey row → ∃ t, row.responseBody = some t ∧
      KeyedBy n row.key w ∧ Wrote n t w)
    (hreplay : ∀ m k t, .replaying m k t = ℓ' → .replaying m k t = ℓ ∨
      ∃ m, KeyedBy m k w ∧ Wrote m t w) : Keys w' (ℓ' ::ₘ f) := by
  have hbase : Keys w (ℓ ::ₘ f) := hinv.base
  have hkept : ∀ {k t}, (∃ m, KeyedBy m k w ∧ Wrote m t w) → ∃ m, KeyedBy m k w' ∧ Wrote m t w' :=
    fun ⟨m, hm, ht⟩ => ⟨m, (keyedBy_call hhappens).mpr hm, wrote_mono hhappens ht⟩
  refine ⟨fun k => Keys.once_step hinv hn hhappens hcreate,
    fun k m m' hm hmt hm' hmt' hne => Keys.told_step hinv hn hone hhappens hm hmt hm' hmt' hne,
    fun m k t hm ht => ?_, fun row hrow => ?_, fun m k t hmem => ?_, fun m k v hm hv => ?_⟩
  · rw [keyedBy_call hhappens] at hm
    apply told_mono hhappens
    rcases wrote_call hhappens ht with ht | ⟨rfl, hop⟩
    · exact hbase.wrote m k t hm ht
    · exact (hcreate t hop k hm).1
  · rcases keys_call hhappens hrow with hrow | hop
    · obtain ⟨t, m, hbody, hm, ht⟩ := hbase.saved row hrow
      exact ⟨t, m, hbody, (keyedBy_call hhappens).mpr hm, wrote_mono hhappens ht⟩
    · obtain ⟨t, hbody, hkey, ht⟩ := hsave row hop
      exact ⟨t, n, hbody, (keyedBy_call hhappens).mpr hkey, wrote_mono hhappens ht⟩
  · rcases Multiset.mem_cons.mp hmem with heq | hmem
    · rcases hreplay m k t heq with heq | hfound
      · exact hkept (hbase.replayed m k t (heq ▸ Multiset.mem_cons_self ..))
      · exact hkept hfound
    · exact hkept (hbase.replayed m k t (Multiset.mem_cons_of_mem hmem))
  · rw [keyedBy_call hhappens] at hm
    obtain ⟨t, m', hv', hm', ht⟩ := hbase.answered m k v hm ((finished_call hhappens).mp hv)
    exact ⟨t, m', hv', (keyedBy_call hhappens).mpr hm', wrote_mono hhappens ht⟩

lemma mine_quiet (hn : ℓ.number = some n) (hmine : errands.mine ℓ w)
    (hop : (∀ t, op ≠ .service ⟨.request, .createTransaction t⟩) ∨ ℓ = .keyless n)
    (hhappens : DeskHappens (.call n op) w r w') : errands.mine ℓ w' := by
  have hwrote : ∀ {t}, (∀ t, op ≠ .service ⟨.request, .createTransaction t⟩) → Wrote n t w' →
      Wrote n t w := by
    intro t hop ht
    rcases wrote_call hhappens ht with ht | ⟨-, heq⟩
    · exact ht
    · exact absurd heq (hop t)
  have hop' : ∀ {ℓ' : Errand}, ℓ = ℓ' → ℓ' ≠ .keyless n →
      ∀ t, op ≠ .service ⟨.request, .createTransaction t⟩ := fun heq hne =>
    hop.resolve_right fun h => hne (heq ▸ h)
  cases ℓ with
  | away => trivial
  | keyless m =>
    cases hn
    simp only [errands, keyedBy_call hhappens]
    exact hmine
  | looking m k =>
    cases hn
    refine ⟨(keyedBy_call hhappens).mpr hmine.1, fun t ht => ?_⟩
    exact hmine.2 t (hwrote (hop' rfl (by simp)) ht)
  | chosen m k =>
    cases hn
    refine ⟨(keyedBy_call hhappens).mpr hmine.1, told_mono hhappens hmine.2.1, fun t ht => ?_⟩
    exact hmine.2.2 t (hwrote (hop' rfl (by simp)) ht)
  | wrote m k t =>
    cases hn
    exact ⟨(keyedBy_call hhappens).mpr hmine.1, wrote_mono hhappens hmine.2⟩
  | replaying m k t =>
    cases hn
    exact (keyedBy_call hhappens).mpr hmine

end Calls

/-! ### Beginnings and ends -/

section Events

variable {n m : ℕ} {k : String} {t : NewTransaction} {v : Visit} {w w' : DeskJournal}
  {a : Except String (Option NewTransaction)} {r : Except String Unit} {f : Multiset Errand}
  {ℓ : Errand}

/-- What is not a call leaves the state and the effects. -/
lemma deskHappens_still {e : Visiting} {r : Except String (Visiting.Res e)}
    (h : DeskHappens e w r w') (he : ∀ n op, e ≠ .call n op) :
    w'.state = w.state ∧ w'.effects = w.effects := by
  cases e with
  | begin n v =>
    obtain ⟨-, -, rfl⟩ := h
    exact ⟨rfl, rfl⟩
  | finish n a =>
    obtain ⟨-, rfl⟩ := h
    exact ⟨rfl, rfl⟩
  | call n op => exact absurd rfl (he n op)

lemma wrote_still {e : Visiting} {r : Except String (Visiting.Res e)}
    (h : DeskHappens e w r w') (he : ∀ n op, e ≠ .call n op) : Wrote m t w' ↔ Wrote m t w := by
  rw [Wrote, Wrote]
  simp only [Async.Journal.Took, (deskHappens_still h he).2]

lemma told_still {e : Visiting} {r : Except String (Visiting.Res e)}
    (h : DeskHappens e w r w') (he : ∀ n op, e ≠ .call n op) : Told m k w' ↔ Told m k w := by
  simp only [Told, Async.Journal.Answered, Async.happens_entries h, List.mem_append,
    List.mem_singleton]
  constructor
  · rintro ⟨existing, hnone, hmem | heq⟩
    · exact ⟨existing, hnone, hmem⟩
    · cases heq
      exact absurd rfl (he _ _)
  · rintro ⟨existing, hnone, hmem⟩
    exact ⟨existing, hnone, .inl hmem⟩

/-- A session that begins has no past. -/
lemma Keys.begin (h : Keys w (.away ::ₘ f)) (hhappens : DeskHappens (.begin n v) w r w')
    (hentries : ∀ e ∈ w.entries, e.1.session ≠ n) (heffects : ∀ e ∈ w.effects, e.session ≠ n)
    (hℓ : ∀ m k t, ℓ ≠ .replaying m k t) : Keys w' (ℓ ::ₘ f) := by
  have hcall : ∀ m op, (Event.begin n v : Visiting) ≠ .call m op := fun _ _ heq => by cases heq
  have hkeyed : ∀ {m k}, KeyedBy m k w' → m ≠ n → KeyedBy m k w := by
    rintro m k ⟨v', hv', hk⟩ hne
    rcases (Async.begun_happens hhappens).mp hv' with hv' | heq
    · exact ⟨v', hv', hk⟩
    · cases heq
      exact absurd rfl hne
  have hkeyed' : ∀ {m k}, KeyedBy m k w → KeyedBy m k w' := fun ⟨v', hv', hk⟩ =>
    ⟨v', (Async.begun_happens hhappens).mpr (.inl hv'), hk⟩
  have hfinished : ∀ {m a}, w'.Finished m a ↔ w.Finished m a := fun {m a} =>
    (Async.finished_happens hhappens).trans (or_iff_left fun heq => by cases heq)
  have htold : ∀ {m k}, Told m k w → m ≠ n := fun ⟨_, _, he⟩ => hentries _ he
  have hfruitless : ∀ {m}, Fruitless m w → Fruitless m w' := fun ⟨⟨a, ha⟩, hnone⟩ =>
    ⟨⟨a, hfinished.mpr ha⟩, fun t ht => hnone t ((wrote_still hhappens hcall).mp ht)⟩
  refine ⟨fun k => ?_, fun k m m' hm hmt hm' hmt' hne => ?_, fun m k t hm ht => ?_,
    fun row hrow => ?_, fun m k t hmem => ?_, fun m k v' hm hv' => ?_⟩
  · rw [(deskHappens_still hhappens hcall).2]
    refine (h.once k).imp_of_mem fun {e e'} he he' hnot => ?_
    rintro ⟨⟨hkey, ht⟩, hkey', ht'⟩
    exact hnot ⟨⟨hkeyed hkey (heffects e he), ht⟩, hkeyed hkey' (heffects e' he'), ht'⟩
  · rw [told_still hhappens hcall] at hmt hmt'
    exact (h.told k m m' (hkeyed hm (htold hmt)) hmt (hkeyed hm' (htold hmt')) hmt' hne).imp
      hfruitless hfruitless
  · rw [told_still hhappens hcall]
    rw [wrote_still hhappens hcall] at ht
    obtain ⟨d, hd⟩ := ht
    exact h.wrote m k t (hkeyed hm (heffects _ hd)) ⟨d, hd⟩
  · rw [(deskHappens_still hhappens hcall).1] at hrow
    obtain ⟨t, m, hbody, hm, ht⟩ := h.saved row hrow
    exact ⟨t, m, hbody, hkeyed' hm, (wrote_still hhappens hcall).mpr ht⟩
  · rcases Multiset.mem_cons.mp hmem with heq | hmem
    · exact absurd heq.symm (hℓ m k t)
    · obtain ⟨m', hm', ht⟩ := h.replayed m k t (Multiset.mem_cons_of_mem hmem)
      exact ⟨m', hkeyed' hm', (wrote_still hhappens hcall).mpr ht⟩
  · have hv := hfinished.mp hv'
    obtain ⟨t, m', heq, hm', ht⟩ := h.answered m k v' (hkeyed hm (hentries _ hv)) hv
    exact ⟨t, m', heq, hkeyed' hm', (wrote_still hhappens hcall).mpr ht⟩

/-- A session that finishes was answered by what was written under its key. -/
lemma Keys.finish (h : Keys w (ℓ ::ₘ f)) (hhappens : DeskHappens (.finish n a) w r w')
    (ha : ∀ v, a = .ok v → ∀ k, KeyedBy n k w → ∃ t m, v = some t ∧ KeyedBy m k w ∧ Wrote m t w) :
    Keys w' (.away ::ₘ f) := by
  have hcall : ∀ m op, (Event.finish n a : Visiting) ≠ .call m op := fun _ _ heq => by cases heq
  have hkeyed : ∀ {m k}, KeyedBy m k w' ↔ KeyedBy m k w := by
    intro m k
    have hbegun : ∀ v, w'.Begun m v ↔ w.Begun m v := fun v =>
      (Async.begun_happens hhappens).trans (or_iff_left fun heq => by cases heq)
    simp only [KeyedBy, hbegun]
  have hfruitless : ∀ {m}, Fruitless m w → Fruitless m w' := fun ⟨⟨a, ha⟩, hnone⟩ =>
    ⟨⟨a, (Async.finished_happens hhappens).mpr (.inl ha)⟩,
      fun t ht => hnone t ((wrote_still hhappens hcall).mp ht)⟩
  have hwrote : ∀ {m t}, Wrote m t w' ↔ Wrote m t w := wrote_still hhappens hcall
  refine ⟨fun k => ?_, fun k m m' hm hmt hm' hmt' hne => ?_, fun m k t hm ht => ?_,
    fun row hrow => ?_, fun m k t hmem => ?_, fun m k v hm hv => ?_⟩
  · rw [(deskHappens_still hhappens hcall).2]
    simp only [CreatesUnder, hkeyed]
    exact h.once k
  · rw [told_still hhappens hcall] at hmt hmt'
    exact (h.told k m m' (hkeyed.mp hm) hmt (hkeyed.mp hm') hmt' hne).imp hfruitless hfruitless
  · rw [told_still hhappens hcall]
    exact h.wrote m k t (hkeyed.mp hm) (hwrote.mp ht)
  · rw [(deskHappens_still hhappens hcall).1] at hrow
    obtain ⟨t, m, hbody, hm, ht⟩ := h.saved row hrow
    exact ⟨t, m, hbody, hkeyed.mpr hm, hwrote.mpr ht⟩
  · rcases Multiset.mem_cons.mp hmem with heq | hmem
    · cases heq
    · obtain ⟨m', hm', ht⟩ := h.replayed m k t (Multiset.mem_cons_of_mem hmem)
      exact ⟨m', hkeyed.mpr hm', hwrote.mpr ht⟩
  · have hfound : ∃ t m', v = some t ∧ KeyedBy m' k w ∧ Wrote m' t w := by
      rcases (Async.finished_happens hhappens).mp hv with hv | heq
      · exact h.answered m k v (hkeyed.mp hm) hv
      · cases heq
        exact ha v rfl k (hkeyed.mp hm)
    obtain ⟨t, m', heq, hm', ht⟩ := hfound
    exact ⟨t, m', heq, hkeyed.mpr hm', hwrote.mpr ht⟩

end Events

/-! ### Safe programs -/

section Programs

variable {α : Type} {js : Js} {n : ℕ} {k : String} {ℓ : Errand} {p : Service α}
  {user : Principal} {dto : CreateTransactionDto}

/-- What the calls of the session `n` have to respect. -/
abbrev errandsOf (n : ℕ) : Discipline DeskJournal DeskOp DeskOp.Res String Errand :=
  (errands.discipline DeskReturns DeskTotal fun _ => False).at n

/-- Calls of the service that write no transaction, or are made for no key. -/
lemma safe_service (hn : ℓ.number = some n)
    (hp : (p.All fun c => ∀ t, c ≠ ⟨.request, .createTransaction t⟩) ∨ ℓ = .keyless n)
    {R : Except String α → Errand → Prop} (hR : ∀ r, R r ℓ) :
    Safe (atService (errandsOf n)) p ℓ R := by
  have hall : p.All fun c => (∀ t, c ≠ ⟨.request, .createTransaction t⟩) ∨ ℓ = .keyless n := by
    rcases hp with hp | rfl
    · exact hp.mono fun c hc => .inl hc
    · exact p.all_of fun c => .inr rfl
  apply Safe.of_all (D := atService (errandsOf n)) hall hR
  intro c hc
  refine ⟨⟨hn, trivial⟩, ?_⟩
  intro w f r w' hinv (hone : errands.allowed (.call n (.service c)) w r)
    (hhappens : DeskHappens (.call n (.service c)) w r w')
  have hop : (∀ t, DeskOp.service c ≠ .service ⟨.request, .createTransaction t⟩) ∨
      ℓ = .keyless n :=
    hc.imp_left fun h t heq => h t (DeskOp.service.inj heq)
  have hmine := (hinv.running ℓ (Multiset.mem_cons_self ..) n hn).2.2
  refine Protocol.Inv.call hinv errands_lawful hn hhappens hn ?_ (mine_quiet hn hmine hop hhappens)
  apply Keys.step hinv hn hone hhappens
  · intro t heq k hk
    rcases hop with hop | rfl
    · exact absurd heq (hop t)
    · exact absurd hk (hmine k)
  · intro row heq
    cases heq
  · intro m k t heq
    exact .inl heq

/-- Writing the transaction. -/
lemma safe_writeErrand {t : NewTransaction} : Safe (atService (errandsOf n))
    (call .request (.createTransaction t)) (.chosen n k)
    (upon (fun _ ℓ => ℓ = .wrote n k t) fun ℓ => ℓ.number = some n) := by
  apply Async.safe_perform (D := atService (errandsOf n)) ⟨rfl, trivial⟩
  intro w f r w' hinv (hone : errands.allowed (.call n (.service ⟨.request, .createTransaction t⟩)) w r)
    (hhappens : DeskHappens (.call n (.service ⟨.request, .createTransaction t⟩)) w r w')
  obtain ⟨hkey, htold, hnone⟩ := (hinv.running _ (Multiset.mem_cons_self ..) n rfl).2.2
  have hkey' : KeyedBy n k w' := (keyedBy_call hhappens).mpr hkey
  have hbase : ∀ {ℓ'}, (∀ m k t, ℓ' ≠ .replaying m k t) → Keys w' (ℓ' ::ₘ f) := by
    intro ℓ' hℓ'
    apply Keys.step hinv rfl hone hhappens
    · intro t' _ k' hk'
      obtain rfl := key_unique hinv hkey hk'
      exact ⟨htold, hnone⟩
    · intro row heq
      cases heq
    · intro m k t heq
      exact absurd heq.symm (hℓ' m k t)
  have hinv' : ∀ {ℓ'}, ℓ'.number = some n → (∀ m k t, ℓ' ≠ .replaying m k t) →
      errands.mine ℓ' w' → errands.Inv w' (ℓ' ::ₘ f) := fun hn' hℓ' hmine =>
    Protocol.Inv.call hinv errands_lawful rfl hhappens hn' (hbase hℓ') hmine
  rcases Async.happens_call hhappens with ⟨-, heq⟩ | ⟨-, heq⟩
  · cases r with
    | ok v =>
      exfalso
      have hlen := congrArg List.length (hhappens.2.2.symm.trans heq)
      simp at hlen
    | error e =>
      refine ⟨.chosen n k, hinv' rfl (by simp) ⟨hkey', told_mono hhappens htold, ?_⟩, rfl⟩
      rintro t' ⟨d, hd⟩
      rw [Async.Journal.Took, heq] at hd
      exact hnone t' ⟨d, hd⟩
  · have hwrote : Wrote n t w' := by
      refine ⟨w.state, ?_⟩
      rw [Async.Journal.Took, heq]
      exact List.mem_append_right _ (List.mem_singleton_self _)
    refine ⟨.wrote n k t, hinv' rfl (by simp) ⟨hkey', hwrote⟩, ?_⟩
    cases r with
    | ok v => rfl
    | error e => rfl

/-- The service's `create`, which answers with what it has written. -/
lemma safe_createErrand : Safe (atService (errandsOf n))
    (Transactions.createResult js user dto) (.chosen n k)
    (upon (fun result ℓ => ℓ = .wrote n k result) fun ℓ => ℓ.number = some n) := by
  have hchecking : ∀ {β : Type} {q : Service β}, q.All Checking →
      Safe (atService (errandsOf n)) q (.chosen n k)
        (upon (fun _ ℓ => ℓ = .chosen n k) fun ℓ => ℓ.number = some n) := by
    intro β q hq
    apply safe_service rfl
    · refine .inl (hq.mono fun c hc t heq => ?_)
      subst heq
      exact hc.2
    · intro r
      cases r with
      | ok v => rfl
      | error e => rfl
  have hafter : ∀ {op : Op} {t : NewTransaction}, (∀ t, op ≠ .createTransaction t) →
      Safe (atService (errandsOf n)) (call .request op) (.wrote n k t)
        (upon (fun _ ℓ => ℓ = .wrote n k t) fun ℓ => ℓ.number = some n) := by
    intro op t hop
    apply safe_service rfl
    · refine .inl (all_perform fun t heq => hop t ?_)
      exact (Request.mk.inj heq).2
    · intro r
      cases r with
      | ok v => rfl
      | error e => rfl
  refine safe_bind (hchecking Transactions.checking_resolvePayee) fun payee ℓ hℓ => ?_
  obtain rfl := hℓ
  refine safe_bind (hchecking Transactions.checking_createQuote) fun quote ℓ hℓ => ?_
  obtain rfl := hℓ
  have huuid : (call .request .uuid).All Checking := all_call trivial
  refine safe_bind (hchecking huuid) fun id ℓ hℓ => ?_
  obtain rfl := hℓ
  refine safe_bind (hchecking huuid) fun publicId ℓ hℓ => ?_
  obtain rfl := hℓ
  refine safe_bind (hchecking huuid) fun settlementId ℓ hℓ => ?_
  obtain rfl := hℓ
  refine safe_bind safe_writeErrand fun _ ℓ hℓ => ?_
  obtain rfl := hℓ
  refine safe_bind (hafter (by simp)) fun _ ℓ hℓ => ?_
  obtain rfl := hℓ
  refine safe_bind (hafter (by simp)) fun rewardId ℓ hℓ => ?_
  obtain rfl := hℓ
  refine safe_bind (hafter (by simp)) fun _ ℓ hℓ => ?_
  exact safe_pure hℓ

/-- Looking the key up. -/
lemma safe_lookup : Safe (errandsOf n) (TransactionsController.replay (some k)) (.looking n k)
    (upon (fun saved ℓ => ℓ = saved.elim (.chosen n k) (.replaying n k))
      fun ℓ => ℓ.number = some n) := by
  have hask : Safe (errandsOf n) (ask (.findIdempotencyKey "transaction.create" k)) (.looking n k)
      (upon (fun existing ℓ => ℓ = ((existing : Option ApiIdempotencyKey).bind
        (·.responseBody)).elim (.chosen n k) (.replaying n k)) fun ℓ => ℓ.number = some n) := by
    apply Protocol.safe_call errands_lawful rfl trivial
    intro w f r w' hinv hmine hone hhappens
    obtain ⟨hkey, hnone⟩ := hmine
    have hbase : Keys w (.looking n k ::ₘ f) := hinv.base
    have hkey' : KeyedBy n k w' := (keyedBy_call hhappens).mpr hkey
    have hnone' : ∀ t, ¬Wrote n t w' := by
      intro t ht
      rcases wrote_call hhappens ht with ht | ⟨-, heq⟩
      · exact hnone t ht
      · cases heq
    have hstep : ∀ {ℓ'}, (∀ m k t, .replaying m k t = ℓ' → ∃ m, KeyedBy m k w ∧ Wrote m t w) →
        Keys w' (ℓ' ::ₘ f) := by
      intro ℓ' hℓ'
      apply Keys.step hinv rfl hone hhappens
      · intro t heq
        cases heq
      · intro row heq
        cases heq
      · intro m k t heq
        exact .inr (hℓ' m k t heq)
    cases r with
    | error e =>
      exact ⟨.looking n k, rfl, hstep fun _ _ _ heq => (by cases heq), ⟨hkey', hnone'⟩, rfl⟩
    | ok existing =>
      obtain ⟨o, hans⟩ := hhappens.2.1
      have hfind : w.state.find "transaction.create" k = existing :=
        (Prod.mk.inj (Option.some.inj hans)).1
      cases hsaved : (existing : Option ApiIdempotencyKey).bind (·.responseBody) with
      | none =>
        have htold : Told n k w' := by
          refine ⟨existing, hsaved, ?_⟩
          rw [Async.Journal.Answered, Async.happens_entries hhappens]
          exact List.mem_append_right _ (List.mem_singleton_self _)
        refine ⟨.chosen n k, rfl, hstep fun _ _ _ heq => (by cases heq), ⟨hkey', htold, hnone'⟩, ?_⟩
        show Errand.chosen n k = _
        rw [hsaved]
        rfl
      | some t =>
        refine ⟨.replaying n k t, rfl, hstep fun m k' t' heq => ?_, hkey', ?_⟩
        · cases heq
          obtain ⟨row, hrow, hbody⟩ := Option.bind_eq_some_iff.mp hsaved
          rw [← hfind] at hrow
          have hmatch := List.find?_some hrow
          obtain ⟨t', m', hbody', hkey', hwrote⟩ := hbase.saved row (List.mem_of_find?_eq_some hrow)
          obtain rfl := Option.some.inj (hbody.symm.trans hbody')
          rw [(of_decide_eq_true hmatch).2] at hkey'
          exact ⟨m', hkey', hwrote⟩
        · show Errand.replaying n k t = _
          rw [hsaved]
          rfl
  exact safe_bind hask fun existing ℓ hℓ => safe_pure hℓ

/-- Saving what was written. -/
lemma safe_saveErrand {t : NewTransaction} : Safe (errandsOf n)
    (TransactionsController.save user t (some k)) (.wrote n k t)
    (upon (fun _ ℓ => ℓ = .wrote n k t) fun ℓ => ℓ.number = some n) := by
  have hnow : Safe (errandsOf n) (ask (.service ⟨.request, .now⟩)) (.wrote n k t)
      (upon (fun _ ℓ => ℓ = .wrote n k t) fun ℓ => ℓ.number = some n) := by
    have hservice : Safe (atService (errandsOf n)) (now .request) (.wrote n k t)
        (upon (fun _ ℓ => ℓ = .wrote n k t) fun ℓ => ℓ.number = some n) := by
      apply safe_service rfl
      · exact .inl (all_perform fun t heq => by cases heq)
      · intro r
        cases r with
        | ok v => rfl
        | error e => rfl
    exact safe_atDesk hservice
  refine safe_bind hnow fun date ℓ hℓ => ?_
  obtain rfl := hℓ
  apply Protocol.safe_call errands_lawful rfl trivial
  intro w f r w' hinv hmine hone hhappens
  refine ⟨.wrote n k t, rfl, ?_, mine_quiet rfl hmine (.inl fun _ heq => by cases heq) hhappens, ?_⟩
  · apply Keys.step hinv rfl hone hhappens
    · intro t heq
      cases heq
    · intro row heq
      cases heq
      exact ⟨t, rfl, hmine⟩
    · intro m k t heq
      cases heq
  · cases r with
    | ok v => rfl
    | error e => rfl

/-- A request that carries a key. -/
lemma safe_keyed {idempotencyKey : Option String} (hk : truthy idempotencyKey = some k) :
    Safe (errandsOf n) (TransactionsController.create js user dto idempotencyKey) (.looking n k)
      (upon (fun t ℓ => ℓ = .wrote n k t ∨ ℓ = .replaying n k t) fun ℓ => ℓ.number = some n) := by
  rw [TransactionsController.create, hk]
  refine safe_bind safe_lookup fun saved ℓ hℓ => ?_
  obtain rfl := hℓ
  cases saved with
  | some t => exact safe_pure (.inr rfl)
  | none =>
    refine safe_bind (safe_atDesk safe_createErrand) fun t ℓ hℓ => ?_
    obtain rfl := hℓ
    exact safe_bind safe_saveErrand fun _ ℓ hℓ => safe_pure (.inl hℓ)

/-- A visit without a key. -/
lemma safe_keyless {v : Visit} (hk : v.key = none) :
    Safe (errandsOf n) (v.program js) (.keyless n) fun _ ℓ => ℓ = .keyless n := by
  have hservice : ∀ {β : Type} {q : Service β}, Safe (errandsOf n) (atDesk q) (.keyless n)
      (upon (fun _ ℓ => ℓ = .keyless n) fun ℓ => ℓ = .keyless n) := by
    intro β q
    apply safe_atDesk
    apply safe_service rfl (.inr rfl)
    intro r
    cases r with
    | ok v => rfl
    | error e => rfl
  have hpost : Safe (errandsOf n) (v.program js) (.keyless n)
      (upon (fun _ ℓ => ℓ = .keyless n) fun ℓ => ℓ = .keyless n) := by
    cases v with
    | other q => exact safe_bind hservice fun _ ℓ hℓ => safe_pure hℓ
    | post user dto idempotencyKey =>
      have hnone : truthy idempotencyKey = none := hk
      refine safe_bind ?_ fun t ℓ hℓ => safe_pure hℓ
      rw [TransactionsController.create, hnone]
      refine safe_bind (R := fun saved ℓ => saved = none ∧ ℓ = .keyless n) (safe_pure ⟨rfl, rfl⟩)
        fun saved ℓ hℓ => ?_
      obtain ⟨rfl, rfl⟩ := hℓ
      refine safe_bind hservice fun t ℓ hℓ => ?_
      exact safe_bind (R := fun _ ℓ => ℓ = .keyless n) (safe_pure hℓ) fun _ ℓ hℓ => safe_pure hℓ
  refine hpost.mono fun r ℓ hr => ?_
  cases r with
  | ok v => exact hr
  | error e => exact hr

/-- The ghost states in which a session may end. -/
lemma ends_errands {a : Except String (Option NewTransaction)} (hn : ℓ.number = some n)
    (ha : ∀ v, a = .ok v → ℓ = .keyless n ∨
      ∃ k t, v = some t ∧ (ℓ = .wrote n k t ∨ ℓ = .replaying n k t)) :
    errands.Ends DeskReturns DeskTotal (fun _ => False) n a ℓ := by
  refine ⟨hn, fun w f r w' hinv hmine _ hhappens => ⟨?_, trivial⟩⟩
  have hbase : Keys w (ℓ ::ₘ f) := hinv.base
  apply hbase.finish hhappens
  intro v hv k hk
  rcases ha v hv with rfl | ⟨k', t, rfl, rfl | rfl⟩
  · exact absurd hk (hmine k)
  · obtain rfl := key_unique hinv hk hmine.1
    exact ⟨t, n, rfl, hmine⟩
  · obtain rfl := key_unique hinv hk hmine
    obtain ⟨m, hm, ht⟩ := hbase.replayed n k t (Multiset.mem_cons_self ..)
    exact ⟨t, m, rfl, hm, ht⟩

/-- Every visit follows the protocol. -/
lemma follows_errands (v : Visit) :
    errands.Follows DeskReturns DeskTotal (fun _ => False) n v (v.program js) := by
  intro w f r w' hinv hentries heffects _ hhappens
  have hbase : Keys w (.away ::ₘ f) := hinv.base
  have hbegun : w'.Begun n v := (Async.begun_happens hhappens).mpr (.inr rfl)
  have hasked : ∀ v', w'.Begun n v' → v' = v := by
    intro v' hv'
    rcases (Async.begun_happens hhappens).mp hv' with hv' | heq
    · exact absurd rfl (hentries _ hv')
    · cases heq
      rfl
  cases hk : v.key with
  | none =>
    refine ⟨.keyless n, rfl, hbase.begin hhappens hentries heffects (by simp), ?_, ?_⟩
    · rintro k ⟨v', hv', hk'⟩
      rw [hasked v' hv', hk] at hk'
      cases hk'
    · refine (safe_keyless hk).mono fun a ℓ hℓ => ?_
      subst hℓ
      exact ends_errands rfl fun _ _ => .inl rfl
  | some k =>
    cases v with
    | other q => cases hk
    | post user dto idempotencyKey =>
      refine ⟨.looking n k, rfl, hbase.begin hhappens hentries heffects (by simp), ?_, ?_⟩
      · refine ⟨⟨_, hbegun, hk⟩, ?_⟩
        rintro t ⟨d, hd⟩
        rw [Async.Journal.Took, (deskHappens_still hhappens fun _ _ heq => by cases heq).2] at hd
        exact heffects _ hd rfl
      · have hsafe : Safe (errandsOf n) ((Visit.post user dto idempotencyKey).program js)
            (.looking n k) (upon (fun v ℓ => ∃ t, v = some t ∧
              (ℓ = .wrote n k t ∨ ℓ = .replaying n k t)) fun ℓ => ℓ.number = some n) :=
          safe_bind (safe_keyed hk) fun t ℓ hℓ => safe_pure ⟨t, rfl, hℓ⟩
        refine hsafe.mono fun a ℓ hℓ => ?_
        cases a with
        | ok v =>
          obtain ⟨t, rfl, hℓ⟩ := hℓ
          have hn : ℓ.number = some n := by
            rcases hℓ with rfl | rfl
            · rfl
            · rfl
          apply ends_errands hn
          intro v hv
          cases hv
          exact .inr ⟨k, t, rfl, hℓ⟩
        | error e => exact ends_errands hℓ fun v hv => by cases hv

end Programs

/-! ### The desk -/

section Desk

variable {js : Js}

theorem errands_governs :
    Async.Governs (errands.discipline DeskReturns DeskTotal fun _ => False)
      (deskStaffing js oneByOne) := by
  apply Protocol.governs errands_lawful _ _ _ (fun _ _ _ _ h => h) fun _ v => follows_errands v
  · intro w hempty hentries heffects
    have hkeyed : ∀ n k, ¬KeyedBy n k w := by
      rintro n k ⟨v, hv, -⟩
      rw [Async.Journal.Begun, hentries] at hv
      cases hv
    refine ⟨fun k => ?_, fun k m _ hm => absurd hm (hkeyed m k), fun m k _ hm => absurd hm (hkeyed m k),
      ?_, fun n k t hmem => absurd hmem (Multiset.notMem_zero _), fun n k _ hn => absurd hn (hkeyed n k)⟩
    · rw [heffects]
      exact .nil
    · rw [hempty.apiIdempotencyKeys]
      intro row hrow
      cases hrow
  · intro w f h
    refine ⟨h.once, h.told, h.wrote, h.saved, fun n k t hmem => ?_, h.answered⟩
    rcases Multiset.mem_cons.mp hmem with heq | hmem
    · cases heq
    · exact h.replayed n k t hmem
  · intro w w' f hentries heffects hother h
    have hkeyed : ∀ n k, KeyedBy n k w' ↔ KeyedBy n k w := fun n k => by
      simp only [KeyedBy, Async.Journal.Begun, hentries]
    have htold : ∀ n k, Told n k w' ↔ Told n k w := fun n k => by
      simp only [Told, Async.Journal.Answered, hentries]
    have hwrote : ∀ n t, Wrote n t w' ↔ Wrote n t w := fun n t => by
      simp only [Wrote, Async.Journal.Took, heffects]
    have hfinished : ∀ n a, w'.Finished n a ↔ w.Finished n a := fun n a => by
      simp only [Async.Journal.Finished, hentries]
    refine ⟨?_, ?_, ?_, ?_, ?_, ?_⟩
    · simpa only [CreatesUnder, hkeyed, heffects] using h.once
    · simpa only [Fruitless, hkeyed, htold, hwrote, hfinished] using h.told
    · simpa only [hkeyed, htold, hwrote] using h.wrote
    · simpa only [hkeyed, hwrote, hother.apiIdempotencyKeys] using h.saved
    · simpa only [hkeyed, hwrote] using h.replayed
    · simpa only [hkeyed, hwrote, hfinished] using h.answered

/-- **A key stands for one creation**, if nobody looks it up while another request with this key is
about to create its transaction, or has created one without saving the response. -/
theorem key_idempotent {s : DeskState} (h : (desk js oneByOne).Reachable s) (k : String) :
    Idempotent k s.world := by
  obtain ⟨f, -, hinv⟩ := Async.reachable_sound errands_governs h
  have hbase : Keys s.world f := hinv.base
  exact ⟨hbase.once k, fun n r => hbase.answered n k r⟩

end Desk

/-! ### The shop -/

lemma oneByOne_checkedBy (threads : Multiset VisitInProgress) (e : Visiting) (w : DeskJournal)
    (r : Except String (Visiting.Res e))
    (h : (Async.unused e w && match e with
      | .call _ (.findIdempotencyKey scope k) => (w.state.find scope k).isSome ||
          w.entries.all fun x => match x.1 with
            | .call _ (.findIdempotencyKey _ _) => false
            | _ => true
      | _ => true) = true) : Async.unused e w ∧ oneByOne threads e w r := by
  rw [Bool.and_eq_true] at h
  refine ⟨h.1, ?_⟩
  cases e with
  | begin | finish => trivial
  | call n op =>
    cases op with
    | findIdempotencyKey scope k =>
      intro hnone m _ htold
      obtain ⟨existing, -, he⟩ := htold
      have hcheck := h.2
      simp only [hnone, Option.isSome_none, Bool.false_or, List.all_eq_true] at hcheck
      cases hcheck _ he
    | _ => trivial

/-- The beginning of the session `n` with the key `k`. -/
def begins (n : ℕ) (k : String) : Async.Entry Visit DeskOp DeskOp.Res String (Option NewTransaction) →
    Bool
  | ⟨.begin m v, .ok ()⟩ => decide (m = n ∧ v.key = some k)
  | _ => false

lemma keyedBy_of_begins {n : ℕ} {k : String} {w : DeskJournal} (h : ∃ e ∈ w.entries, begins n k e) :
    KeyedBy n k w := by
  obtain ⟨⟨e, r⟩, he, hbegins⟩ := h
  cases e with
  | begin m v =>
    cases r with
    | ok u =>
      obtain ⟨rfl, hk⟩ := of_decide_eq_true hbegins
      exact ⟨v, he, hk⟩
    | error e => cases hbegins
  | call | finish => cases hbegins

/-- A new transaction of the session `n`. -/
def writes (n : ℕ) (e : Async.Effect Desk DeskOp) : Bool :=
  match e.op with
  | .service ⟨.request, .createTransaction _⟩ => decide (e.session = n)
  | _ => false

lemma createsUnder_of_writes {n : ℕ} {k : String} {w : DeskJournal}
    {e : Async.Effect Desk DeskOp} (h : writes n e) (hk : KeyedBy n k w) :
    e.session = n ∧ CreatesUnder k w e := by
  obtain ⟨m, op, d⟩ := e
  cases op with
  | service c =>
    obtain ⟨source, op⟩ := c
    cases source with
    | request =>
      cases op with
      | createTransaction t =>
        obtain rfl : m = n := of_decide_eq_true h
        exact ⟨rfl, hk, t, rfl⟩
      | _ => cases h
    | _ => cases h
  | _ => cases h

namespace OneOrder

/-- An order with the key `k`. -/
def keyedOrder : Visit := .post customer order (some "k")

/-- The customer orders. -/
def keyedVisit : VisitInProgress × DeskJournal := visited 0 keyedOrder 16 openedDesk

/-- And sends the request once more. -/
def repeatedVisit : VisitInProgress × DeskJournal := visited 1 keyedOrder 3 keyedVisit.2

/-- The customer orders, up to the first answer. -/
def firstLook : VisitInProgress × DeskJournal := visited 0 keyedOrder 2 openedDesk

/-- The same request comes in a second time and is served. -/
def secondOrder : VisitInProgress × DeskJournal := visited 1 keyedOrder 16 firstLook.2

/-- The first one goes on. -/
def firstOrder : VisitInProgress × DeskJournal :=
  firstLook.1.runFor (Async.journalled replyAt) 14 secondOrder.2

end OneOrder

/-- In the shop the same request comes in twice, one after the other. -/
theorem key_idempotent_of_repeat : ∃ s, (desk OneOrder.js oneByOne).Reachable s ∧
    KeyedBy 0 "k" s.world ∧ KeyedBy 1 "k" s.world ∧ (∀ p ∈ s.threads, p.next = none) ∧
    Idempotent "k" s.world := by
  have hfirst : (desk OneOrder.js oneByOne).Reachable
      ⟨OneOrder.keyedVisit.2, OneOrder.keyedVisit.1 ::ₘ 0⟩ :=
    OneOrder.visited_reachable OneOrder.openedDesk_reachable (oneByOne_checkedBy 0) (by decide +kernel)
  have hsecond : (desk OneOrder.js oneByOne).Reachable
      ⟨OneOrder.repeatedVisit.2, OneOrder.repeatedVisit.1 ::ₘ OneOrder.keyedVisit.1 ::ₘ 0⟩ :=
    OneOrder.visited_reachable hfirst (oneByOne_checkedBy _) (by decide +kernel)
  have hkeys : (∃ e ∈ OneOrder.repeatedVisit.2.entries, begins 0 "k" e) ∧
      ∃ e ∈ OneOrder.repeatedVisit.2.entries, begins 1 "k" e := by decide +kernel
  have hdone : OneOrder.repeatedVisit.1.next = none ∧ OneOrder.keyedVisit.1.next = none := by
    decide +kernel
  refine ⟨_, hsecond, keyedBy_of_begins hkeys.1, keyedBy_of_begins hkeys.2, fun p hp => ?_,
    key_idempotent hsecond "k"⟩
  simp only [Multiset.mem_cons, Multiset.notMem_zero, or_false] at hp
  rcases hp with rfl | rfl
  · exact hdone.1
  · exact hdone.2

/-- Two requests with the same key and the same body both look before either has saved: both create
a transaction. -/
theorem key_created_twice : ∃ s, (desk OneOrder.js anyVisit).Reachable s ∧
    (∀ p ∈ s.threads, p.next = none) ∧ s.world.state.backend.transactions.length = 2 ∧
    ¬Idempotent "k" s.world := by
  have hlook : (desk OneOrder.js anyVisit).Reachable ⟨OneOrder.firstLook.2, OneOrder.firstLook.1 ::ₘ 0⟩ :=
    OneOrder.visited_reachable (C := fun e w _ => Async.unused e w) OneOrder.openedDesk_reachable
      (fun _ _ _ h => ⟨h, trivial⟩) (by decide +kernel)
  have hsecond : (desk OneOrder.js anyVisit).Reachable
      ⟨OneOrder.secondOrder.2, OneOrder.secondOrder.1 ::ₘ OneOrder.firstLook.1 ::ₘ 0⟩ :=
    OneOrder.visited_reachable (C := fun e w _ => Async.unused e w) hlook
      (fun _ _ _ h => ⟨h, trivial⟩) (by decide +kernel)
  rw [Multiset.cons_swap] at hsecond
  have hfirst : (desk OneOrder.js anyVisit).Reachable
      ⟨OneOrder.firstOrder.2, OneOrder.firstOrder.1 ::ₘ OneOrder.secondOrder.1 ::ₘ 0⟩ :=
    Async.reachable_journalled (C := fun e w _ => Async.unused e w) OneOrder.replyAt_returns
      (fun _ _ _ h => ⟨h, trivial⟩) (by decide +kernel) hsecond
  have hkeys : (∃ e ∈ OneOrder.firstOrder.2.entries, begins 0 "k" e) ∧
      ∃ e ∈ OneOrder.firstOrder.2.entries, begins 1 "k" e := by decide +kernel
  have hwrites : (∃ e ∈ OneOrder.firstOrder.2.effects, writes 0 e) ∧
      ∃ e ∈ OneOrder.firstOrder.2.effects, writes 1 e := by decide +kernel
  have hdone : OneOrder.firstOrder.1.next = none ∧ OneOrder.secondOrder.1.next = none := by decide +kernel
  have hrows : OneOrder.firstOrder.2.state.backend.transactions.length = 2 := by decide +kernel
  refine ⟨_, hfirst, fun p hp => ?_, hrows, fun h => ?_⟩
  · simp only [Multiset.mem_cons, Multiset.notMem_zero, or_false] at hp
    rcases hp with rfl | rfl
    · exact hdone.1
    · exact hdone.2
  · obtain ⟨⟨e, he, hwrites₀⟩, e', he', hwrites₁⟩ := hwrites
    obtain ⟨hn, hcreates⟩ := createsUnder_of_writes hwrites₀ (keyedBy_of_begins hkeys.1)
    obtain ⟨hm, hcreates'⟩ := createsUnder_of_writes hwrites₁ (keyedBy_of_begins hkeys.2)
    obtain rfl := h.creation_unique he he' hcreates hcreates'
    cases hn.symm.trans hm

end PayEra.Api
