import PayEra.Ramps.Openings
import PayEra.Ramps.Script

/-!
# Terminal statuses

A refresh looks at the row, asks the provider, and then writes what it was told without looking again.
In the meantime another session may have brought the ramp to a terminal status, which is then
overwritten. Terminal statuses are absorbing, and the columns of the row consistent with them, if and
only if no session writes a status after it has missed such a write.

The ghost state of a session says at which ramp it has looked.
-/

namespace PayEra.Ramps

open Async (Program Event Safe Protocol upon safe_pure safe_bind safe_attempt safe_forM)
open Async.Program
open Transition (exists_split_snoc)

/-! ### Terminal statuses, and writes that were missed -/

abbrev Terminal (status : RampStatus) : Prop := RampsService.isTerminal status = true

/-- The columns that tell how a ramp ended. -/
structure Consistent (t : RampTransaction) : Prop where
  completedAt : t.completedAt.isSome ↔ t.status = .COMPLETED
  failureCode : t.failureCode.isSome ↔ t.status = .ERROR
  failureMessage : t.failureMessage.isSome ↔ t.status = .ERROR

abbrev DeskMove := Transition.Move DeskState (Async.Label Happening (Event.Res Op.Res) Thrown)

/-- Once terminal, a status never changes, and the other columns are consistent with it. -/
structure Absorbing (tr : List DeskMove) : Prop where
  status : ∀ m ∈ tr, ∀ id status, Terminal status →
    m.pre.world.state.status id = some status → m.post.world.state.status id = some status
  consistent : ∀ m ∈ tr, ∀ id t, m.post.world.state.ramp id = some t → Terminal t.status →
    Consistent t

/-- The call has written the status to the ramp. -/
def Writes (e : Done) (id : String) (status : RampStatus) : Prop :=
  ∃ data, e.op = .updateRamp id data ∧ data.status = some status

/-- The status was written to the ramp, and the session `n` has not looked at the ramp since. -/
def Missed (n : ℕ) (id : String) (status : RampStatus) (effects : List Done) : Prop :=
  ∃ l₁ e l₂, effects = l₁ ++ e :: l₂ ∧ Writes e id status ∧
    ∀ e' ∈ l₂, e'.session = n → e'.op ≠ .findRamp id

/-- A session has written a status to a ramp although it has missed the write of another terminal
one. -/
def Overtaken (effects : List Done) : Prop :=
  ∃ l₁ e l₂, effects = l₁ ++ e :: l₂ ∧ ∃ id next status, Writes e id next ∧ Terminal status ∧
    next ≠ status ∧ Missed e.session id status l₁

section Missed

variable {n : ℕ} {id : String} {status : RampStatus} {effects : List Done} {e : Done}

lemma missed_iff : Missed n id status effects ↔
    Async.Missed (fun e => Writes e id status) (fun op => op = .findRamp id) n effects := Iff.rfl

lemma missed_snoc : Missed n id status (effects ++ [e]) ↔ Writes e id status ∨
    Missed n id status effects ∧ (e.session = n → e.op ≠ .findRamp id) := by
  rw [missed_iff, missed_iff, Async.missed_snoc]

lemma overtaken_snoc : Overtaken (effects ++ [e]) ↔ Overtaken effects ∨
    ∃ id next status, Writes e id next ∧ Terminal status ∧ next ≠ status ∧
      Missed e.session id status effects := by
  rw [Overtaken, exists_split_snoc, or_comm]
  rfl

/-- Somebody has written what was missed. -/
lemma Missed.writes (h : Missed n id status effects) : ∃ e ∈ effects, Writes e id status :=
  (missed_iff.mp h).exists_mem

end Missed

/-! ### Calls that write consistent columns -/

section Columns

variable {t : RampTransaction} {data : RampTransactionData}

/-- A column that belongs to the status `v`, and is only ever filled. -/
lemma column_update {β : Type} {a b : Option β} {next status v : RampStatus}
    (hsame : status = v → next = v) (ha : a.isSome ↔ next = v) (hb : b.isSome ↔ status = v) :
    (a <|> b).isSome ↔ next = v := by
  cases a with
  | some x => simpa using ha
  | none =>
    show b.isSome ↔ next = v
    rw [hb]
    exact ⟨hsame, fun h => absurd (ha.mpr h) Bool.false_ne_true⟩

/-- A write over a row that is not terminal, or of the same status. -/
lemma Consistent.update (h : Consistent t) (hproper : data.Proper)
    (hsame : ∀ status, data.status = some status → Terminal t.status → status = t.status) :
    Consistent (t.update data) := by
  cases hstatus : data.status with
  | none =>
    obtain ⟨hcompleted, hcode, hmessage⟩ := hproper.unchanged hstatus
    constructor
    · simpa [RampTransaction.update, hstatus, hcompleted] using h.completedAt
    · simpa [RampTransaction.update, hstatus, hcode] using h.failureCode
    · simpa [RampTransaction.update, hstatus, hmessage] using h.failureMessage
  | some next =>
    obtain ⟨hcompleted, hcode, hmessage⟩ := hproper.changed next hstatus
    have hkeeps {v : RampStatus} (hv : Terminal v) (heq : t.status = v) : next = v := by
      rw [hsame next hstatus (by rw [heq]; exact hv), heq]
    have hnext : (t.update data).status = next := by
      simp [RampTransaction.update, hstatus]
    constructor
    · rw [hnext]
      exact column_update (hkeeps rfl) hcompleted h.completedAt
    · rw [hnext]
      exact column_update (hkeeps rfl) hcode h.failureCode
    · rw [hnext]
      exact column_update (hkeeps rfl) hmessage h.failureMessage

end Columns

/-! ### What a session has seen -/

section Calls

variable {s s' : Rails} {op : Op} {v : op.Res} {id : String} {status : RampStatus}

/-- A status is new to a ramp that is created, or it was written. -/
lemma status_returns (h : Returns op s v s') (hs' : s'.status id = some status) :
    s.status id = some status ∨ (∃ data, op = .createRamp data ∧ data.status = status) ∨
      ∃ data, op = .updateRamp id data ∧ data.status = some status := by
  rcases row_returns h id with hrow | ⟨data, ramp, rfl, -, hrow, hnew⟩ | ⟨data, t, rfl, ht, hrow⟩
  · left
    rw [← hs', Rails.status, Rails.status, hrow]
  · right
    left
    refine ⟨data, rfl, ?_⟩
    rw [Rails.status, hrow, hnew] at hs'
    exact Option.some.inj hs'
  · rw [Rails.status, hrow] at hs'
    rw [Rails.status, ht]
    cases hdata : data.status with
    | none =>
      left
      simpa [RampTransaction.update, hdata] using hs'
    | some next =>
      right
      right
      refine ⟨data, rfl, ?_⟩
      simpa [RampTransaction.update, hdata] using hs'

/-- A status that is written is there. -/
lemma status_of_writes {data : RampTransactionData} {t : RampTransaction}
    (h : Returns (.updateRamp id data) s t s') (hdata : data.status = some status) :
    s'.status id = some status := by
  obtain ⟨t₀, ht₀, -⟩ := returns_update h
  have hrow := ramp_returns h id
  simp only [Op.row, if_true, ht₀, Option.map_some] at hrow
  rw [Rails.status, hrow, Option.map_some, RampTransaction.update, hdata]
  rfl

end Calls

/-- Nothing that has made the ramp terminal has happened unseen by the session `n`, unless it is still
unseen. -/
def Unnoticed (n : ℕ) (id : String) (w : Desk) : Prop :=
  ∀ status, Terminal status → w.state.status id = some status → Missed n id status w.effects

section Unnoticed

variable {n m : ℕ} {id : String} {op : Op} {w w' : Desk} {r : Except Thrown op.Res} {κ : Place}

/-- A call keeps this, unless it is the session's own look at the ramp. -/
lemma Unnoticed.happens (h : Unnoticed n id w) (hcall : Happens (.call m op) w r w')
    (hmay : script.may κ op) (hop : m = n → op ≠ .findRamp id) : Unnoticed n id w' := by
  intro status hterminal hstatus
  rcases Async.happens_call hcall with ⟨hstate, heffects⟩ | ⟨⟨v, hreturns⟩, heffects⟩
  · rw [heffects]
    rw [hstate] at hstatus
    exact h status hterminal hstatus
  rw [heffects, missed_snoc]
  rcases status_returns hreturns hstatus with hsame | ⟨data, rfl, hnew⟩ | hwrites
  · exact .inr ⟨h status hterminal hsame, hop⟩
  · obtain ⟨-, hinitiated⟩ := hmay
    rw [← hnew, hinitiated] at hterminal
    cases hterminal
  · exact .inl hwrites

/-- Every other call leads to a place from which no other ramp is written. -/
lemma leads_about (hmay : script.may κ op) (hcreate : ∀ data, op ≠ .createRamp data)
    (hfind : ∀ i, op ≠ .findRamp i) (r : Except Thrown op.Res) :
    ∃ κ', script.leads κ op r κ' ∧ ∀ i, κ'.About i → κ.About i := by
  cases op with
  | createRamp data => exact absurd rfl (hcreate data)
  | findRamp i => exact absurd rfl (hfind i)
  | updateRamp i data =>
    cases r with
    | ok t =>
      refine ⟨_, rfl, fun j hj => ?_⟩
      rw [Place.wrote] at hj
      split at hj
      · rename_i status hstatus
        obtain rfl : i = j := hj
        exact hmay.2 (by rw [hstatus]; rfl)
      · exact hj
    | error e => exact ⟨κ, .inl rfl, fun _ => id⟩
  | lastSequence i =>
    obtain ⟨status, origin, rfl⟩ := hmay
    cases r with
    | ok last => exact ⟨_, rfl, fun _ => id⟩
    | error e => exact ⟨_, rfl, fun _ => id⟩
  | createEvent e =>
    obtain ⟨status, origin, rfl, -⟩ := hmay
    cases r with
    | ok _ => exact ⟨_, rfl, fun _ => id⟩
    | error e => exact ⟨_, .inr rfl, fun _ => id⟩
  | _ => exact ⟨κ, rfl, fun _ => id⟩

end Unnoticed

/-! ### The script keeps it -/

/-- No session is about to write to a ramp without having noticed how it has ended. -/
def watching (w : Desk) (f : Multiset (Option (ℕ × Place))) : Prop :=
  ∀ n κ, some (n, κ) ∈ f → ∀ id, κ.About id → Unnoticed n id w

section Watching

variable {w w' : Desk} {f : Multiset (Option (ℕ × Place))} {n : ℕ} {κ : Place}

lemma watching.cons (h : watching w f) (hκ : ∀ id, κ.About id → Unnoticed n id w) :
    watching w (some (n, κ) ::ₘ f) := by
  intro m κ' hmem
  rcases Multiset.mem_cons.mp hmem with heq | hmem
  · cases heq
    exact hκ
  · exact h m κ' hmem

lemma watching.congr (h : watching w f) (hstate : ∀ id, w'.state.status id = w.state.status id)
    (heffects : w'.effects = w.effects) : watching w' f := by
  intro m κ hmem id habout status hterminal hstatus
  rw [heffects]
  rw [hstate] at hstatus
  exact h m κ hmem id habout status hterminal hstatus

lemma watching.sub (h : watching w (none ::ₘ f)) : watching w f :=
  fun m κ hmem => h m κ (Multiset.mem_cons_of_mem hmem)

lemma watching.rest (h : watching w (some (n, κ) ::ₘ f)) : watching w (none ::ₘ f) := by
  intro m κ' hmem
  rcases Multiset.mem_cons.mp hmem with heq | hmem
  · cases heq
  · exact h m κ' (Multiset.mem_cons_of_mem hmem)

end Watching

abbrev anyAnswer (e : Happening) (_ : Desk) (_ : Except Thrown (Happening.Res e)) : Prop := True

lemma watching_keeps : script.Keeps Returns Total (fun _ => False) (β := Unit) anyAnswer
    watching fun _ _ _ => True where
  own _ _ _ _ _ _ := trivial
  begin n q w f r w' hbase hentries heffects hallowed hhappens := by
    obtain ⟨-, -, rfl⟩ := hhappens
    exact ⟨hbase.sub.congr (fun _ => rfl) rfl |>.cons fun _ h => h.elim, trivial⟩
  finish n κ a w f r w' hinv hmine hallowed hhappens := by
    obtain ⟨-, rfl⟩ := hhappens
    exact hinv.base.rest.congr (fun _ => rfl) rfl
  call n κ op w f r w' hmay hinv hmine hallowed hhappens := by
    have hothers : watching w' f := by
      intro m κ' hmem id habout
      have hne : n ≠ m := hinv.number_ne rfl hmem rfl
      exact (hinv.base m κ' (Multiset.mem_cons_of_mem hmem) id habout).happens hhappens hmay
        fun heq => absurd heq hne
    have hown : ∀ id, κ.About id → Unnoticed n id w :=
      hinv.base n κ (Multiset.mem_cons_self ..)
    by_cases hcreate : ∃ data, op = .createRamp data
    · obtain ⟨data, rfl⟩ := hcreate
      obtain ⟨rfl, hinitiated⟩ := hmay
      cases r with
      | error e => exact ⟨.clear, .inl rfl, hothers.cons fun _ h => h.elim, trivial⟩
      | ok ramp =>
        refine ⟨_, rfl, hothers.cons ?_, trivial⟩
        rintro id rfl status hterminal hstatus
        obtain ⟨-, hreturns, -⟩ := hhappens
        have hnew : ramp.status = .INITIATED := by
          rw [(returns_create hreturns).2]
          exact hinitiated
        rw [Rails.status, ramp_created hreturns, Option.map_some, hnew] at hstatus
        obtain rfl := Option.some.inj hstatus
        cases hterminal
    by_cases hfind : ∃ i, op = .findRamp i
    · obtain ⟨i, rfl⟩ := hfind
      cases r with
      | error e => exact ⟨_, rfl, hothers.cons fun _ h => h.elim, trivial⟩
      | ok found =>
        cases found with
        | none => exact ⟨_, rfl, hothers.cons fun _ h => h.elim, trivial⟩
        | some ramp =>
          obtain ⟨-, hreturns, -⟩ := hhappens
          obtain ⟨hrow, hstate⟩ := returns_find hreturns
          refine ⟨_, ⟨id_of_ramp hrow.symm, rfl⟩, hothers.cons ?_, trivial⟩
          rintro _ ⟨rfl, hgoing⟩ status hterminal hstatus
          rw [hstate, Rails.status, ← hrow] at hstatus
          obtain rfl := Option.some.inj hstatus
          rw [Terminal, hgoing] at hterminal
          cases hterminal
    · obtain ⟨κ', hleads, habout⟩ := leads_about hmay (fun data h => hcreate ⟨data, h⟩)
        (fun i h => hfind ⟨i, h⟩) r
      refine ⟨κ', hleads, hothers.cons fun id h => ?_, trivial⟩
      exact (hown id (habout id h)).happens hhappens hmay fun _ heq => hfind ⟨id, heq⟩

theorem watching_governs {anchor : Anchor} :
    Async.Governs ((script.protocol anyAnswer watching fun _ _ _ => True).discipline Returns Total
      (fun _ => False)) (Async.sessions Returns Total (fun _ => False) (Asked.program anchor)
        Rails.Empty Rails.Other anyHappening) := by
  refine watching_keeps.governs ?_ ?_ ?_ (fun _ _ _ _ _ => trivial) admits_program
  · rintro w - - - n κ hmem
    exact absurd hmem (Multiset.notMem_zero _)
  · intro w f h n κ hmem
    rcases Multiset.mem_cons.mp hmem with heq | hmem
    · cases heq
    · exact h n κ hmem
  · intro w w' f _ heffects hother h
    refine h.congr (fun id => ?_) heffects
    rw [Rails.status, Rails.status, ramp_congr hother.ramps]

/-! ### Runs -/

/-- All rows are consistent. -/
def Rails.Sound (s : Rails) : Prop := ∀ id t, s.ramp id = some t → Consistent t

section Runs

variable {anchor : Anchor} {s s' t : DeskState} {tr : List DeskMove}
  {l : Async.Label Happening (Event.Res Op.Res) Thrown}

/-- A session that writes a status has noticed how the ramp has ended, or it has missed that. -/
lemma writes_terminal (h : (desk anchor anyHappening).Reachable s) {n : ℕ} {id : String}
    {data : RampTransactionData} {k : Except Thrown RampTransaction → InProgress}
    {rest : Multiset InProgress} (hs : s.threads = .await (.call n (.updateRamp id data)) k ::ₘ rest) :
    data.Proper ∧ (data.status.isSome → Unnoticed n id s.world) := by
  obtain ⟨κ, f, ⟨hproper, habout⟩, hinv⟩ := Async.Script.place_of_call watching_governs h hs
  exact ⟨hproper, fun hsome => hinv.base n κ (Multiset.mem_cons_self ..) id (habout hsome)⟩

lemma init_empty (h : (desk anchor anyHappening).Init s) :
    (∀ id, s.world.state.ramp id = none) ∧ s.world.effects = [] := by
  obtain ⟨⟨hempty, -, heffects⟩, -⟩ := h
  refine ⟨fun id => ?_, heffects⟩
  rw [Rails.ramp, hempty.ramps]
  rfl

/-- What has happened once stays in the journal. -/
lemma effects_step (h : (desk anchor anyHappening).Step s l t) :
    t.world.effects = s.world.effects ∨ ∃ e, t.world.effects = s.world.effects ++ [e] := by
  rcases desk_step h with ⟨-, -, heq⟩ | ⟨n, op, r, k, rest, -, -, hhappens⟩
  · exact .inl heq
  · rcases Async.happens_call hhappens with ⟨-, heq⟩ | ⟨-, heq⟩
    · exact .inl heq
    · exact .inr ⟨_, heq⟩

lemma not_overtaken_step (h : (desk anchor anyHappening).Step s l t)
    (hnot : ¬Overtaken t.world.effects) : ¬Overtaken s.world.effects := by
  rcases effects_step h with heq | ⟨e, heq⟩
  · rwa [heq] at hnot
  · rw [heq, overtaken_snoc] at hnot
    exact fun hover => hnot (.inl hover)

/-- In a step that overtakes nothing, terminal statuses stay, and the rows are consistent. -/
lemma absorbs_step (hreach : (desk anchor anyHappening).Reachable s)
    (h : (desk anchor anyHappening).Step s l t) (hnot : ¬Overtaken t.world.effects)
    (hsound : s.world.state.Sound) :
    (∀ id status, Terminal status → s.world.state.status id = some status →
      t.world.state.status id = some status) ∧ t.world.state.Sound := by
  rcases desk_step h with ⟨hramps, -, -⟩ | ⟨n, op, r, k, rest, hs, -, hhappens⟩
  · refine ⟨fun id status _ hstatus => ?_, fun id row hrow => ?_⟩
    · rw [Rails.status, ramp_congr hramps]
      exact hstatus
    · rw [ramp_congr hramps] at hrow
      exact hsound id row hrow
  rcases Async.happens_call hhappens with ⟨hstate, -⟩ | ⟨⟨v, hreturns⟩, heffects⟩
  · rw [hstate]
    exact ⟨fun _ _ _ => id, hsound⟩
  rw [heffects, overtaken_snoc] at hnot
  -- a write over a terminal status is of the same status
  have hsame {id : String} {data : RampTransactionData} {row : RampTransaction}
      (hop : op = .updateRamp id data) (hrow : s.world.state.ramp id = some row) (next : RampStatus)
      (hnext : data.status = some next) (hterminal : Terminal row.status) : next = row.status := by
    subst hop
    obtain ⟨-, hunnoticed⟩ := writes_terminal hreach hs
    have hmissed := hunnoticed (by rw [hnext]; rfl) row.status hterminal (by rw [Rails.status, hrow]; rfl)
    by_contra hne
    exact hnot (.inr ⟨id, next, row.status, ⟨data, rfl, hnext⟩, hterminal, hne, hmissed⟩)
  constructor
  · intro id status hterminal hstatus
    obtain ⟨row, hrow, rfl⟩ := Option.map_eq_some_iff.mp hstatus
    rcases row_returns hreturns id with heq | ⟨data, ramp, -, hnone, -, -⟩ | ⟨data, row', hop, hrow', heq⟩
    · rw [Rails.status, heq, hrow]
      rfl
    · rw [hrow] at hnone
      cases hnone
    · obtain rfl := Option.some.inj (hrow.symm.trans hrow')
      rw [Rails.status, heq, Option.map_some, RampTransaction.update]
      cases hdata : data.status with
      | none => rfl
      | some next =>
        rw [hsame hop hrow next hdata hterminal]
        rfl
  · intro id row hrow
    rcases row_returns hreturns id with heq | ⟨data, ramp, hop, -, heq, hnew⟩ |
      ⟨data, row', hop, hrow', heq⟩
    · rw [heq] at hrow
      exact hsound id row hrow
    · rw [heq] at hrow
      obtain rfl := Option.some.inj hrow
      subst hop
      obtain ⟨κ, f, ⟨-, hinitiated⟩, -⟩ := Async.Script.place_of_call watching_governs hreach hs
      rw [hnew]
      constructor <;> simp [hinitiated]
    · rw [heq] at hrow
      obtain rfl := Option.some.inj hrow
      have hproper : data.Proper := by
        subst hop
        exact (writes_terminal hreach hs).1
      exact (hsound id row' hrow').update hproper fun next hnext hterminal =>
        hsame hop hrow' next hnext hterminal

/-- If nothing is overtaken, terminal statuses are absorbing. -/
lemma absorbing_of_not_overtaken (hinit : (desk anchor anyHappening).Init s)
    (hrun : (desk anchor anyHappening).Run s tr s') :
    ¬Overtaken s'.world.effects → Absorbing tr ∧ s'.world.state.Sound := by
  refine hrun.invariant
    (P := fun tr s => ¬Overtaken s.world.effects → Absorbing tr ∧ s.world.state.Sound) hinit ?_ ?_
  · intro _
    refine ⟨⟨by simp, by simp⟩, fun id row hrow => ?_⟩
    rw [(init_empty hinit).1] at hrow
    cases hrow
  · intro tr t l u hreach ih hstep hnot
    obtain ⟨⟨hstatus, hconsistent⟩, hsound⟩ := ih (not_overtaken_step hstep hnot)
    obtain ⟨hkept, hsound'⟩ := absorbs_step hreach hstep hnot hsound
    refine ⟨⟨fun m hm => ?_, fun m hm => ?_⟩, hsound'⟩
    · rcases List.mem_append.mp hm with hm | hm
      · exact hstatus m hm
      · obtain rfl := List.mem_singleton.mp hm
        exact hkept
    · rcases List.mem_append.mp hm with hm | hm
      · exact hconsistent m hm
      · obtain rfl := List.mem_singleton.mp hm
        exact fun id row hrow _ => hsound' id row hrow

lemma Absorbing.init {m : DeskMove} (h : Absorbing (tr ++ [m])) : Absorbing tr :=
  ⟨fun m hm => h.status m (List.mem_append_left _ hm),
    fun m hm => h.consistent m (List.mem_append_left _ hm)⟩

lemma Absorbing.right {tr' : List DeskMove} (h : Absorbing (tr' ++ tr)) : Absorbing tr :=
  ⟨fun m hm => h.status m (List.mem_append_right _ hm),
    fun m hm => h.consistent m (List.mem_append_right _ hm)⟩

lemma Absorbing.stays (h : Absorbing tr) (hrun : (desk anchor anyHappening).Run s tr s') {id : String}
    {status : RampStatus} (hterminal : Terminal status)
    (hstatus : s.world.state.status id = some status) : s'.world.state.status id = some status := by
  induction hrun with
  | nil => exact hstatus
  | @snoc t u tr l hrun hstep ih =>
    exact h.status ⟨t, l, u⟩ (by simp) id status hterminal (ih h.init)

/-- If terminal statuses are absorbing, the terminal statuses that were written are still there, so
that none was overtaken. -/
lemma not_overtaken_of_absorbing (hinit : (desk anchor anyHappening).Init s)
    (hrun : (desk anchor anyHappening).Run s tr s') : Absorbing tr → ¬Overtaken s'.world.effects ∧
      ∀ e ∈ s'.world.effects, ∀ id status, Terminal status → Writes e id status →
        s'.world.state.status id = some status := by
  refine hrun.invariant (P := fun tr s => Absorbing tr → ¬Overtaken s.world.effects ∧
    ∀ e ∈ s.world.effects, ∀ id status, Terminal status → Writes e id status →
      s.world.state.status id = some status) hinit ?_ ?_
  · intro _
    rw [(init_empty hinit).2]
    refine ⟨?_, by simp⟩
    rintro ⟨l₁, e, l₂, heq, -⟩
    simp at heq
  · intro tr t l u hreach ih hstep habsorbing
    obtain ⟨hnot, hthere⟩ := ih habsorbing.init
    have hkept : ∀ id status, Terminal status → t.world.state.status id = some status →
        u.world.state.status id = some status :=
      habsorbing.status ⟨t, l, u⟩ (by simp)
    rcases desk_step hstep with ⟨-, -, heffects⟩ | ⟨n, op, r, k, rest, -, -, hhappens⟩
    · rw [heffects]
      exact ⟨hnot, fun e he id status hterminal hwrites =>
        hkept id status hterminal (hthere e he id status hterminal hwrites)⟩
    rcases Async.happens_call hhappens with ⟨-, heffects⟩ | ⟨⟨v, hreturns⟩, heffects⟩
    · rw [heffects]
      exact ⟨hnot, fun e he id status hterminal hwrites =>
        hkept id status hterminal (hthere e he id status hterminal hwrites)⟩
    rw [heffects, overtaken_snoc]
    have hwritten : ∀ id status, Writes ⟨n, op, t.world.state⟩ id status →
        u.world.state.status id = some status := by
      rintro id status ⟨data, hop, hdata⟩
      obtain rfl : op = .updateRamp id data := hop
      exact status_of_writes hreturns hdata
    constructor
    · rintro (hover | ⟨id, next, status, hwrites, hterminal, hne, hmissed⟩)
      · exact hnot hover
      · obtain ⟨e, he, hwrites'⟩ := hmissed.writes
        have hold := hkept id status hterminal (hthere e he id status hterminal hwrites')
        exact hne (Option.some.inj ((hwritten id next hwrites).symm.trans hold))
    · intro e he id status hterminal hwrites
      rcases List.mem_append.mp he with he | he
      · exact hkept id status hterminal (hthere e he id status hterminal hwrites)
      · obtain rfl := List.mem_singleton.mp he
        exact hwritten id status hwrites

end Runs

/-- **Terminal statuses are absorbing** if and only if none of them is overtaken. -/
theorem terminal_absorbing_iff {anchor : Anchor} {s s' : DeskState} {tr : List DeskMove}
    (hinit : (desk anchor anyHappening).Init s) (hrun : (desk anchor anyHappening).Run s tr s') :
    Absorbing tr ↔ ¬Overtaken s'.world.effects :=
  ⟨fun h => (not_overtaken_of_absorbing hinit hrun h).1,
    fun h => (absorbing_of_not_overtaken hinit hrun h).1⟩

/-! ### A refresh that is late -/

namespace PlayedRamps

/-- What is answered when the provider reports the given status. -/
def reports (raw : String) (op : Op) (s : Rails) : Except Thrown op.Res × Rails :=
  match Rails.answer { oracle s with transaction := { status := 200, body := .ok { status := raw } } }
      op s with
  | none => (.error (.error "refused"), s)
  | some (v, s') => (.ok v, s')

lemma played_reports (raw : String) (op : Op) (s : Rails) :
    Async.Played Returns Total op s (reports raw op s) := by
  rw [reports]
  cases hanswer : Rails.answer _ op s with
  | none =>
    rintro (rfl | ⟨ms, rfl⟩)
    · cases hanswer
    · cases hanswer
  | some vs => exact ⟨_, hanswer⟩

/-- The first events of one more session. -/
def asked (raw : String) (n : ℕ) (q : Asked) (k : ℕ) (w : Desk) : InProgress × Desk :=
  (Async.session n q (q.program anchor)).runFor (Async.journalled (reports raw)) k w

section Runs

variable (raw : String) {n : ℕ} {q : Asked} (k : ℕ) {w : Desk} {threads : Multiset InProgress}
  {p : InProgress}

/-- The next events of a session. -/
lemma run_more (h : p.checkFor (Async.journalled (reports raw)) (fun e w _ => Async.unused e w) k w) :
    ∃ tr, (desk anchor anyHappening).Run ⟨w, p ::ₘ threads⟩ tr
      ⟨(p.runFor (Async.journalled (reports raw)) k w).2,
        (p.runFor (Async.journalled (reports raw)) k w).1 ::ₘ threads⟩ :=
  Async.run_journalled (played_reports raw) (fun _ _ _ h => ⟨h, trivial⟩) h

lemma run_asked (h : (Async.session n q (q.program anchor)).checkFor (Async.journalled (reports raw))
    (fun e w _ => Async.unused e w) k w) :
    ∃ tr, (desk anchor anyHappening).Run ⟨w, threads⟩ tr
      ⟨(asked raw n q k w).2, (asked raw n q k w).1 ::ₘ threads⟩ := by
  obtain ⟨tr, hrun⟩ := run_more raw k h
  have hstart : (desk anchor anyHappening).Step ⟨w, threads⟩
      (.start (Async.session n q (q.program anchor)))
      ⟨w, Async.session n q (q.program anchor) ::ₘ threads⟩ := ⟨⟨n, q, rfl⟩, rfl, rfl⟩
  exact ⟨_, (Transition.System.Run.single hstart).append hrun⟩

end Runs

def opening : Desk where
  state := verified

/-- A ramp is started. -/
def started : InProgress × Desk := asked "" 0 (.initiateOnRamp "ONRAMP_1" customer) 30 opening

/-- A refresh is told that the transfer is pending, and is about to write it. -/
def delayed : InProgress × Desk := asked "pending_anchor" 1 (.refreshStatus "ramp") 8 started.2

/-- A refresh is told that it is completed. -/
def settled : InProgress × Desk := asked "completed" 1 (.refreshStatus "ramp") 20 started.2

/-- Meanwhile, another one is told that it is completed. -/
def completed : InProgress × Desk := asked "completed" 2 (.refreshStatus "ramp") 20 delayed.2

/-- The first one goes on. -/
def overwritten : InProgress × Desk :=
  delayed.1.runFor (Async.journalled (reports "pending_anchor")) 4 completed.2

lemma opening_init : (desk anchor anyHappening).Init ⟨opening, 0⟩ :=
  ⟨⟨⟨rfl, rfl⟩, rfl, rfl⟩, rfl⟩

lemma run_started : ∃ tr, (desk anchor anyHappening).Run ⟨opening, 0⟩ tr ⟨started.2, {started.1}⟩ :=
  run_asked "" 30 (by decide +kernel)

/-- Three sessions, of which the second one is overtaken by the third. -/
lemma run_overwritten : ∃ tr tr', (desk anchor anyHappening).Run ⟨opening, 0⟩ tr
      ⟨completed.2, delayed.1 ::ₘ completed.1 ::ₘ {started.1}⟩ ∧
    (desk anchor anyHappening).Run ⟨completed.2, delayed.1 ::ₘ completed.1 ::ₘ {started.1}⟩ tr'
      ⟨overwritten.2, overwritten.1 ::ₘ completed.1 ::ₘ {started.1}⟩ := by
  obtain ⟨tr₁, hrun₁⟩ := run_started
  have hdelayed : ∃ tr, (desk anchor anyHappening).Run ⟨started.2, {started.1}⟩ tr
      ⟨delayed.2, delayed.1 ::ₘ {started.1}⟩ := run_asked "pending_anchor" 8 (by decide +kernel)
  obtain ⟨tr₂, hrun₂⟩ := hdelayed
  have hcompleted : ∃ tr, (desk anchor anyHappening).Run ⟨delayed.2, delayed.1 ::ₘ {started.1}⟩ tr
      ⟨completed.2, completed.1 ::ₘ delayed.1 ::ₘ {started.1}⟩ :=
    run_asked "completed" 20 (by decide +kernel)
  obtain ⟨tr₃, hrun₃⟩ := hcompleted
  have hlate : ∃ tr, (desk anchor anyHappening).Run
      ⟨completed.2, delayed.1 ::ₘ completed.1 ::ₘ {started.1}⟩ tr
      ⟨overwritten.2, overwritten.1 ::ₘ completed.1 ::ₘ {started.1}⟩ :=
    run_more "pending_anchor" 4 (by decide +kernel)
  obtain ⟨tr₄, hrun₄⟩ := hlate
  rw [Multiset.cons_swap] at hrun₃
  exact ⟨_, tr₄, (hrun₁.append hrun₂).append hrun₃, hrun₄⟩

/-- A write of a terminal status, and a later write of a status. -/
def writesAfter (e e' : Done) : Bool :=
  match e.op, e'.op with
  | .updateRamp _ data, .updateRamp _ data' =>
    data.status.any RampsService.isTerminal && data'.status.isSome
  | _, _ => false

lemma not_overtaken {effects : List Done} (h : effects.Pairwise fun e e' => writesAfter e e' = false) :
    ¬Overtaken effects := by
  rintro ⟨l₁, e, l₂, rfl, id, next, status, ⟨data', hop', hnext⟩, hterminal, -, hmissed⟩
  obtain ⟨e₀, he₀, data, hop, hstatus⟩ := hmissed.writes
  have hpair := (List.pairwise_append.mp h).2.2 e₀ he₀ e (List.mem_cons_self ..)
  rw [writesAfter, hop, hop'] at hpair
  simp [hstatus, hnext, hterminal] at hpair

end PlayedRamps

/-- A ramp is started and completed. -/
theorem terminal_absorbing_iff_of_completed : ∃ (anchor : Anchor) (s s' : DeskState)
    (tr : List DeskMove), (desk anchor anyHappening).Init s ∧ (desk anchor anyHappening).Run s tr s' ∧
      s'.world.state.status "ramp" = some .COMPLETED ∧ Absorbing tr := by
  obtain ⟨tr₁, hrun₁⟩ := PlayedRamps.run_started
  have hcompleted : ∃ tr, (desk PlayedRamps.anchor anyHappening).Run
      ⟨PlayedRamps.started.2, {PlayedRamps.started.1}⟩ tr ⟨PlayedRamps.settled.2, _⟩ :=
    PlayedRamps.run_asked "completed" 20 (by decide +kernel)
  obtain ⟨tr₂, hrun₂⟩ := hcompleted
  have hrun := hrun₁.append hrun₂
  refine ⟨_, _, _, _, PlayedRamps.opening_init, hrun, by decide +kernel, ?_⟩
  refine (terminal_absorbing_iff PlayedRamps.opening_init hrun).mpr (PlayedRamps.not_overtaken ?_)
  decide +kernel

/-- The refresh that was told first writes last. -/
theorem late_refresh_reopens : ∃ (anchor : Anchor) (s t s' : DeskState) (tr tr' : List DeskMove),
    (desk anchor anyHappening).Init s ∧ (desk anchor anyHappening).Run s tr t ∧
      t.world.state.status "ramp" = some .COMPLETED ∧ (desk anchor anyHappening).Run t tr' s' ∧
        s'.world.state.status "ramp" = some .PENDING_ANCHOR ∧ ¬Absorbing (tr ++ tr') := by
  obtain ⟨tr, tr', hrun, hrun'⟩ := PlayedRamps.run_overwritten
  have hcompleted : PlayedRamps.completed.2.state.status "ramp" = some .COMPLETED := by decide +kernel
  have hpending : PlayedRamps.overwritten.2.state.status "ramp" = some .PENDING_ANCHOR := by decide +kernel
  refine ⟨_, _, _, _, _, _, PlayedRamps.opening_init, hrun, hcompleted, hrun', hpending,
    fun habsorbing => ?_⟩
  have hstays : PlayedRamps.overwritten.2.state.status "ramp" = some .COMPLETED :=
    (Absorbing.right habsorbing).stays hrun' rfl hcompleted
  rw [hpending] at hstays
  cases hstays

end PayEra.Ramps
