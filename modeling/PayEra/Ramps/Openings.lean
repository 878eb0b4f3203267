import PayEra.Ramps.Initiation

/-!
# The provider's transactions

Every request that reaches the provider opens a transaction, and only a response that arrives intact
tells of it. An initiation opens at most one transaction, and records it, if and only if no response is
lost and the write of the one that it was told of takes effect.
-/

namespace PayEra.Ramps

open Async (Program Executes)
open Async.Program

/-! ### The transactions that a call opens -/

/-- The transactions that the calls have opened. -/
def openedBy (tr : List Attempted) : List String := tr.flatMap Attempted.opened

structure OneTransaction (i : String) (tr : List Attempted) (s' : Rails) : Prop where
  atMostOne : (openedBy tr).length ≤ 1
  recorded : ∀ id ∈ openedBy tr, ∃ t, s'.ramp i = some t ∧ t.providerTxId = some id

/-- The response to every request that has reached the provider arrives intact, and the write of the
provider's transaction takes effect. -/
structure Heard (tr : List Attempted) : Prop where
  intact : ∀ a ∈ tr, Attempted.opened a ≠ [] → (Attempted.intact a).isSome
  recorded : ∀ a ∈ tr, Attempted.records a → a.took = true

section Openings

variable {i id : String} {s s' : Rails} {tr before rest : List Attempted} {a : Attempted}
  {anchor : Anchor} {p : Service RampTransaction}

lemma reflects_providerTxId :
    Reflects (·.providerTxId) fun data k => data.providerTxId <|> k := fun _ _ => rfl

lemma opened_of_not_asks (h : a.Goes) (ha : a.op.asks = false) : a.opened = [] := by
  apply opened_eq_nil h
  intro url token body hop
  rw [hop] at ha
  cases ha

lemma openedBy_eq_nil_iff : openedBy tr = [] ↔ ∀ a ∈ tr, Attempted.opened a = [] :=
  List.flatMap_eq_nil_iff

lemma not_records (h : a.op.writes = false) : a.records = false := by
  obtain ⟨op, answer, took, found, left⟩ := a
  cases op with
  | updateRamp id data => cases h
  | _ => rfl

/-- The provider has told of nothing, and nothing is recorded. -/
lemma one_iff_of_lost (hlost : Lost tr) (hrecords : ∀ a ∈ tr, Attempted.records a = false)
    (hrow : openedBy tr ≠ [] → ∃ t, s'.ramp i = some t ∧ t.providerTxId = none) :
    OneTransaction i tr s' ↔ Heard tr := by
  constructor
  · intro h
    have hnone : openedBy tr = [] := by
      by_contra hne
      obtain ⟨id, hid⟩ := List.exists_mem_of_ne_nil _ hne
      obtain ⟨t, ht, hsome⟩ := h.recorded id hid
      obtain ⟨t', ht', hnull⟩ := hrow hne
      obtain rfl := Option.some.inj (ht.symm.trans ht')
      rw [hsome] at hnull
      cases hnull
    refine ⟨fun a ha hopened => absurd (openedBy_eq_nil_iff.mp hnone a ha) hopened, fun a ha hr => ?_⟩
    rw [hrecords a ha] at hr
    cases hr
  · intro h
    have hnone : openedBy tr = [] := by
      rw [openedBy_eq_nil_iff]
      intro a ha
      by_contra hopened
      have hsome := h.intact a ha hopened
      rw [hlost a ha] at hsome
      cases hsome
    refine ⟨by simp [hnone], fun id hid => ?_⟩
    rw [hnone] at hid
    cases hid

/-- The provider has told of a transaction, and the write `u` is to record it. -/
lemma one_iff_of_told {u : Attempted} (htr : tr = before ++ a :: u :: rest) (hlost : Lost before)
    (hbefore : ∀ b ∈ before, Attempted.records b = false) (hintact : a.intact.isSome)
    (hopened : a.opened = [id]) (hu : u.records = true) (hunopened : u.opened = [])
    (hrest : ∀ b ∈ rest, Attempted.records b = false ∧ Attempted.opened b = [])
    (hrow : ∃ t, s'.ramp i = some t ∧ t.providerTxId = if u.took then some id else none) :
    OneTransaction i tr s' ↔ Heard tr := by
  have hby : openedBy tr = openedBy before ++ [id] := by
    have hnil : rest.flatMap Attempted.opened = [] :=
      List.flatMap_eq_nil_iff.mpr fun b hb => (hrest b hb).2
    simp only [openedBy, htr, List.flatMap_append, List.flatMap_cons, hopened, hunopened, hnil,
      List.append_nil]
  have hmem : u ∈ tr := by simp [htr]
  obtain ⟨t, ht, hid⟩ := hrow
  constructor
  · intro h
    have hnone : openedBy before = [] := by
      have hlength := h.atMostOne
      rw [hby, List.length_append, List.length_singleton] at hlength
      exact List.length_eq_zero_iff.mp (by omega)
    have htook : u.took = true := by
      obtain ⟨t', ht', hsome⟩ := h.recorded id (by simp [hby])
      obtain rfl := Option.some.inj (ht.symm.trans ht')
      by_contra hno
      rw [hsome, if_neg hno] at hid
      cases hid
    constructor
    · intro b hb hne
      rw [htr] at hb
      rcases List.mem_append.mp hb with hb | hb
      · exact absurd (openedBy_eq_nil_iff.mp hnone b hb) hne
      · rcases List.mem_cons.mp hb with rfl | hb
        · exact hintact
        · rcases List.mem_cons.mp hb with rfl | hb
          · exact absurd hunopened hne
          · exact absurd (hrest b hb).2 hne
    · intro b hb hr
      rw [htr] at hb
      rcases List.mem_append.mp hb with hb | hb
      · rw [hbefore b hb] at hr
        cases hr
      · rcases List.mem_cons.mp hb with rfl | hb
        · obtain ⟨op, answer, took, found, left⟩ := b
          cases op with
          | postInteractive url token body => cases hr
          | _ => cases hintact
        · rcases List.mem_cons.mp hb with rfl | hb
          · exact htook
          · rw [(hrest b hb).1] at hr
            cases hr
  · intro h
    have hnone : openedBy before = [] := by
      rw [openedBy_eq_nil_iff]
      intro b hb
      by_contra hne
      have hsome := h.intact b (by simp [htr, hb]) hne
      rw [hlost b hb] at hsome
      cases hsome
    have htook := h.recorded u hmem hu
    rw [htook, if_pos rfl] at hid
    refine ⟨by simp [hby, hnone], fun id' hid' => ⟨t, ht, ?_⟩⟩
    rw [hby, hnone, List.nil_append, List.mem_singleton] at hid'
    rw [hid', hid]

/-- **One provider transaction per ramp**: a call opens at most one transaction, and its row records
it, exactly when no response is lost and the write of the transaction takes effect. -/
theorem one_provider_transaction_iff (hp : Initiates anchor p) {r : Except Thrown RampTransaction}
    (h : Execution (·.providerTxId) i p s tr r s') (hi : ∀ ramp, Created tr ramp → ramp.id = i) :
    OneTransaction i tr s' ↔ Heard tr := by
  have hgoes := h.goes
  cases initiates_outcome reflects_providerTxId hp h hi with
  | aside haside =>
    apply one_iff_of_lost (lost_of_aside haside) fun a ha => not_records (haside a ha).2
    intro hne
    exact absurd (openedBy_eq_nil_iff.mpr fun a ha =>
      opened_of_not_asks (hgoes a ha) (haside a ha).1) hne
  | failed ramp message before after e htr hnew hlost hbefore he hafter hshows =>
    have hlast : e.intact = none := intact_of_not_asks (by rw [he]; rfl)
    have hfailure : e.records = false := by rw [Attempted.records, he]; rfl
    have htail {P : Attempted → Prop} (h₁ : ∀ b ∈ before, P b) (h₂ : P e) (h₃ : ∀ b ∈ after, P b) :
        ∀ b ∈ tr, P b := by
      intro b hb
      rw [htr] at hb
      rcases List.mem_append.mp hb with hb | hb
      · exact h₁ b hb
      · rcases List.mem_cons.mp hb with rfl | hb
        · exact h₂
        · exact h₃ b hb
    apply one_iff_of_lost (htail hlost hlast (lost_of_aside hafter))
    · exact htail (fun b hb => not_records (hbefore b hb)) hfailure
        fun b hb => not_records (hafter b hb).2
    · intro _
      obtain ⟨t, ht, hk⟩ := hshows
      refine ⟨t, ht, hk.trans ?_⟩
      rw [hnew.2]
      split_ifs
      · rfl
      · rfl
  | recorded ramp result before after a u htr hnew hlost hbefore hintact hopened hu hafter hok hshows =>
    apply one_iff_of_told htr hlost (fun b hb => not_records (hbefore b hb)) hintact hopened
    · rw [Attempted.records, hu]
      rfl
    · exact opened_of_not_asks (hgoes u (by simp [htr])) (by rw [hu]; rfl)
    · intro b hb
      exact ⟨not_records (hafter b hb).2, opened_of_not_asks (hgoes b (by simp [htr, hb])) (hafter b hb).1⟩
    · obtain ⟨t, ht, hk⟩ := hshows
      refine ⟨t, ht, hk.trans ?_⟩
      rw [hnew.2]
      split_ifs
      · rfl
      · rfl
  | abandoned ramp result message before between after a u e htr hnew hlost hbefore hintact hopened hu
      hbetween hfails he hafter hshows =>
    apply one_iff_of_told htr hlost (fun b hb => not_records (hbefore b hb)) hintact hopened
    · rw [Attempted.records, hu]
      rfl
    · exact opened_of_not_asks (hgoes u (by simp [htr])) (by rw [hu]; rfl)
    · intro b hb
      have hmem : b ∈ tr := by simp [htr, hb]
      rcases List.mem_append.mp hb with hb | hb
      · exact ⟨not_records (hbetween b hb).2, opened_of_not_asks (hgoes b hmem) (hbetween b hb).1⟩
      · rcases List.mem_cons.mp hb with rfl | hb
        · refine ⟨by rw [Attempted.records, he]; rfl, opened_of_not_asks (hgoes b hmem) ?_⟩
          rw [he]
          rfl
        · exact ⟨not_records (hafter b hb).2, opened_of_not_asks (hgoes b hmem) (hafter b hb).1⟩
    · obtain ⟨t, ht, hk⟩ := hshows
      refine ⟨t, ht, hk.trans ?_⟩
      rw [hnew.2]
      split_ifs
      · rfl
      · rfl
      · rfl
      · rfl

end Openings

/-! ### A counter -/

namespace PlayedRamps

def anchor : Anchor where
  homeDomain := "anchor"
  appHomeDomain := "payera"
  networkPassphrase := "network"
  transferServer := fun text => some text
  webAuthEndpoint := fun text => some text
  withSearchParams := fun url _ => .ok url
  signTransaction := fun transaction => .ok transaction
  encodeURIComponent := fun s => s

/-- The provider's transactions are numbered. -/
def nextId (s : Rails) : String := if s.opened = [] then "first" else "second"

def oracle (s : Rails) : Oracle where
  id := "ramp"
  opens := nextId s
  toml := { status := 200, body := .ok "server" }
  challenge := { status := 200, body := .ok { transaction := "challenge", network_passphrase := none } }
  token := { status := 200, body := .ok "token" }
  interactive := { status := 200, body := .ok { url := "url", id := nextId s } }
  transaction := { status := 200, body := .ok { status := "completed" } }

/-- Whether a call fails: it is refused, or its answer is lost. -/
inductive Fails where
  | refused
  | lost

def respond (fails : Op → Rails → Option Fails) (op : Op) (s : Rails) :
    Except Thrown op.Res × Bool × Rails :=
  match Rails.answer (oracle s) op s with
  | none => (.error (.error "refused"), false, s)
  | some (v, s') =>
    match fails op s with
    | none => (.ok v, true, s')
    | some .refused => (.error (.error "refused"), false, s)
    | some .lost => (.error (.error "lost"), true, s')

lemma goes_respond {fails : Op → Rails → Option Fails} (hfails : ∀ op s, Total op → fails op s = none)
    (op : Op) (s : Rails) : Attempted.Goes
      ⟨op, (respond fails op s).1, (respond fails op s).2.1, s, (respond fails op s).2.2⟩ := by
  rw [respond]
  cases hanswer : Rails.answer (oracle s) op s with
  | none =>
    refine ⟨?_, .inl ⟨rfl, rfl⟩⟩
    rintro (rfl | ⟨ms, rfl⟩)
    · cases hanswer
    · cases hanswer
  | some vs =>
    obtain ⟨v, s'⟩ := vs
    have hreturns : Returns op s v s' := ⟨oracle s, hanswer⟩
    cases hf : fails op s with
    | none => exact ⟨rfl, hreturns⟩
    | some f =>
      have htotal : ¬Total op := by
        intro h
        rw [hfails op s h] at hf
        cases hf
      cases f with
      | refused => exact ⟨htotal, .inl ⟨rfl, rfl⟩⟩
      | lost => exact ⟨htotal, .inr ⟨rfl, v, hreturns⟩⟩

def customer : InitiateArgs where
  userId := "customer"
  providerId := "MONEYGRAM"
  userStellarAddress := "address"
  amount := none
  assetCode := none

def verified : Rails where
  kyc _ := some .VERIFIED

/-- The customer starts a ramp. -/
def start (fails : Op → Rails → Option Fails) :
    List Attempted × Except Thrown RampTransaction × Rails :=
  (RampsService.initiateOnRamp anchor "ONRAMP_1" customer).play (respond fails) verified

lemma initiates_start :
    Initiates anchor (RampsService.initiateOnRamp anchor "ONRAMP_1" customer) :=
  ⟨"ONRAMP_1", customer, .inl rfl⟩

lemma execution_start {κ : Type} {keep : RampTransaction → κ} {fails : Op → Rails → Option Fails}
    (hfails : ∀ op s, Total op → fails op s = none) :
    Execution keep "ramp" (RampsService.initiateOnRamp anchor "ONRAMP_1" customer) verified
      (start fails).1 (start fails).2.1 (start fails).2.2 :=
  Async.executes_play (respond fails) _ _ (goes_respond hfails) fun _ t ht => ⟨t, ht, rfl⟩

/-- Every ramp that is created has this identifier. -/
lemma created_start {tr : List Attempted}
    (h : tr.all fun a => (Attempted.created a).all (·.id = "ramp")) :
    ∀ ramp, Created tr ramp → ramp.id = "ramp" := by
  rintro ramp ⟨a, ha, hcreated⟩
  have hall := List.all_eq_true.mp h a ha
  rw [hcreated] at hall
  exact of_decide_eq_true hall

/-- The response to the first initiation is lost. -/
def losesFirst (op : Op) (s : Rails) : Option Fails :=
  match op with
  | .postInteractive _ _ _ => if s.opened = [] then some .lost else none
  | _ => none

lemma losesFirst_total (op : Op) (s : Rails) (h : Total op) : losesFirst op s = none := by
  rcases h with rfl | ⟨ms, rfl⟩
  · rfl
  · rfl

end PlayedRamps

/-- Nothing fails. -/
theorem one_provider_transaction_iff_of_start : ∃ (anchor : Anchor) (p : Service RampTransaction)
    (s s' : Rails) (tr : List Attempted) (r : Except Thrown RampTransaction), Initiates anchor p ∧
      Execution (·.providerTxId) "ramp" p s tr r s' ∧ openedBy tr = ["first"] ∧
        OneTransaction "ramp" tr s' := by
  have h : Execution (·.providerTxId) "ramp" _ _ (PlayedRamps.start fun _ _ => none).1 _ _ :=
    PlayedRamps.execution_start fun _ _ _ => rfl
  have hi : ∀ ramp, Created (PlayedRamps.start fun _ _ => none).1 ramp → ramp.id = "ramp" :=
    PlayedRamps.created_start (by decide +kernel)
  refine ⟨_, _, _, _, _, _, PlayedRamps.initiates_start, h, by decide +kernel, ?_⟩
  refine (one_provider_transaction_iff PlayedRamps.initiates_start h hi).mpr ⟨?_, ?_⟩
  · decide +kernel
  · decide +kernel

/-- The response to the first initiation is lost, and the next attempt opens another transaction. -/
theorem lost_response_opens_twice : ∃ (anchor : Anchor) (p : Service RampTransaction)
    (s s' : Rails) (tr : List Attempted) (r : Except Thrown RampTransaction), Initiates anchor p ∧
      Execution (·.providerTxId) "ramp" p s tr r s' ∧ (∀ ramp, Created tr ramp → ramp.id = "ramp") ∧
        openedBy tr = ["first", "second"] ∧ ¬OneTransaction "ramp" tr s' := by
  have h : Execution (·.providerTxId) "ramp" _ _ (PlayedRamps.start PlayedRamps.losesFirst).1 _ _ :=
    PlayedRamps.execution_start PlayedRamps.losesFirst_total
  have hi : ∀ ramp, Created (PlayedRamps.start PlayedRamps.losesFirst).1 ramp → ramp.id = "ramp" :=
    PlayedRamps.created_start (by decide +kernel)
  have hopened : openedBy (PlayedRamps.start PlayedRamps.losesFirst).1 = ["first", "second"] := by
    decide +kernel
  refine ⟨_, _, _, _, _, _, PlayedRamps.initiates_start, h, hi, hopened, fun hone => ?_⟩
  have hlength := hone.atMostOne
  rw [hopened] at hlength
  exact absurd hlength (by decide)

end PayEra.Ramps
