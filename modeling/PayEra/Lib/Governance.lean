import PayEra.Lib.Soroban

/-!
# Governed contracts

Contracts that an admin administers: the admin's role is handed on in two steps, flags are granted
and revoked, and the contract can be paused. What is proved here is independent of what such a
contract is for: it is hosted with its calls in view, its charter says who holds which role, and
each successful call does one of a few things to the charter.
-/

namespace Soroban

open Transition Call

/-! ### Contracts with their calls in view -/

/-- Someone calls the contract, or the contracts that it can reach act among themselves. -/
inductive Act (ι : Type) where
  | call (env : Env) (i : ι)
  | peers (ledger : Nat)

/-- A contract amid others, which may do anything between its calls. -/
def contractAmid {ε σ ω ι : Type} (deploy : Env → σ → Prop)
    (exec : ι → Call ε (WithPeers σ ω) Unit) : System (OnLedger (WithPeers σ ω)) (Act ι) where
  Init c := ∃ env : Env, deploy env c.state.own ∧ c.ledger = env.ledger
  Step c l d :=
    match l with
    | .call env i =>
      c.ledger ≤ env.ledger ∧ d.ledger = env.ledger ∧ d.state = (exec i).commit env c.state
    | .peers ledger => c.ledger ≤ ledger ∧ d.ledger = ledger ∧ d.state.own = c.state.own

/-- Anyone may call any entrypoint next. -/
lemma contractAmid_reachable_call {ε σ ω ι : Type} {deploy : Env → σ → Prop}
    {exec : ι → Call ε (WithPeers σ ω) Unit} {c : OnLedger (WithPeers σ ω)}
    (h : (contractAmid deploy exec).Reachable c) (env : Env) (i : ι) (hl : c.ledger ≤ env.ledger) :
    (contractAmid deploy exec).Reachable ⟨env.ledger, (exec i).commit env c.state⟩ :=
  h.step (l := .call env i) ⟨hl, rfl, rfl⟩

/-- A system in which a contract is called. Its storage `τ` is a part of the state `σ` that its
calls work on. -/
structure Hosted (ε σ τ ι κ l : Type) where
  system : System κ l
  exec : ι → Call ε σ Unit
  state : κ → σ
  own : σ → τ
  call : l → Option (Env × ι)
  step : ∀ c a d, system.Step c a d → match call a with
    | some (env, i) => state d = (exec i).commit env (state c)
    | none => own (state d) = own (state c)

/-- A contract on a ledger of its own. -/
def Hosted.alone {ε σ ι : Type} (deploy : Env → σ → Prop) (exec : ι → Call ε σ Unit) :
    Hosted ε σ σ ι (OnLedger σ) (Env × ι) where
  system := contract deploy exec
  exec := exec
  state c := c.state
  own s := s
  call := some
  step _ _ _ h := h.2.2

/-- A contract amid others. -/
def Hosted.amid {ε σ ω ι : Type} (deploy : Env → σ → Prop)
    (exec : ι → Call ε (WithPeers σ ω) Unit) :
    Hosted ε (WithPeers σ ω) σ ι (OnLedger (WithPeers σ ω)) (Act ι) where
  system := contractAmid deploy exec
  exec := exec
  state c := c.state
  own s := s.own
  call a := match a with
    | .call env i => some (env, i)
    | .peers _ => none
  step _ a _ h := match a with
    | .call _ _ => h.2.2
    | .peers _ => h.2.2

namespace Hosted

variable {ε σ τ ι κ l : Type} (H : Hosted ε σ τ ι κ l)

/-- The contract's storage. -/
def storage (c : κ) : τ := H.own (H.state c)

/-- The call of a transition, if it returned. -/
def called (m : Move κ l) : Option (Env × ι) :=
  (H.call m.label).filter fun c => ((H.exec c.2).run c.1 (H.state m.pre)).isOk

variable {H} {c d : κ} {a : l} {env : Env} {i : ι}

/-- A transition is a call that returned, or it leaves the contract's storage. -/
lemma moves (h : H.system.Step c a d) :
    H.called ⟨c, a, d⟩ = none ∧ H.storage d = H.storage c ∨
      ∃ env i, H.called ⟨c, a, d⟩ = some (env, i) ∧
        (H.exec i).run env (H.state c) = .ok ((), H.state d) := by
  have hstep := H.step c a d h
  cases hcall : H.call a with
  | none =>
    rw [hcall] at hstep
    refine .inl ⟨?_, hstep⟩
    rw [called, hcall]
    rfl
  | some p =>
    obtain ⟨env, i⟩ := p
    rw [hcall] at hstep
    have hcommit : H.state d = (H.exec i).commit env (H.state c) := hstep
    rw [called, hcall]
    cases hrun : (H.exec i).run env (H.state c) with
    | error e =>
      left
      constructor
      · simp [Option.filter, hrun, Except.isOk, Except.toBool]
      · rw [storage, storage, hcommit, commit, hrun]
    | ok p =>
      right
      refine ⟨env, i, ?_, ?_⟩
      · simp [Option.filter, hrun, Except.isOk, Except.toBool]
      · rw [hcommit, commit_of_ok hrun]
        exact hrun

lemma run_of_called (h : H.system.Step c a d) (hcalled : H.called ⟨c, a, d⟩ = some (env, i)) :
    (H.exec i).run env (H.state c) = .ok ((), H.state d) := by
  rcases moves h with ⟨hnone, -⟩ | ⟨env', i', hsome, hrun⟩
  · rw [hnone] at hcalled
    cases hcalled
  · rw [hsome] at hcalled
    cases hcalled
    exact hrun

/-- A call that returned is the call that was made. -/
lemma call_of_called {m : Move κ l} (h : H.called m = some (env, i)) :
    H.call m.label = some (env, i) := by
  rw [called, Option.filter_eq_some_iff] at h
  exact h.1

end Hosted

/-! ### Roles -/

/-- Who holds which role. -/
@[ext] structure Charter where
  admin : Option Address
  pendingAdmin : Option Address
  flag : Address → Bool

/-- What a call is about. -/
inductive Motion where
  | propose (new : Address)
  | accept
  | set (x : Address) (b : Bool)

/-- What decides flags. -/
inductive Grant where
  | deployed (admin : Address)
  | set (x : Address) (b : Bool)
  | accepted (outgoing incoming : Address)

/-- What a grant says about an address. Where the role is handed to its holder, it is granted. -/
def Grant.verdict (x : Address) : Grant → Option Bool
  | .deployed admin => if x = admin then some true else none
  | .set y b => if x = y then some b else none
  | .accepted outgoing incoming =>
    if x = incoming then some true else if x = outgoing then some false else none

/-- The last grant that says anything about the address decides. -/
def decided (x : Address) (l : List Grant) : Bool := (l.filterMap (Grant.verdict x)).getLast?.getD false

namespace Charter

/-- The grant that a motion makes. -/
def grant (c : Charter) : Motion → Option Grant
  | .propose _ => none
  | .accept => c.admin.bind fun outgoing => c.pendingAdmin.map fun incoming =>
      .accepted outgoing incoming
  | .set x b => some (.set x b)

/-- What a successful call does to the charter, with the authorization that it needs. -/
inductive Step (auth : Address → Bool) (c : Charter) : Option Motion → Charter → Prop where
  | still : Step auth c none c
  | propose {adm : Address} (new : Address) (hadm : c.admin = some adm) (hauth : auth adm = true) :
      Step auth c (some (.propose new)) { c with pendingAdmin := some new }
  | set {adm : Address} (x : Address) (b : Bool) (hadm : c.admin = some adm)
      (hauth : auth adm = true) :
      Step auth c (some (.set x b)) { c with flag := Function.update c.flag x b }
  | accept {adm new : Address} (hadm : c.admin = some adm) (hnew : c.pendingAdmin = some new)
      (hauth : auth new = true) :
      Step auth c (some .accept) ⟨some new, none, Function.update (Function.update c.flag adm false)
        new true⟩

variable {auth : Address → Bool} {c d : Charter} {motion : Option Motion}

/-- A flag is what the grant says, if it says anything. -/
lemma Step.flag (h : Step auth c motion d) (x : Address) :
    d.flag x = ((motion.bind c.grant).bind (Grant.verdict x)).getD (c.flag x) := by
  cases h with
  | still => rfl
  | propose => rfl
  | set y b =>
    by_cases hx : x = y
    · simp [grant, Grant.verdict, hx]
    · simp [grant, Grant.verdict, hx]
  | @accept adm new hadm hnew =>
    by_cases hx : x = new
    · simp [grant, Grant.verdict, hadm, hnew, hx]
    · by_cases hy : x = adm
      · simp [grant, Grant.verdict, hadm, hnew, hy, Function.update_apply]
        simp [← hy, hx]
      · simp [grant, Grant.verdict, hadm, hnew, hx, hy]

/-- The pending admin is proposed by the admin or has accepted. -/
lemma Step.pendingAdmin (h : Step auth c motion d) (hne : d.pendingAdmin ≠ c.pendingAdmin) :
    (∃ adm new, motion = some (.propose new) ∧ c.admin = some adm ∧ auth adm = true ∧
        d.pendingAdmin = some new) ∨
      motion = some .accept ∧ d.pendingAdmin = none := by
  cases h with
  | still => exact absurd rfl hne
  | propose new hadm hauth => exact .inl ⟨_, new, rfl, hadm, hauth, rfl⟩
  | set => exact absurd rfl hne
  | accept => exact .inr ⟨rfl, rfl⟩

/-- Who becomes admin has been proposed and accepts. -/
lemma Step.admin (h : Step auth c motion d) (hne : d.admin ≠ c.admin) :
    ∃ new, motion = some .accept ∧ c.pendingAdmin = some new ∧ auth new = true ∧
      d.admin = some new := by
  cases h with
  | still => exact absurd rfl hne
  | propose => exact absurd rfl hne
  | set => exact absurd rfl hne
  | accept hadm hnew hauth => exact ⟨_, rfl, hnew, hauth, rfl⟩

/-- There is always an admin. -/
lemma Step.admin_ne_none (h : Step auth c motion d) (hc : c.admin ≠ none) : d.admin ≠ none := by
  cases h with
  | still => exact hc
  | propose => exact hc
  | set => exact hc
  | accept => exact Option.some_ne_none _

end Charter

/-- Flags that are false where nothing is stored, after one of them was written. -/
lemma getD_update (f : Address → Option Bool) (a : Address) (b : Bool) :
    (fun x => (Function.update f a (some b) x).getD false) =
      Function.update (fun x => (f x).getD false) a b := by
  funext x
  by_cases hx : x = a
  · simp [hx]
  · simp [hx]

/-- Revoking a flag that is granted next need not be written. -/
lemma handOver_flag (g : Address → Bool) (old pending : Address) :
    Function.update (if old ≠ pending then Function.update g old false else g) pending true =
      Function.update (Function.update g old false) pending true := by
  by_cases h : old = pending
  · simp [h]
  · simp [h]

/-- A contract with a charter. -/
structure Governed (ε σ τ ι κ l : Type) extends Hosted ε σ τ ι κ l where
  charter : τ → Charter
  motion : ι → Option Motion
  /-- The address whose flag an entrypoint asks for. -/
  names : ι → Option Address
  deployed : ∀ c, system.Init c → ∃ adm,
    charter (own (state c)) = ⟨some adm, none, fun x => decide (x = adm)⟩
  turn : ∀ env i s t, (exec i).run env s = .ok ((), t) →
    (charter (own s)).Step env.auth (motion i) (charter (own t))
  gated : ∀ env i x s t, names i = some x → (exec i).run env s = .ok ((), t) →
    env.auth x = true ∧ (charter (own s)).flag x = true

namespace Governed

variable {ε σ τ ι κ l : Type} (G : Governed ε σ τ ι κ l)

def charterAt (c : κ) : Charter := G.charter (G.storage c)

/-- The grant that a transition makes. -/
def granted (m : Move κ l) : Option Grant :=
  (G.called m).bind fun p => (G.motion p.2).bind (G.charterAt m.pre).grant

/-- Everything that has decided a flag since the deployment. -/
def grants (c₀ : κ) (tr : List (Move κ l)) : List Grant :=
  ((G.charterAt c₀).admin.map Grant.deployed).toList ++ tr.filterMap G.granted

/-- The roles along a run. -/
structure Rule (c₀ : κ) (tr : List (Move κ l)) (c : κ) : Prop where
  decided : ∀ x, (G.charterAt c).flag x = decided x (G.grants c₀ tr)
  gated : ∀ m ∈ tr, ∀ env i x, G.called m = some (env, i) → G.names i = some x →
    env.auth x = true ∧ (G.charterAt m.pre).flag x = true
  proposed : ∀ m ∈ tr, (G.charterAt m.post).pendingAdmin ≠ (G.charterAt m.pre).pendingAdmin →
    (∃ env i adm new, G.called m = some (env, i) ∧ G.motion i = some (.propose new) ∧
        (G.charterAt m.pre).admin = some adm ∧ env.auth adm = true ∧
        (G.charterAt m.post).pendingAdmin = some new) ∨
      ∃ env i, G.called m = some (env, i) ∧ G.motion i = some .accept ∧
        (G.charterAt m.post).pendingAdmin = none
  accepted : ∀ m ∈ tr, (G.charterAt m.post).admin ≠ (G.charterAt m.pre).admin →
    ∃ env i new, G.called m = some (env, i) ∧ G.motion i = some .accept ∧
      (G.charterAt m.pre).pendingAdmin = some new ∧ env.auth new = true ∧
      (G.charterAt m.post).admin = some new

variable {G} {c₀ c d : κ} {a : l} {tr : List (Move κ l)}

/-- A transition leaves the charter, or it is a call that does a step on it. -/
lemma charter_moves (h : G.system.Step c a d) :
    G.called ⟨c, a, d⟩ = none ∧ G.charterAt d = G.charterAt c ∨
      ∃ env i, G.called ⟨c, a, d⟩ = some (env, i) ∧
        (G.charterAt c).Step env.auth (G.motion i) (G.charterAt d) := by
  rcases Hosted.moves h with ⟨hnone, hstorage⟩ | ⟨env, i, hcalled, hrun⟩
  · refine .inl ⟨hnone, ?_⟩
    rw [charterAt, charterAt, hstorage]
  · exact .inr ⟨env, i, hcalled, G.turn env i _ _ hrun⟩

lemma decided_snoc (x : Address) (l : List Grant) (g : Option Grant) :
    decided x (l ++ g.toList) = ((g.bind (Grant.verdict x)).getD (decided x l)) := by
  rw [decided, decided, List.filterMap_append, List.getLast?_append]
  cases g with
  | none => simp
  | some g => cases h : g.verdict x <;> simp [h]

/-- **Last grant.** Along every run the flags are what the grants decide. -/
theorem flag_decided (h₀ : G.system.Init c₀) (h : G.system.Run c₀ tr c) (x : Address) :
    (G.charterAt c).flag x = decided x (G.grants c₀ tr) := by
  refine h.invariant (P := fun tr c => (G.charterAt c).flag x = decided x (G.grants c₀ tr)) h₀
    ?_ ?_
  · obtain ⟨adm, hadm⟩ := G.deployed c₀ h₀
    have hcharter : G.charterAt c₀ = ⟨some adm, none, fun x => decide (x = adm)⟩ := hadm
    by_cases hx : x = adm
    · simp [grants, hcharter, decided, Grant.verdict, hx]
    · simp [grants, hcharter, decided, Grant.verdict, hx]
  · intro tr t l u _ ih hstep
    have hgrants : G.grants c₀ (tr ++ [⟨t, l, u⟩]) =
        G.grants c₀ tr ++ (G.granted ⟨t, l, u⟩).toList := by
      rw [grants, grants, List.filterMap_append, List.append_assoc]
      cases hg : G.granted ⟨t, l, u⟩ <;> simp [hg]
    rw [hgrants, decided_snoc, ← ih]
    rcases charter_moves hstep with ⟨hnone, heq⟩ | ⟨env, i, hcalled, hturn⟩
    · rw [granted, hnone, heq]
      rfl
    · rw [granted, hcalled]
      exact hturn.flag x

theorem rule (h₀ : G.system.Init c₀) (h : G.system.Run c₀ tr c) : G.Rule c₀ tr c := by
  have hmove : ∀ m ∈ tr, G.system.Step m.pre m.label m.post := fun m hm => (h.of_mem h₀ hm).2
  refine ⟨flag_decided h₀ h, fun m hm env i x hcalled hx => ?_, fun m hm hne => ?_,
    fun m hm hne => ?_⟩
  · exact G.gated env i x _ _ hx (Hosted.run_of_called (hmove m hm) hcalled)
  · rcases charter_moves (hmove m hm) with ⟨-, heq⟩ | ⟨env, i, hcalled, hturn⟩
    · rw [heq] at hne
      exact absurd rfl hne
    · rcases hturn.pendingAdmin hne with ⟨adm, new, hmotion, hadm, hauth, hnew⟩ | ⟨hmotion, hnew⟩
      · exact .inl ⟨env, i, adm, new, hcalled, hmotion, hadm, hauth, hnew⟩
      · exact .inr ⟨env, i, hcalled, hmotion, hnew⟩
  · rcases charter_moves (hmove m hm) with ⟨-, heq⟩ | ⟨env, i, hcalled, hturn⟩
    · rw [heq] at hne
      exact absurd rfl hne
    · obtain ⟨new, hmotion, hnew, hauth, hadm⟩ := hturn.admin hne
      exact ⟨env, i, new, hcalled, hmotion, hnew, hauth, hadm⟩

end Governed

/-! ### Pausing -/

/-- A contract that its admin can pause. -/
structure Pausable (ε σ τ ι κ l : Type) extends Hosted ε σ τ ι κ l where
  paused : τ → Bool
  admin : τ → Option Address
  /-- What is stored besides the flag. -/
  rest : τ → τ
  pause : ι
  unpause : ι
  /-- `heartbeat` and the functions that only read. -/
  reads : ι → Bool
  blocked : ∀ env i s t, paused (own s) = true → reads i = false → i ≠ pause → i ≠ unpause →
    (exec i).run env s ≠ .ok ((), t)
  read : ∀ env i s t, reads i = true → (exec i).run env s = .ok ((), t) → t = s
  toggled : ∀ env i s t, i = pause ∨ i = unpause → (exec i).run env s = .ok ((), t) →
    (∃ adm, admin (own s) = some adm ∧ env.auth adm = true) ∧ rest (own t) = rest (own s) ∧
      (paused (own t) = true ↔ i ≠ unpause)

namespace Pausable

variable {ε σ τ ι κ l : Type} (P : Pausable ε σ τ ι κ l)

/-- This transition is an `unpause` that the contract's admin authorized. -/
def Unpaused (m : Move κ l) : Prop :=
  ∃ env adm, P.called m = some (env, P.unpause) ∧ P.admin (P.storage m.pre) = some adm ∧
    env.auth adm = true

/-- A paused contract is at a full stop. -/
structure FullStop (c : κ) : Prop where
  blocked : ∀ env i, P.reads i = false → i ≠ P.pause → i ≠ P.unpause →
    (∀ t, (P.exec i).run env (P.state c) ≠ .ok ((), t)) ∧
      (P.exec i).commit env (P.state c) = P.state c
  read : ∀ env i, P.reads i = true → (P.exec i).commit env (P.state c) = P.state c
  unpauseFirst : ∀ tr d, P.system.Run c tr d → P.rest (P.storage d) ≠ P.rest (P.storage c) →
    ∃ tr₁ m tr₂, tr = tr₁ ++ m :: tr₂ ∧ P.Unpaused m ∧
      P.rest (P.storage m.pre) = P.rest (P.storage c)

/-- Pausing and unpausing are up to the admin, and change the flag only. -/
structure Toggles (c : κ) : Prop where
  toggled : ∀ env i t, i = P.pause ∨ i = P.unpause →
    (P.exec i).run env (P.state c) = .ok ((), t) →
      (∃ adm, P.admin (P.storage c) = some adm ∧ env.auth adm = true) ∧
        P.rest (P.own t) = P.rest (P.storage c)

variable {P} {c d e : κ} {a : l} {tr : List (Move κ l)}

/-- One transition of a paused contract. -/
lemma stays_or_unpaused (hc : P.paused (P.storage c) = true) (h : P.system.Step c a d) :
    P.rest (P.storage d) = P.rest (P.storage c) ∧
      (P.paused (P.storage d) = true ∨ P.Unpaused ⟨c, a, d⟩) := by
  rcases Hosted.moves h with ⟨-, hstorage⟩ | ⟨env, i, hcalled, hrun⟩
  · rw [hstorage]
    exact ⟨rfl, .inl hc⟩
  · cases hreads : P.reads i with
    | true =>
      have heq : P.state d = P.state c := P.read env i _ _ hreads hrun
      rw [Hosted.storage, heq]
      exact ⟨rfl, .inl hc⟩
    | false =>
      by_cases hi : i = P.pause ∨ i = P.unpause
      · obtain ⟨⟨adm, hadm, hauth⟩, hrest, hpaused⟩ := P.toggled env i _ _ hi hrun
        refine ⟨hrest, ?_⟩
        by_cases hun : i = P.unpause
        · subst hun
          exact .inr ⟨env, adm, hcalled, hadm, hauth⟩
        · exact .inl (hpaused.mpr hun)
      · rw [not_or] at hi
        exact absurd hrun (P.blocked env i _ _ hc hreads hi.1 hi.2)

/-- Along a run of a paused contract nothing else changes before an `unpause`. -/
lemma stays_or_exists_unpaused (hc : P.paused (P.storage c) = true) (h : P.system.Run c tr d) :
    P.rest (P.storage d) = P.rest (P.storage c) ∧ P.paused (P.storage d) = true ∨
      ∃ tr₁ m tr₂, tr = tr₁ ++ m :: tr₂ ∧ P.Unpaused m ∧
        P.rest (P.storage m.pre) = P.rest (P.storage c) := by
  induction h with
  | nil => exact .inl ⟨rfl, hc⟩
  | @snoc t u tr l hrun hstep ih =>
    rcases ih with ⟨hrest, hpaused⟩ | ⟨tr₁, m, tr₂, rfl, hm, hrest⟩
    · obtain ⟨hrest', hpaused' | hunpaused⟩ := stays_or_unpaused hpaused hstep
      · exact .inl ⟨hrest'.trans hrest, hpaused'⟩
      · exact .inr ⟨tr, _, [], rfl, hunpaused, hrest⟩
    · exact .inr ⟨tr₁, m, tr₂ ++ [⟨t, l, u⟩], by simp, hm, hrest⟩

theorem fullStop (hc : P.paused (P.storage c) = true) : P.FullStop c := by
  refine ⟨fun env i hreads hpause hunpause => ?_, fun env i hreads => ?_, fun tr d h hne => ?_⟩
  · have hfails := fun t => P.blocked env i (P.state c) t hc hreads hpause hunpause
    refine ⟨hfails, ?_⟩
    rcases commit_cases (P.exec i) env (P.state c) with ⟨u, hok⟩ | heq
    · exact absurd hok (hfails _)
    · exact heq
  · rcases commit_cases (P.exec i) env (P.state c) with ⟨u, hok⟩ | heq
    · exact P.read env i _ _ hreads hok
    · exact heq
  · rcases stays_or_exists_unpaused hc h with ⟨hrest, -⟩ | hunpaused
    · exact absurd hrest hne
    · exact hunpaused

theorem toggles (c : κ) : P.Toggles c where
  toggled env i t hi hrun := by
    obtain ⟨hadm, hrest, -⟩ := P.toggled env i (P.state c) t hi hrun
    exact ⟨hadm, hrest⟩

end Pausable

end Soroban
