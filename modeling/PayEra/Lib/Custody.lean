import PayEra.Lib.Governance

/-!
# Custody of the admin's role

The role of a governed contract passes from hand to hand: who holds it was proposed by the one who held
it before, during that holder's own time in office, and has accepted. No proposal outlives the office of
the one who made it.
-/

namespace Soroban

open Transition

namespace Governed

variable {ε σ τ ι κ l : Type} (G : Governed ε σ τ ι κ l)

/-- The admin `adm` proposes `new`. -/
def Proposes (m : Move κ l) (adm new : Address) : Prop :=
  ∃ env i, G.called m = some (env, i) ∧ G.motion i = some (.propose new) ∧
    (G.charterAt m.pre).admin = some adm ∧ env.auth adm = true

/-- `new` accepts. -/
def Accepts (m : Move κ l) (new : Address) : Prop :=
  ∃ env i, G.called m = some (env, i) ∧ G.motion i = some .accept ∧ env.auth new = true

/-- The admin is `adm` and the pending admin `new`. -/
def Pending (c : κ) (adm new : Address) : Prop :=
  (G.charterAt c).admin = some adm ∧ (G.charterAt c).pendingAdmin = some new

/-- The admin `adm` has proposed `new`, and nothing has come of it yet. -/
def Proposed (tr : List (Move κ l)) (adm new : Address) : Prop :=
  ∃ tr₁ m tr₂, tr = tr₁ ++ m :: tr₂ ∧ G.Proposes m adm new ∧ ∀ q ∈ tr₂, G.Pending q.post adm new

/-- The role along a run. -/
structure Custody (c₀ : κ) (tr : List (Move κ l)) (c : κ) : Prop where
  /-- There is always an admin. -/
  held : ∃ adm, (G.charterAt c).admin = some adm
  /-- Who takes the role over was proposed by the one who hands it over, and accepts. -/
  handed : ∀ tr₁ m tr₂, tr = tr₁ ++ m :: tr₂ → ∀ old new, (G.charterAt m.pre).admin = some old →
    (G.charterAt m.post).admin = some new → old ≠ new → G.Accepts m new ∧ G.Proposed tr₁ old new
  /-- Who signs nothing keeps the role. -/
  silent : ∀ adm, (G.charterAt c₀).admin = some adm →
    (∀ m ∈ tr, ∀ env i, G.called m = some (env, i) → env.auth adm = false) →
    (G.charterAt c).admin = some adm

variable {G} {c₀ c d : κ} {a : l} {tr : List (Move κ l)} {adm new : Address}

lemma Proposed.snoc {m : Move κ l} (h : G.Proposed tr adm new) (hm : G.Pending m.post adm new) :
    G.Proposed (tr ++ [m]) adm new := by
  obtain ⟨tr₁, p, tr₂, rfl, hp, hrest⟩ := h
  refine ⟨tr₁, p, tr₂ ++ [m], by simp, hp, fun q hq => ?_⟩
  rcases List.mem_append.mp hq with hq | hq
  · exact hrest q hq
  · obtain rfl := List.mem_singleton.mp hq
    exact hm

/-- Where the role stands: someone holds it, and whoever is to have it next was proposed by them. -/
structure Stands (G : Governed ε σ τ ι κ l) (tr : List (Move κ l)) (c : κ) : Prop where
  held : ∃ adm, (G.charterAt c).admin = some adm
  proposed : ∀ adm new, G.Pending c adm new → G.Proposed tr adm new

lemma stands_init (h₀ : G.system.Init c₀) : Stands G [] c₀ := by
  obtain ⟨adm, hadm⟩ := G.deployed c₀ h₀
  have hcharter : G.charterAt c₀ = ⟨some adm, none, fun x => decide (x = adm)⟩ := hadm
  refine ⟨⟨adm, by rw [hcharter]⟩, fun _ new hpending => ?_⟩
  rw [Pending, hcharter] at hpending
  cases hpending.2

/-- One transition: a proposal is the admin's own, an acceptance leaves none behind. -/
lemma Stands.step (h : Stands G tr c) (hstep : G.system.Step c a d) :
    Stands G (tr ++ [⟨c, a, d⟩]) d := by
  rcases charter_moves hstep with ⟨-, heq⟩ | ⟨env, i, hcalled, hturn⟩
  · refine ⟨heq ▸ h.held, fun adm new hpending => ?_⟩
    have hpending' : G.Pending c adm new := by rwa [Pending, heq] at hpending
    exact (h.proposed adm new hpending').snoc hpending
  · generalize hmotion : G.motion i = motion at hturn
    generalize hcharter : G.charterAt d = charter at hturn
    cases hturn with
    | still =>
      refine ⟨hcharter ▸ h.held, fun adm new hpending => ?_⟩
      have hpending' : G.Pending c adm new := by rwa [Pending, hcharter] at hpending
      exact (h.proposed adm new hpending').snoc hpending
    | @propose adm new hadm hauth =>
      refine ⟨⟨adm, by rw [hcharter]; exact hadm⟩, fun adm' new' hpending => ?_⟩
      rw [Pending, hcharter] at hpending
      obtain ⟨hadm', hnew⟩ := hpending
      obtain rfl := Option.some.inj (hadm.symm.trans hadm')
      obtain rfl := Option.some.inj hnew
      exact ⟨tr, _, [], rfl, ⟨env, i, hcalled, hmotion, hadm, hauth⟩, by simp⟩
    | set x b hadm hauth =>
      refine ⟨⟨_, by rw [hcharter]; exact hadm⟩, fun adm new hpending => ?_⟩
      have hpending' : G.Pending c adm new := by rwa [Pending, hcharter] at hpending
      exact (h.proposed adm new hpending').snoc hpending
    | @accept adm new hadm hnew hauth =>
      refine ⟨⟨new, by rw [hcharter]⟩, fun adm' new' hpending => ?_⟩
      rw [Pending, hcharter] at hpending
      cases hpending.2

lemma stands (h₀ : G.system.Init c₀) (h : G.system.Run c₀ tr c) : Stands G tr c := by
  induction h with
  | nil => exact stands_init h₀
  | snoc _ hstep ih => exact ih.step hstep

lemma handed (h₀ : G.system.Init c₀) (h : G.system.Run c₀ tr c) (hstep : G.system.Step c a d)
    {old : Address} (hold : (G.charterAt c).admin = some old) (hnew : (G.charterAt d).admin = some new)
    (hne : old ≠ new) : G.Accepts ⟨c, a, d⟩ new ∧ G.Proposed tr old new := by
  have hchanged : (G.charterAt d).admin ≠ (G.charterAt c).admin := by
    rw [hold, hnew]
    exact fun h => hne (Option.some.inj h).symm
  rcases charter_moves hstep with ⟨-, heq⟩ | ⟨env, i, hcalled, hturn⟩
  · rw [heq] at hchanged
    exact absurd rfl hchanged
  · obtain ⟨new', hmotion, hpending, hauth, hnew'⟩ := hturn.admin hchanged
    obtain rfl := Option.some.inj (hnew.symm.trans hnew')
    exact ⟨⟨env, i, hcalled, hmotion, hauth⟩, (stands h₀ h).proposed old new ⟨hold, hpending⟩⟩

/-- An admin who signs nothing has proposed no one. -/
lemma admin_of_silent (h₀ : G.system.Init c₀) (h : G.system.Run c₀ tr c)
    (hadm : (G.charterAt c₀).admin = some adm)
    (hsilent : ∀ m ∈ tr, ∀ env i, G.called m = some (env, i) → env.auth adm = false) :
    (G.charterAt c).admin = some adm := by
  induction h with
  | nil => exact hadm
  | @snoc t u tr l hrun hstep ih =>
    have hpre := ih fun m hm => hsilent m (List.mem_append_left _ hm)
    obtain ⟨new, hnew⟩ := ((stands h₀ hrun).step hstep).held
    by_cases heq : adm = new
    · rw [hnew, heq]
    · obtain ⟨-, tr₁, p, tr₂, rfl, ⟨env, i, hcalled, -, -, hauth⟩, -⟩ :=
        handed h₀ hrun hstep hpre hnew heq
      rw [hsilent p (by simp) env i hcalled] at hauth
      cases hauth

/-- **Custody.** -/
theorem custody (h₀ : G.system.Init c₀) (h : G.system.Run c₀ tr c) : G.Custody c₀ tr c := by
  refine ⟨(stands h₀ h).held, fun tr₁ m tr₂ htr old new hold hnew hne => ?_,
    fun adm hadm hsilent => admin_of_silent h₀ h hadm hsilent⟩
  subst htr
  obtain ⟨hrun, hstep⟩ := h.split tr₁ m tr₂
  exact handed h₀ hrun hstep hold hnew hne

end Governed

end Soroban
