import PayEra.StarToken.Conservation
import PayEra.StarToken.Roles
import PayEra.RewardEngine.Roles
import PayEra.PaymentEngine.Roles
import PayEra.MerchantRegistry.Roles

/-!
# Governance of the four contracts

What the rules of governed and of pausable contracts say of this system's contracts: how flags
and the admin's role move, and what a pause stops.
-/

namespace PayEra

open Soroban Transition

/-- **Flags and roles.** In every run of the payment engine, the reward engine and STAR, the
`Operator`, `AuthorizedIssuer` and `Minter` flags are what the last grant says, a call that names
their holder needs its authorization and its flag, and the admin's role moves in two steps. -/
theorem flags_decided_by_last_grant :
    (∀ {ω : Type} (clients : PaymentEngine.Clients ω) (c₀ tr c),
      (PaymentEngine.governed clients).system.Init c₀ →
      (PaymentEngine.governed clients).system.Run c₀ tr c →
      (PaymentEngine.governed clients).Rule c₀ tr c) ∧
    (∀ {ω : Type} (star : RewardEngine.StarTokenClient ω) (c₀ tr c),
      (RewardEngine.governed star).system.Init c₀ →
      (RewardEngine.governed star).system.Run c₀ tr c →
      (RewardEngine.governed star).Rule c₀ tr c) ∧
    ∀ c₀ tr c, StarToken.governed.system.Init c₀ → StarToken.governed.system.Run c₀ tr c →
      StarToken.governed.Rule c₀ tr c :=
  ⟨fun _ _ _ _ h₀ h => Governed.rule h₀ h, fun _ _ _ _ h₀ h => Governed.rule h₀ h,
    fun _ _ _ h₀ h => Governed.rule h₀ h⟩

/-- The admin of STAR makes account 3 a minter. -/
theorem flags_decided_by_last_grant_of_setMinter :
    ∃ tr c, StarToken.system.Run ⟨5, StarToken.sampleDeployed⟩ tr c ∧
      c.state.isMinter ⟨3⟩ = true ∧ StarToken.governed.Rule ⟨5, StarToken.sampleDeployed⟩ tr c := by
  have h₀ : StarToken.system.Init ⟨5, StarToken.sampleDeployed⟩ :=
    ⟨StarToken.sampleEnv 5, ⟨⟨1⟩, "STAR", "STAR", .lit 1000, rfl⟩, rfl⟩
  have h : StarToken.system.Run ⟨5, StarToken.sampleDeployed⟩ [] ⟨5, StarToken.sampleDeployed⟩ :=
    .nil _
  have h := contract_run_call h (StarToken.sampleEnv 6) (.setMinter ⟨3⟩ true) (by decide)
  exact ⟨_, _, h, by decide, flags_decided_by_last_grant.2.2 _ _ _ h₀ h⟩

/-- What a pause means for a contract. -/
def PauseStops {ε σ τ ι κ l : Type} (P : Pausable ε σ τ ι κ l) : Prop :=
  ∀ c, P.system.Reachable c → P.Toggles c ∧ (P.paused (P.storage c) = true → P.FullStop c)

/-- **Pause.** In each of the four contracts a pause is a full stop, which only the admin begins and
ends. -/
theorem pause_full_stop :
    PauseStops StarToken.pausable ∧
      (∀ {ω : Type} (star : RewardEngine.StarTokenClient ω),
        PauseStops (RewardEngine.pausable star)) ∧
      (∀ {ω : Type} (clients : PaymentEngine.Clients ω),
        PauseStops (PaymentEngine.pausable clients)) ∧
      PauseStops MerchantRegistry.pausable :=
  ⟨fun c _ => ⟨Pausable.toggles c, Pausable.fullStop⟩,
    fun _ c _ => ⟨Pausable.toggles c, Pausable.fullStop⟩,
    fun _ c _ => ⟨Pausable.toggles c, Pausable.fullStop⟩,
    fun c _ => ⟨Pausable.toggles c, Pausable.fullStop⟩⟩

/-- STAR, paused by its admin. -/
theorem pause_full_stop_of_star :
    StarToken.pausable.FullStop
      ⟨6, (StarToken.exec .pause).commit (StarToken.sampleEnv 6) StarToken.sampleDeployed⟩ :=
  (pause_full_stop.1 _ (contract_reachable_call StarToken.sampleDeployed_reachable
    (StarToken.sampleEnv 6) .pause (by decide))).2 (by decide)

end PayEra
