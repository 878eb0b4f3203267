import PayEra.Lib.Custody
import PayEra.StarToken.Answers
import PayEra.RewardEngine.Answers
import PayEra.PaymentEngine.Answers
import PayEra.MerchantRegistry.Answers

/-!
# Administration of the four contracts

What the rules of governed contracts and of contracts with signers say of this system: the admin's role
never gets lost or taken, and a call that is signed is answered.
-/

namespace PayEra

open Soroban Transition

/-- What custody means for a contract. -/
def KeepsCustody {ε σ τ ι κ l : Type} (G : Governed ε σ τ ι κ l) : Prop :=
  ∀ c₀ tr c, G.system.Init c₀ → G.system.Run c₀ tr c → G.Custody c₀ tr c

/-- **Custody of the admin's role.** Each of the four contracts has an admin at all times, and a new one
takes over from the admin that has proposed it, and by accepting; whoever signs nothing stays admin. -/
theorem admin_custody :
    KeepsCustody StarToken.governed ∧
      (∀ {ω : Type} (star : RewardEngine.StarTokenClient ω),
        KeepsCustody (RewardEngine.governed star)) ∧
      (∀ {ω : Type} (clients : PaymentEngine.Clients ω),
        KeepsCustody (PaymentEngine.governed clients)) ∧
      KeepsCustody MerchantRegistry.governed :=
  ⟨fun _ _ _ h₀ h => Governed.custody h₀ h, fun _ _ _ _ h₀ h => Governed.custody h₀ h,
    fun _ _ _ _ h₀ h => Governed.custody h₀ h, fun _ _ _ h₀ h => Governed.custody h₀ h⟩

/-- The registry's admin proposes account 2, which accepts. -/
theorem admin_custody_of_new_registrar :
    ∃ c₀ tr c, (MerchantRegistry.governed.charterAt c).admin = some ⟨2⟩ ∧
      MerchantRegistry.governed.Custody c₀ tr c := by
  let env : Env := ⟨7, fun a => decide (a = ⟨1⟩ ∨ a = ⟨2⟩), none, ⟨100⟩⟩
  let c₀ : OnLedger MerchantRegistry.Storage :=
    ⟨7, (MerchantRegistry.constructor ⟨1⟩).commit env {}⟩
  have h₀ : MerchantRegistry.governed.system.Init c₀ := ⟨env, ⟨⟨1⟩, rfl⟩, rfl⟩
  have h : MerchantRegistry.governed.system.Run c₀ [] c₀ := .nil c₀
  have h := contract_run_call h env (MerchantRegistry.Entry.setAdmin ⟨2⟩) le_rfl
  have h := contract_run_call h env MerchantRegistry.Entry.acceptAdmin le_rfl
  exact ⟨c₀, _, _, rfl, admin_custody.2.2.2 c₀ _ _ h₀ h⟩

/-- What it means for a contract that its calls are answered. -/
def AnswersCalls {ε σ τ ι κ l : Type} (S : Signed ε σ τ ι κ l) : Prop :=
  ∀ c, S.system.Reachable c → S.Answers c

/-- **Answers.** In every reachable state of the four contracts a call traps only if the one signature
that it asks for is missing, if the registry does not answer `create_payment`, or if the STAR token does
not mint a reward. -/
theorem contracts_answer :
    AnswersCalls StarToken.signed ∧
      (∀ {ω : Type} (star : RewardEngine.StarTokenClient ω), AnswersCalls (RewardEngine.signed star)) ∧
      (∀ {ω : Type} (clients : PaymentEngine.Clients ω), AnswersCalls (PaymentEngine.signed clients)) ∧
      AnswersCalls MerchantRegistry.signed :=
  ⟨fun _ h => Signed.answers h, fun _ _ h => Signed.answers h, fun _ _ h => Signed.answers h,
    fun _ h => Signed.answers h⟩

/-- Account 7 signs a transfer of more STAR than it holds, and is told so. -/
theorem contracts_answer_of_overdraft :
    let c : OnLedger StarToken.Storage := ⟨6, StarToken.sampleMinted⟩
    StarToken.signed.Answers c ∧
      (StarToken.exec (.transfer ⟨7⟩ ⟨⟨8⟩, none⟩ (.lit 41))).run (StarToken.sampleEnv 6) c.state =
        .error (.err .insufficientBalance) :=
  ⟨contracts_answer.1 _ (contract_reachable_call StarToken.sampleDeployed_reachable
    (StarToken.sampleEnv 6) (.mint ⟨7⟩ (.lit 40)) (by decide)), rfl⟩

end PayEra
