import PayEra.Api.Rewards
import PayEra.Lib.Execution

/-!
# The lifecycle of a referral

`accept`, `qualify` and `reward` are called one after another, by any users, and rewards are reversed in
between. `accept` looks at the invited user and `qualify` at the transaction, but neither looks at the
status that it overwrites. Referrals go forward if and only if no call of `accept` or `qualify` writes a
referral that is not `INVITED`.
-/

namespace PayEra.Api.Rewards

open Async (Program Executes)
open Async.Program

/-! ### Sequences of calls -/

/-- What is asked of the referrals, and the reversal of rewards. -/
def RewardRequest.OfReferrals : RewardRequest → Prop
  | .create _ | .mint _ => False
  | .invite _ _ _ | .accept _ _ | .qualify _ _ _ | .reward _ _ | .reverse _ => True

/-- The rewards of a referral. -/
def Treasury.bonuses (d : Treasury) (referralId : String) : List Reward :=
  d.backend.rewards.filter fun r => d.referralId r.id = some referralId

/-- Nobody has been invited. -/
structure Treasury.Uninvited (d : Treasury) : Prop where
  referrals : d.referrals = []
  bonuses : ∀ id, d.bonuses id = []
  rewards : Unique d.backend.rewards

/-- The rest of the system leaves the referrals and their rewards alone. -/
structure Treasury.Beside (d d' : Treasury) : Prop where
  referrals : d'.referrals = d.referrals
  bonuses : ∀ id, d'.bonuses id = d.bonuses id
  rewards : Unique d.backend.rewards → Unique d'.backend.rewards

/-- A call to the database. -/
abbrev Called := Async.Attempt Treasury RewardOp RewardOp.Res String

/-- Calls of the referral service, one after another, each with any failures. -/
abbrev referring : Transition.System Treasury (RewardRequest × List Called) :=
  Async.oneByOne TreasuryReturns TreasuryTotal Treasury.Beside Treasury.Uninvited
    RewardRequest.OfReferrals RewardRequest.program

abbrev Referring := Transition.Move Treasury (RewardRequest × List Called)

/-! ### What may become of referrals -/

/-- What may become of a referral. -/
structure Onward (r r' : Referral) : Prop where
  status : r'.status = r.status ∨ (r.status = .INVITED ∧ r'.status = .QUALIFIED) ∨
    (r.status = .QUALIFIED ∧ r'.status = .REWARDED)
  invitedUserId : ∀ id, r.invitedUserId = some id → r'.invitedUserId = some id
  firstTransactionId : ∀ id, r.firstTransactionId = some id → r'.firstTransactionId = some id
  qualifiedAt : ∀ date, r.qualifiedAt = some date → r'.qualifiedAt = some date
  rewardedAt : ∀ date, r.rewardedAt = some date → r'.rewardedAt = some date

/-- Referrals go forward, their dates are not set again, they have at most one reward, and this stays
reversed. -/
structure Forward (m : Referring) : Prop where
  referral : ∀ id r, m.pre.referral id = some r → ∃ r', m.post.referral id = some r' ∧ Onward r r'
  qualifiedOnce : ∀ a ∈ m.label.2, a.took = true → ∀ id data, a.op = .updateReferral id data →
    data.qualifiedAt.isSome → ∀ r, a.found.referral id = some r → r.qualifiedAt = none
  rewardedOnce : ∀ a ∈ m.label.2, a.took = true → ∀ referral mintedAt rewardedAt,
    a.op = .rewardReferral referral mintedAt rewardedAt →
      ∀ r, a.found.referral referral.id = some r → r.rewardedAt = none
  single : ∀ id, (m.post.bonuses id).length ≤ 1
  reversed : ∀ id, ∀ r ∈ m.pre.bonuses id, r.status = .REVERSED →
    ∃ r' ∈ m.post.bonuses id, r'.id = r.id ∧ r'.status = .REVERSED

/-- `accept` and `qualify` write referrals that are `INVITED`. -/
def Timely (m : Referring) : Prop :=
  ∀ a ∈ m.label.2, a.took = true → ∀ id data, a.op = .updateReferral id data →
    ∀ r, a.found.referral id = some r → r.status = .INVITED

/-! ### What a request does -/

/-- Calls that write nothing. -/
def RewardOp.reads : RewardOp → Bool
  | .service ⟨_, .now⟩ | .findReferral _ | .findReferralByCode _ | .findTransaction _ => true
  | _ => false

/-- What the services may write. -/
def Proper (d : Treasury) : RewardOp → Prop
  | .createReferral _ _ _ _ | .reverse _ _ => True
  | .updateReferral id data => ∃ r, d.referral id = some r ∧
      ((∃ userId, (r.invitedUserId = none ∨ r.invitedUserId = some userId) ∧
          data = { invitedUserId := some userId, status := .INVITED }) ∨
        ∃ firstTransactionId date, data =
          { firstTransactionId := some firstTransactionId, qualifiedAt := some date
            status := .QUALIFIED })
  | .rewardReferral referral _ _ =>
    d.referral referral.id = some referral ∧ referral.status = .QUALIFIED
  | _ => False

/-- A request only reads, or its last call is a proper one. -/
inductive Performs (d d' : Treasury) (tr : List Called) : Prop
  | reads (hquiet : Treasury.Beside d d') (htr : ∀ a ∈ tr, a.op.reads = true)
  | writes (before : List Called) (a : Called) (htr : tr = before ++ [a])
      (hbefore : ∀ b ∈ before, b.op.reads = true) (hquiet : Treasury.Beside d a.found)
      (hproper : Proper a.found a.op) (hgoes : a.Goes TreasuryReturns TreasuryTotal)
      (hother : Treasury.Beside a.left d')

section Performs

variable {d d' d₁ : Treasury} {op : RewardOp} {tr : List Called}

lemma Treasury.Beside.refl (d : Treasury) : Treasury.Beside d d := ⟨rfl, fun _ => rfl, id⟩

lemma Treasury.Beside.trans {d d₁ d₂ : Treasury} (h : Treasury.Beside d d₁) (h' : Treasury.Beside d₁ d₂) :
    Treasury.Beside d d₂ where
  referrals := h'.referrals.trans h.referrals
  bonuses id := (h'.bonuses id).trans (h.bonuses id)
  rewards := h'.rewards ∘ h.rewards

lemma Treasury.Beside.referral (h : Treasury.Beside d d') (id : String) :
    d'.referral id = d.referral id := by
  rw [Treasury.referral, h.referrals]
  rfl

/-- The same tables. -/
lemma beside_of_eq (hreferrals : d'.referrals = d.referrals)
    (hrewards : d'.backend.rewards = d.backend.rewards) (hid : d'.referralId = d.referralId) :
    Treasury.Beside d d' where
  referrals := hreferrals
  bonuses id := by rw [Treasury.bonuses, hrewards, hid, Treasury.bonuses]
  rewards h := by rwa [hrewards]

lemma beside_of_reads {v : op.Res} (hop : op.reads = true) (h : TreasuryReturns op d v d') :
    Treasury.Beside d d' := by
  obtain ⟨o, h⟩ := h
  cases op with
  | service c =>
    obtain ⟨source, op⟩ := c
    cases op with
    | now =>
      rw [Treasury.answer] at h
      obtain ⟨⟨v', b⟩, hanswer, h⟩ := Option.bind_eq_some_iff.mp h
      dsimp only at h
      split_ifs at h
      cases h
      cases hanswer
      exact beside_of_eq rfl rfl rfl
    | _ => cases hop
  | findReferral | findReferralByCode | findTransaction =>
    cases h
    exact .refl d
  | _ => cases hop

lemma beside_of_goes {a : Called} (hop : a.op.reads = true) (h : a.Goes TreasuryReturns TreasuryTotal) :
    Treasury.Beside a.found a.left := by
  rcases h.left with heq | ⟨-, v, hreturns⟩
  · rw [heq]
    exact .refl _
  · exact beside_of_reads hop hreturns

/-- The last call. -/
lemma performs_ask {r : Except String op.Res}
    (h : Executes TreasuryReturns TreasuryTotal Treasury.Beside (ask op) d tr r d')
    (hop : Proper d op) : Performs d d' tr := by
  obtain ⟨took, d₁, rfl, hgoes, hother⟩ := h.of_perform
  exact .writes [] _ rfl (by simp) (.refl d) hop hgoes hother

/-- Reading. -/
abbrev Reading {α : Type} (p : RewardProgram α) : Prop := p.All fun op => op.reads = true

lemma beside_of_reading {α : Type} {p : RewardProgram α} {r : Except String α} (hp : Reading p)
    (h : Executes TreasuryReturns TreasuryTotal Treasury.Beside p d tr r d') : Treasury.Beside d d' := by
  refine h.keeps (J := Treasury.Beside d) (fun a ha hgoes hquiet => ?_)
    (fun _ _ hother hquiet => hquiet.trans hother) (.refl d)
  exact hquiet.trans (beside_of_goes (h.all hp a ha) hgoes)

/-- Something is read first. -/
lemma performs_bind {α β : Type} {p : RewardProgram α} {f : α → RewardProgram β} {r : Except String β}
    (h : Executes TreasuryReturns TreasuryTotal Treasury.Beside (p >>= f) d tr r d') (hp : Reading p)
    (hf : ∀ v d₁ tr₁ tr₂, Executes TreasuryReturns TreasuryTotal Treasury.Beside p d tr₁ (.ok v) d₁ →
      Executes TreasuryReturns TreasuryTotal Treasury.Beside (f v) d₁ tr₂ r d' → Performs d₁ d' tr₂) :
    Performs d d' tr := by
  rcases h.of_bind with ⟨v, d₁, tr₁, tr₂, rfl, hfirst, hrest⟩ | ⟨e, -, hfirst⟩
  · have hquiet := beside_of_reading hp hfirst
    have hreads := hfirst.all hp
    cases hf v d₁ tr₁ tr₂ hfirst hrest with
    | reads hquiet' htr => exact .reads (hquiet.trans hquiet') (List.forall_mem_append.mpr ⟨hreads, htr⟩)
    | writes before a htr hbefore hquiet' hproper hgoes hother =>
      refine .writes (tr₁ ++ before) a ?_ (List.forall_mem_append.mpr ⟨hreads, hbefore⟩)
        (hquiet.trans hquiet') hproper hgoes hother
      rw [htr, List.append_assoc]
  · exact .reads (beside_of_reading hp hfirst) (hfirst.all hp)

lemma performs_throw {α : Type} {e : String} {r : Except String α}
    (h : Executes TreasuryReturns TreasuryTotal Treasury.Beside (throw e : RewardProgram α) d tr r d') :
    Performs d d' tr := by
  obtain ⟨rfl, -, rfl⟩ := h.of_done
  exact .reads (.refl _) (by simp)

lemma reading_date : Reading date := all_perform (by rfl)

/-- What is read is there, when it is answered and after that. -/
lemma returns_of_ask {v : op.Res}
    (h : Executes TreasuryReturns TreasuryTotal Treasury.Beside (ask op) d tr (.ok v) d') :
    ∃ d₁, TreasuryReturns op d v d₁ ∧ Treasury.Beside d₁ d' := by
  obtain ⟨took, d₁, rfl, hgoes, hother⟩ := h.of_perform
  exact ⟨d₁, hgoes.2, hother⟩

lemma referral_of_find {id : String} {v : Option Referral}
    (h : Executes TreasuryReturns TreasuryTotal Treasury.Beside (ask (.findReferral id)) d tr (.ok v) d') :
    d'.referral id = v := by
  obtain ⟨d₁, ⟨o, hanswer⟩, hother⟩ := returns_of_ask h
  cases hanswer
  exact hother.referral id

lemma id_of_referral {id : String} {r : Referral} (h : d.referral id = some r) : r.id = id := by
  simpa using List.find?_some h

lemma mem_of_referral {id : String} {r : Referral} (h : d.referral id = some r) : r ∈ d.referrals :=
  List.mem_of_find?_eq_some h

lemma referral_of_mem (hd : UniqueReferrals d.referrals) {r : Referral} (hr : r ∈ d.referrals) :
    d.referral r.id = some r := by
  obtain ⟨r', hr'⟩ : ∃ r', d.referral r.id = some r' :=
    Option.isSome_iff_exists.mp (List.find?_isSome.mpr ⟨r, hr, decide_eq_true rfl⟩)
  rw [hr', List.inj_on_of_nodup_map hd.id (mem_of_referral hr') hr (id_of_referral hr')]

lemma referral_of_findByCode {code : String} {r : Referral} (hd : UniqueReferrals d.referrals)
    (h : Executes TreasuryReturns TreasuryTotal Treasury.Beside (ask (.findReferralByCode code)) d tr
      (.ok (some r)) d') : d'.referral r.id = some r := by
  obtain ⟨d₁, ⟨o, hanswer⟩, hother⟩ := returns_of_ask h
  rw [Treasury.answer] at hanswer
  obtain ⟨hfound, rfl⟩ := Prod.mk.inj (Option.some.inj hanswer)
  rw [hother.referral]
  exact referral_of_mem hd (List.mem_of_find?_eq_some hfound)

lemma reading_findVisible {owner : Principal} {id : String} :
    Reading (ReferralsService.findVisible owner id) := by
  refine all_bind (all_perform rfl) fun referral => ?_
  cases referral with
  | none => exact all_throw _
  | some referral =>
    dsimp only
    split_ifs
    · exact all_pure _
    · exact all_throw _

/-- What is visible is there. -/
lemma referral_of_visible {owner : Principal} {id : String} {r : Referral}
    (h : Executes TreasuryReturns TreasuryTotal Treasury.Beside (ReferralsService.findVisible owner id) d
      tr (.ok r) d') : d'.referral id = some r := by
  rcases h.of_bind with ⟨found, d₁, tr₁, tr₂, -, hfind, hrest⟩ | ⟨e, heq, -⟩
  · have hfound := referral_of_find hfind
    cases found with
    | none =>
      obtain ⟨-, heq, -⟩ := hrest.of_done
      cases heq
    | some referral =>
      dsimp only at hrest
      split_ifs at hrest
      · obtain ⟨-, heq, rfl⟩ := hrest.of_done
        cases heq
        exact hfound
      · obtain ⟨-, heq, -⟩ := hrest.of_done
        cases heq
  · cases heq

/-- A request does what its service does. -/
lemma of_discarded {α : Type} {p : RewardProgram α} {r : Except String Unit}
    (h : Executes TreasuryReturns TreasuryTotal Treasury.Beside (p >>= fun _ => pure ()) d tr r d') :
    ∃ r', Executes TreasuryReturns TreasuryTotal Treasury.Beside p d tr r' d' := by
  rcases h.of_bind with ⟨a, d₁, tr₁, tr₂, rfl, hp, hrest⟩ | ⟨e, -, hp⟩
  · obtain ⟨rfl, -, rfl⟩ := hrest.of_done
    rw [List.append_nil]
    exact ⟨_, hp⟩
  · exact ⟨_, hp⟩

theorem performs_request {q : RewardRequest} {r : Except String Unit} (hq : q.OfReferrals)
    (hd : UniqueReferrals d.referrals)
    (h : Executes TreasuryReturns TreasuryTotal Treasury.Beside q.program d tr r d') :
    Performs d d' tr := by
  cases q with
  | create | mint => exact hq.elim
  | reverse id =>
    obtain ⟨r, h⟩ := of_discarded h
    refine performs_bind h reading_date fun reversedAt d₁ tr₁ tr₂ _ hrest => ?_
    exact performs_ask hrest trivial
  | invite owner code expiresAt =>
    obtain ⟨r, h⟩ := of_discarded h
    exact performs_ask h trivial
  | accept owner code =>
    obtain ⟨r, h⟩ := of_discarded h
    refine performs_bind h (all_perform rfl) fun found d₁ tr₁ tr₂ hfind hrest => ?_
    cases found with
    | none => exact performs_throw hrest
    | some referral =>
      have hfound := referral_of_findByCode hd hfind
      dsimp only at hrest
      split_ifs at hrest with hown haccepted
      · exact performs_throw hrest
      · exact performs_throw hrest
      refine performs_bind hrest reading_date fun now d₂ tr₃ tr₄ hnow hrest => ?_
      split_ifs at hrest
      · exact performs_throw hrest
      refine performs_ask hrest ⟨referral, ?_, .inl ⟨owner.id, ?_, rfl⟩⟩
      · rw [(beside_of_reading reading_date hnow).referral, hfound]
      · rw [not_and_or, not_not, not_not] at haccepted
        exact haccepted
  | qualify owner id firstTransactionId =>
    obtain ⟨r, h⟩ := of_discarded h
    refine performs_bind h reading_findVisible fun referral d₁ tr₁ tr₂ hvisible hrest => ?_
    have hfound := referral_of_visible hvisible
    split at hrest
    · exact performs_throw hrest
    refine performs_bind hrest (all_perform rfl) fun transaction d₂ tr₃ tr₄ htransaction hrest => ?_
    split_ifs at hrest
    · refine performs_bind hrest reading_date fun date d₃ tr₅ tr₆ hdate hrest => ?_
      refine performs_ask hrest ⟨referral, ?_, .inr ⟨firstTransactionId, date, rfl⟩⟩
      rw [(beside_of_reading reading_date hdate).referral,
        (beside_of_reading (all_perform rfl) htransaction).referral, hfound]
    · exact performs_throw hrest
  | reward owner id =>
    obtain ⟨r, h⟩ := of_discarded h
    refine performs_bind h reading_findVisible fun referral d₁ tr₁ tr₂ hvisible hrest => ?_
    have hfound := referral_of_visible hvisible
    split_ifs at hrest with hstatus
    · exact performs_throw hrest
    refine performs_bind hrest reading_date fun mintedAt d₂ tr₃ tr₄ hminted hrest => ?_
    refine performs_bind hrest reading_date fun rewardedAt d₃ tr₅ tr₆ hrewarded hrest => ?_
    refine performs_ask hrest ⟨?_, not_not.mp hstatus⟩
    rw [(beside_of_reading reading_date hrewarded).referral,
      (beside_of_reading reading_date hminted).referral, id_of_referral hfound, hfound]

end Performs

/-! ### What the writes do -/

section Writes

variable {d d' : Treasury} {o : Oracle} {id i : String}

/-- One row is updated. -/
lemma referral_updateReferral {data : ReferralData} {v : Referral}
    (h : d.updateReferral i data = some (v, d')) (id : String) :
    d'.referral id = (d.referral id).map fun r => if i = id then r.update data else r := by
  have hkey (r : Referral) : (r.update data).id = r.id := rfl
  obtain ⟨r', -, h⟩ := Option.bind_eq_some_iff.mp h
  dsimp only at h
  split_ifs at h
  cases h
  exact find?_updateWhere_key hkey id i

lemma updateReferral_unique {data : ReferralData} {v : Referral}
    (h : d.updateReferral i data = some (v, d')) :
    UniqueReferrals d'.referrals ∧ d'.referralId = d.referralId := by
  obtain ⟨r', -, h⟩ := Option.bind_eq_some_iff.mp h
  dsimp only at h
  split_ifs at h with hunique
  cases h
  exact ⟨hunique, rfl⟩

lemma bonuses_congr (hrewards : d'.backend.rewards = d.backend.rewards)
    (hid : d'.referralId = d.referralId) (id : String) : d'.bonuses id = d.bonuses id := by
  rw [Treasury.bonuses, hrewards, hid, Treasury.bonuses]

lemma bonuses_update {data : RewardData}
    (h : d'.backend.rewards = updateWhere (·.id = i) (·.update data) d.backend.rewards)
    (hid : d'.referralId = d.referralId) (id : String) :
    d'.bonuses id = updateWhere (·.id = i) (·.update data) (d.bonuses id) := by
  have hkey (r : Reward) : (if r.id = i then r.update data else r).id = r.id := by
    split_ifs
    · rfl
    · rfl
  rw [Treasury.bonuses, h, hid, updateWhere, List.filter_map, updateWhere, Treasury.bonuses]
  congr 1
  refine List.filter_congr fun r _ => ?_
  simp only [Function.comp_apply, decide_eq_true_eq]
  rw [hkey]

lemma bonuses_insert {data : NewReward} {v : Reward} (h : d.insert o data = some (v, d')) (id : String) :
    d'.bonuses id = d.bonuses id ++ if data.referralId = some id then [v] else [] := by
  rw [Treasury.insert] at h
  dsimp only at h
  split_ifs at h with hallowed
  cases h
  have hnew : ∀ r ∈ d.backend.rewards, r.id ≠ o.uuid := by
    intro r hr heq
    have hnodup := hallowed.1.id
    rw [List.map_append, List.nodup_append] at hnodup
    exact hnodup.2.2 r.id (List.mem_map_of_mem hr) o.uuid (by simp [NewReward.row]) heq
  rw [Treasury.bonuses, List.filter_append]
  congr 1
  · refine List.filter_congr fun r hr => ?_
    simp only [Function.update_of_ne (hnew r hr)]
  · simp [List.filter_singleton, NewReward.row]

end Writes

/-! ### The invariant -/

/-- What holds as long as all writes are timely. -/
structure Ordered (d : Treasury) : Prop where
  unique : UniqueReferrals d.referrals
  rewards : Unique d.backend.rewards
  going : ∀ id r, d.referral id = some r →
    r.status = .INVITED ∨ r.status = .QUALIFIED ∨ r.status = .REWARDED
  invited : ∀ id r, d.referral id = some r → r.status = .INVITED →
    r.firstTransactionId = none ∧ r.qualifiedAt = none ∧ r.rewardedAt = none
  qualified : ∀ id r, d.referral id = some r → r.status = .QUALIFIED →
    r.qualifiedAt.isSome ∧ r.rewardedAt = none
  single : ∀ id, (d.bonuses id).length ≤ 1
  bonus : ∀ id r, d.referral id = some r → r.status ≠ .REWARDED → d.bonuses id = []
  orphan : ∀ id, d.referral id = none → d.bonuses id = []

section Step

variable {d d' : Treasury} {id : String} {r r' : Referral}

lemma Onward.refl (r : Referral) : Onward r r :=
  ⟨.inl rfl, fun _ => id, fun _ => id, fun _ => id, fun _ => id⟩

lemma ordered_uninvited (h : d.Uninvited) : Ordered d where
  unique := by
    rw [h.referrals]
    decide
  rewards := h.rewards
  going id r hr := by
    rw [Treasury.referral, h.referrals] at hr
    cases hr
  invited id r hr := by
    rw [Treasury.referral, h.referrals] at hr
    cases hr
  qualified id r hr := by
    rw [Treasury.referral, h.referrals] at hr
    cases hr
  single id := by simp [h.bonuses]
  bonus id r hr := by
    rw [Treasury.referral, h.referrals] at hr
    cases hr
  orphan id _ := h.bonuses id

lemma Ordered.beside (h : Ordered d) (hother : Treasury.Beside d d') : Ordered d' where
  unique := by
    rw [hother.referrals]
    exact h.unique
  rewards := hother.rewards h.rewards
  going id r hr := h.going id r (by rwa [← hother.referral])
  invited id r hr := h.invited id r (by rwa [← hother.referral])
  qualified id r hr := h.qualified id r (by rwa [← hother.referral])
  single id := by
    rw [hother.bonuses]
    exact h.single id
  bonus id r hr hstatus := by
    rw [hother.bonuses]
    exact h.bonus id r (by rwa [← hother.referral]) hstatus
  orphan id hr := by
    rw [hother.bonuses]
    exact h.orphan id (by rwa [← hother.referral])

/-- What a write does, as far as the property and the invariant are concerned. -/
structure Advances (d d' : Treasury) : Prop where
  referral : ∀ id r, d.referral id = some r → ∃ r', d'.referral id = some r' ∧ Onward r r'
  reversed : ∀ id, ∀ r ∈ d.bonuses id, r.status = .REVERSED →
    ∃ r' ∈ d'.bonuses id, r'.id = r.id ∧ r'.status = .REVERSED
  ordered : Ordered d'

lemma Advances.of_beside {d₁ d₂ : Treasury} (h : Advances d₁ d₂) (hbefore : Treasury.Beside d d₁)
    (hafter : Treasury.Beside d₂ d') : Advances d d' where
  referral id r hr := by
    rw [hafter.referral]
    exact h.referral id r (by rwa [hbefore.referral])
  reversed id r hr := by
    rw [hafter.bonuses]
    exact h.reversed id r (by rwa [hbefore.bonuses])
  ordered := h.ordered.beside hafter

lemma Ordered.advances (h : Ordered d) : Advances d d where
  referral _ r hr := ⟨r, hr, .refl r⟩
  reversed _ r hr hreversed := ⟨r, hr, rfl, hreversed⟩
  ordered := h

/-- A referral is created. -/
lemma advances_insert (h : Ordered d) {v : Referral} (hv : v.status = .INVITED)
    (hfirst : v.firstTransactionId = none) (hqualified : v.qualifiedAt = none)
    (hrewarded : v.rewardedAt = none) (hinsert : d.insertReferral v = some (v, d')) :
    Advances d d' := by
  rw [Treasury.insertReferral] at hinsert
  split_ifs at hinsert with hunique
  cases hinsert
  have hfind (id : String) : Treasury.referral { d with referrals := d.referrals ++ [v] } id =
      (d.referral id).or (if v.id = id then some v else none) := by
    rw [Treasury.referral, List.find?_append, Treasury.referral]
    congr 1
    simp only [List.find?_singleton, decide_eq_true_eq]
  have hnew {id : String} {r : Referral}
      (hr : Treasury.referral { d with referrals := d.referrals ++ [v] } id = some r) :
      d.referral id = some r ∨ d.referral id = none ∧ r = v := by
    rw [hfind] at hr
    cases hold : d.referral id with
    | some r' =>
      rw [hold, Option.some_or] at hr
      exact .inl hr
    | none =>
      rw [hold, Option.none_or] at hr
      split_ifs at hr
      exact .inr ⟨rfl, (Option.some.inj hr).symm⟩
  have hbonuses (id : String) : Treasury.bonuses { d with referrals := d.referrals ++ [v] } id =
      d.bonuses id := rfl
  refine ⟨fun id r hr => ⟨r, ?_, .refl r⟩, fun id r hr hreversed => ⟨r, hr, rfl, hreversed⟩, ?_⟩
  · rw [hfind, hr]
    rfl
  refine ⟨hunique, h.rewards, fun id r hr => ?_, fun id r hr hstatus => ?_, fun id r hr hstatus => ?_,
    h.single, fun id r hr hstatus => ?_, fun id hr => ?_⟩
  · rcases hnew hr with hold | ⟨-, rfl⟩
    · exact h.going id r hold
    · exact .inl hv
  · rcases hnew hr with hold | ⟨-, rfl⟩
    · exact h.invited id r hold hstatus
    · exact ⟨hfirst, hqualified, hrewarded⟩
  · rcases hnew hr with hold | ⟨-, rfl⟩
    · exact h.qualified id r hold hstatus
    · rw [hv] at hstatus
      cases hstatus
  · rw [hbonuses]
    rcases hnew hr with hold | ⟨hnone, -⟩
    · exact h.bonus id r hold hstatus
    · exact h.orphan id hnone
  · rw [hbonuses]
    refine h.orphan id ?_
    rw [hfind] at hr
    exact (Option.or_eq_none_iff.mp hr).1

/-- A referral may go on like this. -/
structure Proceeds (r r' : Referral) : Prop where
  onward : Onward r r'
  going : r'.status = .INVITED ∨ r'.status = .QUALIFIED ∨ r'.status = .REWARDED
  invited : r'.status = .INVITED →
    r'.firstTransactionId = none ∧ r'.qualifiedAt = none ∧ r'.rewardedAt = none
  qualified : r'.status = .QUALIFIED → r'.qualifiedAt.isSome ∧ r'.rewardedAt = none

lemma Proceeds.not_rewarded (h : Proceeds r r') (hr' : r'.status ≠ .REWARDED) : r.status ≠ .REWARDED := by
  rcases h.onward.status with hsame | ⟨hinvited, -⟩ | ⟨-, hrewarded⟩
  · rwa [← hsame]
  · rw [hinvited]
    decide
  · exact absurd hrewarded hr'

/-- A referral is updated, after its reward was created if it is rewarded now. -/
lemma advances_update (h : Ordered d) {d₁ : Treasury} {i : String} {data : ReferralData}
    {r v : Referral} (hr : d.referral i = some r) (hproceeds : Proceeds r (r.update data))
    (hreferrals : d₁.referrals = d.referrals) (hrewards : Unique d₁.backend.rewards)
    (hbonuses : ∀ id, id ≠ i → d₁.bonuses id = d.bonuses id)
    (hown : d₁.bonuses i = d.bonuses i ∨
      (d₁.bonuses i).length ≤ 1 ∧ d.bonuses i = [] ∧ (r.update data).status = .REWARDED)
    (hupdate : d₁.updateReferral i data = some (v, d')) : Advances d d' := by
  obtain ⟨hunique, hid⟩ := updateReferral_unique hupdate
  have hbackend : d'.backend = d₁.backend := updateReferral_spec hupdate
  have hkept (id : String) : d'.bonuses id = d₁.bonuses id := bonuses_congr (by rw [hbackend]) hid id
  have hfind (id : String) : d'.referral id = (d.referral id).map fun r =>
      if i = id then r.update data else r := by
    rw [referral_updateReferral hupdate, Treasury.referral, hreferrals, Treasury.referral]
  -- a row is an old one, or the one that was updated
  have hrow {id : String} {r' : Referral} (hr' : d'.referral id = some r') :
      id = i ∧ r' = r.update data ∨ id ≠ i ∧ d.referral id = some r' := by
    rw [hfind] at hr'
    obtain ⟨r₀, hr₀, rfl⟩ := Option.map_eq_some_iff.mp hr'
    by_cases heq : i = id
    · subst heq
      obtain rfl := Option.some.inj (hr.symm.trans hr₀)
      exact .inl ⟨rfl, if_pos rfl⟩
    · rw [if_neg heq]
      exact .inr ⟨Ne.symm heq, hr₀⟩
  refine ⟨fun id r₀ hr₀ => ⟨_, by rw [hfind, hr₀]; rfl, ?_⟩, fun id b hb hreversed => ?_, ?_⟩
  -- the referrals go on, and a reversed bonus is still there, since one is added only where none was
  · split_ifs with heq
    · subst heq
      obtain rfl := Option.some.inj (hr.symm.trans hr₀)
      exact hproceeds.onward
    · exact .refl r₀
  · refine ⟨b, ?_, rfl, hreversed⟩
    rw [hkept]
    by_cases hi : id = i
    · subst hi
      rcases hown with hsame | ⟨-, hnone, -⟩
      · rwa [hsame]
      · rw [hnone] at hb
        cases hb
    · rwa [hbonuses id hi]
  -- what holds of the row that was updated comes from its step, all else from before
  refine ⟨hunique, by rwa [hbackend], fun id r' hr' => ?_, fun id r' hr' => ?_, fun id r' hr' => ?_,
    fun id => ?_, fun id r' hr' hstatus => ?_, fun id hnone => ?_⟩
  · rcases hrow hr' with ⟨-, rfl⟩ | ⟨-, hold⟩
    · exact hproceeds.going
    · exact h.going id r' hold
  · rcases hrow hr' with ⟨-, rfl⟩ | ⟨-, hold⟩
    · exact hproceeds.invited
    · exact h.invited id r' hold
  · rcases hrow hr' with ⟨-, rfl⟩ | ⟨-, hold⟩
    · exact hproceeds.qualified
    · exact h.qualified id r' hold
  · rw [hkept]
    by_cases hi : id = i
    · subst hi
      rcases hown with hsame | ⟨hlength, -, -⟩
      · rw [hsame]
        exact h.single id
      · exact hlength
    · rw [hbonuses id hi]
      exact h.single id
  -- only a rewarded referral has a bonus
  · rw [hkept]
    rcases hrow hr' with ⟨rfl, rfl⟩ | ⟨hi, hold⟩
    · rcases hown with hsame | ⟨-, -, hrewarded⟩
      · rw [hsame]
        exact h.bonus id r hr (hproceeds.not_rewarded hstatus)
      · exact absurd hrewarded hstatus
    · rw [hbonuses id hi]
      exact h.bonus id r' hold hstatus
  · rw [hfind, Option.map_eq_none_iff] at hnone
    have hi : id ≠ i := by
      rintro rfl
      rw [hr] at hnone
      cases hnone
    rw [hkept, hbonuses id hi]
    exact h.orphan id hnone

/-- An invitation is accepted, again perhaps, by the same user. -/
lemma proceeds_accept {userId : String} (h : Ordered d) (hr : d.referral id = some r)
    (hstatus : r.status = .INVITED) (huser : r.invitedUserId = none ∨ r.invitedUserId = some userId) :
    Proceeds r (r.update { invitedUserId := some userId, status := .INVITED }) where
  onward :=
    { status := .inl hstatus.symm
      invitedUserId := fun id hid => by
        rcases huser with hnone | hsome
        · rw [hnone] at hid
          cases hid
        · rw [hsome] at hid
          exact hid
      firstTransactionId := fun _ h => h
      qualifiedAt := fun _ h => h
      rewardedAt := fun _ h => h }
  going := .inl rfl
  invited _ := h.invited id r hr hstatus
  qualified hqualified := by cases hqualified

/-- The referral qualifies for the first time. -/
lemma proceeds_qualify {firstTransactionId : String} {date : ℕ} (h : Ordered d)
    (hr : d.referral id = some r) (hstatus : r.status = .INVITED) :
    Proceeds r (r.update { firstTransactionId := some firstTransactionId, qualifiedAt := some date
                           status := .QUALIFIED }) where
  onward :=
    { status := .inr (.inl ⟨hstatus, rfl⟩)
      invitedUserId := fun _ h => h
      firstTransactionId := fun id hid => by
        rw [(h.invited _ r hr hstatus).1] at hid
        cases hid
      qualifiedAt := fun t ht => by
        rw [(h.invited _ r hr hstatus).2.1] at ht
        cases ht
      rewardedAt := fun _ h => h }
  going := .inr (.inl rfl)
  invited hinvited := by cases hinvited
  qualified _ := ⟨rfl, (h.invited id r hr hstatus).2.2⟩

lemma proceeds_reward {date : ℕ} (h : Ordered d) (hr : d.referral id = some r)
    (hstatus : r.status = .QUALIFIED) :
    Proceeds r (r.update { status := .REWARDED, rewardedAt := some date }) where
  onward :=
    { status := .inr (.inr ⟨hstatus, rfl⟩)
      invitedUserId := fun _ h => h
      firstTransactionId := fun _ h => h
      qualifiedAt := fun _ h => h
      rewardedAt := fun t ht => by
        rw [(h.qualified id r hr hstatus).2] at ht
        cases ht }
  going := .inr (.inr rfl)
  invited hinvited := by cases hinvited
  qualified hqualified := by cases hqualified

/-- An update of a reward leaves the referrals, and whose reward it is. -/
lemma update_frame {i : String} {data : RewardData} {v : Reward} (h : d.update i data = some (v, d')) :
    d'.referrals = d.referrals ∧ d'.referralId = d.referralId := by
  obtain ⟨r, -, h⟩ := Option.bind_eq_some_iff.mp h
  dsimp only at h
  split_ifs at h
  cases h
  exact ⟨rfl, rfl⟩

lemma insert_frame {o : Oracle} {data : NewReward} {v : Reward} (h : d.insert o data = some (v, d')) :
    d'.referrals = d.referrals := by
  rw [Treasury.insert] at h
  dsimp only at h
  split_ifs at h
  cases h
  rfl

/-- A reward is reversed. -/
lemma advances_reverse (h : Ordered d) {i : String} {v : Reward} {reversedAt : String → Option ℕ}
    {d₁ : Treasury} (hupdate : d.update i { status := some .REVERSED } = some (v, d₁)) :
    Advances d { d₁ with reversedAt } := by
  obtain ⟨hreferrals, hid⟩ := update_frame hupdate
  obtain ⟨-, hunique, hrows⟩ := update_spec hupdate
  have hreferral (id : String) : Treasury.referral { d₁ with reversedAt } id = d.referral id := by
    rw [Treasury.referral, hreferrals, Treasury.referral]
  have hbonuses (id : String) : Treasury.bonuses { d₁ with reversedAt } id =
      updateWhere (·.id = i) (·.update { status := some .REVERSED }) (d.bonuses id) :=
    bonuses_update hrows hid id
  refine ⟨fun id r hr => ⟨r, by rw [hreferral, hr], .refl r⟩, fun id r hr hreversed => ?_, ?_⟩
  · refine ⟨if r.id = i then r.update { status := some .REVERSED } else r, ?_, ?_, ?_⟩
    · rw [hbonuses, updateWhere, List.mem_map]
      exact ⟨r, hr, by simp⟩
    · split_ifs
      · rfl
      · rfl
    · split_ifs
      · rfl
      · exact hreversed
  refine ⟨by rw [hreferrals]; exact h.unique, hunique, fun id r hr => h.going id r (by rwa [← hreferral]),
    fun id r hr => h.invited id r (by rwa [← hreferral]),
    fun id r hr => h.qualified id r (by rwa [← hreferral]), fun id => ?_, fun id r hr hstatus => ?_,
    fun id hr => ?_⟩
  · rw [hbonuses, updateWhere, List.length_map]
    exact h.single id
  · rw [hbonuses, h.bonus id r (by rwa [← hreferral]) hstatus]
    rfl
  · rw [hbonuses, h.orphan id (by rwa [← hreferral])]
    rfl

lemma rewardOf_of_bonuses (h : d.bonuses id = []) : d.rewardOf id = none := by
  rw [Treasury.rewardOf, List.find?_eq_none]
  rw [Treasury.bonuses, List.filter_eq_nil_iff] at h
  exact h

/-- What a proper call does that is timely. -/
theorem advances_of_returns (h : Ordered d) {op : RewardOp} {v : op.Res} (hproper : Proper d op)
    (htimely : ∀ id data, op = .updateReferral id data → ∀ r, d.referral id = some r →
      r.status = .INVITED)
    (hreturns : TreasuryReturns op d v d') : Advances d d' := by
  obtain ⟨o, hanswer⟩ := hreturns
  cases op with
  | createReferral code inviterUserId rewardAmountStar expiresAt =>
    have hv : v = { id := o.uuid, code, inviterUserId, rewardAmountStar, expiresAt } := by
      rw [Treasury.answer, Treasury.insertReferral] at hanswer
      split_ifs at hanswer
      exact (Prod.mk.inj (Option.some.inj hanswer)).1.symm
    subst hv
    exact advances_insert h rfl rfl rfl rfl hanswer
  | updateReferral id data =>
    obtain ⟨r, hr, hdata⟩ := hproper
    have hstatus := htimely id data rfl r hr
    have hproceeds : Proceeds r (r.update data) := by
      rcases hdata with ⟨userId, huser, rfl⟩ | ⟨firstTransactionId, date, rfl⟩
      · exact proceeds_accept h hr hstatus huser
      · exact proceeds_qualify h hr hstatus
    exact advances_update h hr hproceeds rfl h.rewards (fun _ _ => rfl) (.inl rfl) hanswer
  | reverse id reversedAt =>
    obtain ⟨⟨r, d₁⟩, hupdate, heq⟩ := Option.map_eq_some_iff.mp hanswer
    obtain ⟨-, rfl⟩ := Prod.mk.inj heq
    exact advances_reverse h hupdate
  | rewardReferral referral mintedAt rewardedAt =>
    obtain ⟨hr, hstatus⟩ := hproper
    have hnone : d.bonuses referral.id = [] := h.bonus _ _ hr (by rw [hstatus]; decide)
    obtain ⟨⟨r, d₁⟩, hupsert, hrest⟩ := Option.bind_eq_some_iff.mp hanswer
    obtain ⟨⟨v', d₂⟩, hupdate, heq⟩ := Option.map_eq_some_iff.mp hrest
    obtain ⟨-, rfl⟩ := Prod.mk.inj heq
    rw [Treasury.upsert, rewardOf_of_bonuses hnone] at hupsert
    have hbonuses := bonuses_insert hupsert
    refine advances_update h hr (proceeds_reward h hr hstatus) (insert_frame hupsert)
      (insert_spec hupsert).1 (fun id hid => ?_) (.inr ⟨?_, hnone, rfl⟩) hupdate
    · rw [hbonuses, if_neg (fun heq => hid (Option.some.inj heq).symm), List.append_nil]
    · rw [hbonuses, hnone, if_pos rfl]
      exact le_refl _
  | _ => exact hproper.elim

end Step

/-! ### One request -/

section Request

variable {s t : Treasury} {l : RewardRequest × List Called} {a : Called} {before : List Called}

lemma took_or_not (h : a.Goes TreasuryReturns TreasuryTotal) :
    a.took = false ∧ a.left = a.found ∨
      a.took = true ∧ ∃ v, TreasuryReturns a.op a.found v a.left := by
  rw [Async.Attempt.Goes] at h
  split at h
  · exact .inr ⟨h.1, _, h.2⟩
  · exact h.2

/-- The write among the calls. -/
lemma eq_write (hbefore : ∀ b ∈ before, b.op.reads = true) {b : Called} (hb : b ∈ before ++ [a])
    (hop : b.op.reads = false) : b = a := by
  rcases List.mem_append.mp hb with hb | hb
  · rw [hbefore b hb] at hop
    cases hop
  · exact List.mem_singleton.mp hb

lemma timely_of_reads (htr : ∀ b ∈ l.2, b.op.reads = true) : Timely ⟨s, l, t⟩ := by
  intro b hb _ id data hop
  have hreads := htr b hb
  rw [hop] at hreads
  cases hreads

/-- Requests that write nothing. -/
lemma forward_of_reads (hadvances : Advances s t) (htr : ∀ b ∈ l.2, b.took = true → b.op.reads = true) :
    Forward ⟨s, l, t⟩ where
  referral := hadvances.referral
  qualifiedOnce b hb htook id data hop := by
    have hreads := htr b hb htook
    rw [hop] at hreads
    cases hreads
  rewardedOnce b hb htook referral mintedAt rewardedAt hop := by
    have hreads := htr b hb htook
    rw [hop] at hreads
    cases hreads
  single := hadvances.ordered.single
  reversed := hadvances.reversed

/-- A write that is timely. -/
lemma forward_of_write (h : Ordered a.found) (hadvances : Advances s t) (hl : l.2 = before ++ [a])
    (hbefore : ∀ b ∈ before, b.op.reads = true) (hproper : Proper a.found a.op)
    (htimely : ∀ id data, a.op = .updateReferral id data → ∀ r, a.found.referral id = some r →
      r.status = .INVITED) : Forward ⟨s, l, t⟩ where
  referral := hadvances.referral
  qualifiedOnce b hb htook id data hop hdata r hr := by
    dsimp only at hb
    rw [hl] at hb
    obtain rfl := eq_write hbefore hb (by rw [hop]; rfl)
    exact (h.invited id r hr (htimely id data hop r hr)).2.1
  rewardedOnce b hb htook referral mintedAt rewardedAt hop r hr := by
    dsimp only at hb
    rw [hl] at hb
    obtain rfl := eq_write hbefore hb (by rw [hop]; rfl)
    rw [hop] at hproper
    obtain rfl := Option.some.inj (hproper.1.symm.trans hr)
    exact (h.qualified _ _ hr hproper.2).2
  single := hadvances.ordered.single
  reversed := hadvances.reversed

/-- A write to a referral that is not `INVITED` takes it back, or qualifies it again. -/
lemma invited_of_forward (h : Ordered a.found) (hforward : Forward ⟨s, l, t⟩) (ha : a ∈ l.2)
    (htook : a.took = true) (hquiet : Treasury.Beside s a.found) (hother : Treasury.Beside a.left t)
    {v : a.op.Res} (hreturns : TreasuryReturns a.op a.found v a.left) (hproper : Proper a.found a.op)
    {id : String} {data : ReferralData} (hop : a.op = .updateReferral id data) {r : Referral}
    (hr : a.found.referral id = some r) : r.status = .INVITED := by
  have honce := hforward.qualifiedOnce a ha htook id data hop
  obtain ⟨op, answer, took, found, left⟩ := a
  obtain rfl : op = .updateReferral id data := hop
  obtain ⟨r', hr', hdata⟩ := hproper
  obtain rfl := Option.some.inj (hr.symm.trans hr')
  obtain ⟨o, hanswer⟩ := hreturns
  have hnew : t.referral id = some (r.update data) := by
    rw [hother.referral, referral_updateReferral hanswer, hr, Option.map_some, if_pos rfl]
  obtain ⟨r', hr', honward⟩ := hforward.referral id r (by rw [← hquiet.referral, hr])
  obtain rfl := Option.some.inj (hnew.symm.trans hr')
  have hstatus := honward.status
  rcases h.going id r hr with hinvited | hqualified | hrewarded
  · exact hinvited
  · rw [hqualified] at hstatus
    rcases hdata with ⟨userId, -, rfl⟩ | ⟨firstTransactionId, date, rfl⟩
    · simp [Referral.update] at hstatus
    · have hnone := honce rfl r hr
      have hsome := (h.qualified id r hr hqualified).1
      rw [hnone] at hsome
      cases hsome
  · rw [hrewarded] at hstatus
    rcases hdata with ⟨userId, -, rfl⟩ | ⟨firstTransactionId, date, rfl⟩
    · simp [Referral.update] at hstatus
    · simp [Referral.update] at hstatus

lemma forward_step (h : Ordered s) (hstep : referring.Step s l t) :
    (Forward ⟨s, l, t⟩ ↔ Timely ⟨s, l, t⟩) ∧ (Timely ⟨s, l, t⟩ → Ordered t) := by
  obtain ⟨hq, r, hexecutes⟩ := hstep
  cases performs_request hq h.unique hexecutes with
  | reads hquiet htr =>
    have hadvances : Advances s t := h.advances.of_beside (.refl s) hquiet
    have hforward : Forward ⟨s, l, t⟩ := forward_of_reads hadvances fun b hb _ => htr b hb
    exact ⟨iff_of_true hforward (timely_of_reads htr), fun _ => hadvances.ordered⟩
  | writes before a htr hbefore hquiet hproper hgoes hother =>
    have hfound := h.beside hquiet
    have hlast : a ∈ l.2 := by
      rw [htr]
      simp
    rcases took_or_not hgoes with ⟨htook, hleft⟩ | ⟨htook, v, hreturns⟩
    · have hadvances : Advances s t := by
        rw [hleft] at hother
        exact hfound.advances.of_beside hquiet hother
      have hreads : ∀ b ∈ l.2, b.took = true → b.op.reads = true := by
        intro b hb hb'
        by_contra hop
        rw [htr] at hb
        obtain rfl := eq_write hbefore hb (by simpa using hop)
        rw [htook] at hb'
        cases hb'
      refine ⟨iff_of_true (forward_of_reads hadvances hreads) ?_, fun _ => hadvances.ordered⟩
      intro b hb hb' id data hop
      have hb'' := hreads b hb hb'
      rw [hop] at hb''
      cases hb''
    · have hadvances (htimely : Timely ⟨s, l, t⟩) : Advances s t :=
        (advances_of_returns hfound hproper (htimely a hlast htook) hreturns).of_beside hquiet hother
      refine ⟨⟨fun hforward b hb hb' id data hop r hr => ?_, fun htimely => ?_⟩,
        fun htimely => (hadvances htimely).ordered⟩
      · dsimp only at hb
        rw [htr] at hb
        obtain rfl := eq_write hbefore hb (by rw [hop]; rfl)
        exact invited_of_forward hfound hforward hlast htook hquiet hother hreturns hproper hop hr
      · exact forward_of_write hfound (hadvances htimely) htr hbefore hproper
          (htimely a hlast htook)

end Request

/-- **Referrals only go forward** if and only if `accept` and `qualify` write only referrals that are
`INVITED`. -/
theorem forward_iff {s s' : Treasury} {tr : List Referring} (hinit : referring.Init s)
    (hrun : referring.Run s tr s') : (∀ m ∈ tr, Forward m) ↔ ∀ m ∈ tr, Timely m :=
  hrun.forall_iff (ordered_uninvited hinit) fun _ _ _ h hstep => forward_step h hstep

/-! ### An invitation is accepted again -/

namespace AcceptedAgain

def play (op : RewardOp) (d : Treasury) : Except String op.Res × Bool × Treasury :=
  ((reply op d).1, (reply op d).1.isOk, (reply op d).2)

lemma goes_play (op : RewardOp) (d : Treasury) : Async.Attempt.Goes TreasuryReturns TreasuryTotal
    ⟨op, (play op d).1, (play op d).2.1, d, (play op d).2.2⟩ := by
  have hplayed := played_reply op d
  rw [play, reply]
  rw [reply] at hplayed
  cases hanswer : Treasury.answer { OneOrder.oracle with uuid := fresh d.backend.uuids } op d with
  | some vd =>
    rw [hanswer] at hplayed
    exact ⟨rfl, hplayed⟩
  | none =>
    rw [hanswer] at hplayed
    exact ⟨hplayed, .inl ⟨rfl, rfl⟩⟩

/-- A request, and what comes of it. -/
def served (q : RewardRequest) (d : Treasury) : Treasury := (q.program.play play d).2.2

lemma step_served {q : RewardRequest} (hq : q.OfReferrals) (d : Treasury) :
    referring.Step d (q, (q.program.play play d).1) (served q d) :=
  ⟨hq, _, Async.executes_play play q.program d goes_play .refl⟩

/-- A request after others. -/
lemma run_served {q : RewardRequest} (hq : q.OfReferrals) {d d₀ : Treasury} {tr : List Referring}
    (h : referring.Run d₀ tr d) :
    referring.Run d₀ (tr ++ [⟨d, (q, (q.program.play play d).1), served q d⟩]) (served q d) :=
  h.snoc (step_served hq d)

/-- A payment of the invited user. -/
def completed : Transaction where
  id := "payment"
  publicId := "PAY_1"
  userId := "bob"
  walletId := none
  merchantId := "merchant"
  merchantQrCodeId := none
  campaignId := none
  status := .COMPLETED
  assetIn := .XLM
  amountInCrypto := none
  amountInPaise := 10000
  quoteRateInrPerAsset := none
  usdcAmount := none
  networkFeePaise := 0
  merchantSettlementPaise := 10000
  merchantUpiVpa := "shop@upi"
  qrPayloadHash := none
  expiresAt := none

def uninvited : Treasury where
  backend := { transactions := [completed] }

lemma uninvited_init : referring.Init uninvited := ⟨rfl, fun _ => rfl, by decide⟩

def alice : Principal where
  id := "alice"
  role := .CONSUMER

def bob : Principal where
  id := "bob"
  role := .CONSUMER

def invited : Treasury := served (.invite alice "CODE" none) uninvited

def accepted : Treasury := served (.accept bob "CODE") invited

def qualified : Treasury := served (.qualify bob "u" "payment") accepted

/-- Bob accepts once more. -/
def reopened : Treasury := served (.accept bob "CODE") qualified

def rewarded : Treasury := served (.reward alice "u") qualified

def taken : Treasury := served (.reverse "u") rewarded

def timely (a : Called) : Bool :=
  match a.op with
  | .updateReferral id _ => (a.found.referral id).all fun r => r.status = .INVITED
  | _ => true

lemma timely_of_check {tr : List Referring} (h : ∀ m ∈ tr, m.label.2.all timely = true) :
    ∀ m ∈ tr, Timely m := by
  intro m hm a ha _ id data hop r hr
  have hcheck := List.all_eq_true.mp (h m hm) a ha
  rw [timely, hop] at hcheck
  simpa [hr] using hcheck

/-- Alice invites Bob, and he qualifies. -/
lemma run_qualified : ∃ tr, referring.Run uninvited tr qualified := by
  have hinvited := run_served (q := .invite alice "CODE" none) trivial (.nil uninvited)
  have haccepted := run_served (q := .accept bob "CODE") trivial hinvited
  have hqualified := run_served (q := .qualify bob "u" "payment") trivial haccepted
  exact ⟨_, hqualified⟩

end AcceptedAgain

/-- Alice invites Bob, he pays and she is rewarded, and the reward is reversed. -/
theorem forward_iff_of_reversed : ∃ (s s' : Treasury) (tr : List Referring), referring.Init s ∧
    referring.Run s tr s' ∧ (s'.referral "u").map (·.status) = some .REWARDED ∧
      (s'.bonuses "u").map (·.status) = [.REVERSED] ∧ ∀ m ∈ tr, Forward m := by
  have hinvited := AcceptedAgain.run_served (q := .invite AcceptedAgain.alice "CODE" none) trivial
    (.nil AcceptedAgain.uninvited)
  have haccepted := AcceptedAgain.run_served (q := .accept AcceptedAgain.bob "CODE") trivial hinvited
  have hqualified :=
    AcceptedAgain.run_served (q := .qualify AcceptedAgain.bob "u" "payment") trivial haccepted
  have hrewarded := AcceptedAgain.run_served (q := .reward AcceptedAgain.alice "u") trivial hqualified
  have htaken := AcceptedAgain.run_served (q := .reverse "u") trivial hrewarded
  refine ⟨_, _, _, AcceptedAgain.uninvited_init, htaken, by decide +kernel, by decide +kernel, ?_⟩
  exact (forward_iff AcceptedAgain.uninvited_init htaken).mpr
    (AcceptedAgain.timely_of_check (by decide +kernel))

/-- The referral is `INVITED` again after it was `QUALIFIED`. -/
theorem accept_reopens : ∃ (s t s' : Treasury) (tr : List Referring) (l : RewardRequest × List Called),
    referring.Init s ∧ referring.Run s tr t ∧ referring.Step t l s' ∧
      (t.referral "u").map (·.status) = some .QUALIFIED ∧
        (s'.referral "u").map (·.status) = some .INVITED ∧ ¬∀ m ∈ tr ++ [⟨t, l, s'⟩], Forward m := by
  obtain ⟨tr, hrun⟩ := AcceptedAgain.run_qualified
  have hbefore : (AcceptedAgain.qualified.referral "u").map (·.status) = some .QUALIFIED := by
    decide +kernel
  have hafter : (AcceptedAgain.reopened.referral "u").map (·.status) = some .INVITED := by decide +kernel
  refine ⟨_, _, _, tr, _, AcceptedAgain.uninvited_init, hrun,
    AcceptedAgain.step_served (q := .accept AcceptedAgain.bob "CODE") trivial AcceptedAgain.qualified,
    hbefore, hafter, fun h => ?_⟩
  have hforward := h _ (List.mem_append_right _ (List.mem_singleton.mpr rfl))
  obtain ⟨r, hr, hstatus⟩ := Option.map_eq_some_iff.mp hbefore
  obtain ⟨r', hr', honward⟩ := hforward.referral "u" r hr
  have hinvited : r'.status = .INVITED := by
    have hmap : (AcceptedAgain.reopened.referral "u").map (·.status) = some r'.status :=
      Option.map_eq_some_iff.mpr ⟨r', hr', rfl⟩
    rw [hafter] at hmap
    exact (Option.some.inj hmap).symm
  have hnot := honward.status
  rw [hstatus, hinvited] at hnot
  simp at hnot

end PayEra.Api.Rewards
