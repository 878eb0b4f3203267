import PayEra.Api.Soroban

/-!
# Which invocations the contracts understand

What each call of the Soroban service is meant to reach, and for which parameters the invocation that
it builds does reach it.
-/

namespace PayEra.Api

open Soroban (Address Bytes32 I128)
open SorobanService (ServiceCall uuidToBytes32 clean lastDigits)

/-- There is no such asset on chain as the rupee. -/
def AssetCode.onChain : AssetCode → Option PaymentEngine.AssetCode
  | .ETH => some .ETH
  | .BTC => some .BTC
  | .SOL => some .SOL
  | .XLM => some .XLM
  | .USDC => some .USDC
  | .INR => none

/-! ### Identifiers -/

/-- The 32 bytes are the number that the identifier's hexadecimal digits denote. -/
def Denotes (s : String) (b : Bytes32) : Prop := Hex.number (clean s) = some (Hex.value b.bytes)

/-- An identifier of hexadecimal digits that fits into 32 bytes, such as a UUID or a SHA-256 hash. -/
def Identifies (s : String) : Prop := ∃ n < 2 ^ 256, Hex.number (clean s) = some n

lemma length_lastDigits (l : List Char) : (lastDigits l).length = 64 := by
  simp only [lastDigits, List.length_drop, List.length_append, List.length_replicate]
  omega

lemma number_lastDigits {l : List Char} {n : ℕ} (h : Hex.number l = some n) (hn : n < 2 ^ 256) :
    Hex.number (lastDigits l) = some n := by
  rw [← Hex.number_pad (64 - l.length)] at h
  refine Hex.number_drop h (lt_of_lt_of_le hn ?_)
  have hlen : 64 ≤ (List.replicate (64 - l.length) '0' ++ l).length := by
    rw [List.length_append, List.length_replicate]
    omega
  have hsub : ∀ m, 64 ≤ m → m - (m - 64) = 64 := by omega
  rw [hsub _ hlen]
  norm_num

lemma uuidToBytes32_value {s : String} {n : ℕ} (h : Hex.number (clean s) = some n)
    (hn : n < 2 ^ 256) : Hex.value (uuidToBytes32 s).bytes = n := by
  have hlast := number_lastDigits h hn
  obtain ⟨hlen, hval⟩ := Hex.decode_of_numberFrom hlast (by rw [length_lastDigits])
  rw [length_lastDigits] at hlen
  have hbytes : (uuidToBytes32 s).bytes = Hex.decode (lastDigits (clean s)) :=
    List.take_left' hlen
  rw [hbytes]
  exact hval

/-- The encoding is right for the identifiers that have one. -/
theorem denotes_uuidToBytes32 {s : String} : Denotes s (uuidToBytes32 s) ↔ Identifies s := by
  constructor
  · intro h
    refine ⟨_, ?_, h⟩
    have hlt := Hex.value_lt (uuidToBytes32 s).bytes
    rw [(uuidToBytes32 s).length_eq] at hlt
    exact lt_of_lt_of_le hlt (by norm_num)
  · rintro ⟨n, hn, h⟩
    rw [Denotes, h, uuidToBytes32_value h hn]

/-! ### What the calls mean -/

/-- The entrypoint that a call is meant to reach, each argument with the meaning of its parameter:
the platform acts as operator and issuer, and the STAR that the reward engine mints for the amount
are those that were asked for. -/
inductive Means (sdk : Sdk) : ServiceCall → ContractEntry → Prop where
  | createPayment {p : CreatePayment} {payer : Address} {asset : PaymentEngine.AssetCode}
      {paymentId merchantId qrHash rewardId : Bytes32} {amountInPaise : I128}
      (hpayer : sdk.address p.payer = some payer) (hpaymentId : Denotes p.paymentId paymentId)
      (hmerchantId : Denotes p.merchantId merchantId) (hasset : p.asset.onChain = some asset)
      (hamount : amountInPaise.val = p.amountInPaise) (hqrHash : Denotes p.qrHash qrHash)
      (hrewardId : Denotes p.rewardId rewardId) :
      Means sdk (.createPayment p) (.paymentEngine (.createPayment sdk.platform payer paymentId
        merchantId asset amountInPaise qrHash rewardId))
  | quotePayment {p : QuotePayment} {paymentId : Bytes32}
      {assetAmount usdcAmount networkFeePaise : I128} (hpaymentId : Denotes p.paymentId paymentId)
      (hasset : assetAmount.val = p.assetAmount) (husdc : usdcAmount.val = p.usdcAmount)
      (hfee : networkFeePaise.val = p.networkFeePaise) :
      Means sdk (.quotePayment p) (.paymentEngine (.quotePayment sdk.platform paymentId assetAmount
        usdcAmount networkFeePaise))
  | markConverted {id : String} {paymentId : Bytes32} (h : Denotes id paymentId) :
      Means sdk (.markConverted id) (.paymentEngine (.markConverted sdk.platform paymentId))
  | markSettled {id : String} {paymentId : Bytes32} (h : Denotes id paymentId) :
      Means sdk (.markSettled id) (.paymentEngine (.markSettled sdk.platform paymentId))
  | issueReward {id : String} {paymentId : Bytes32} (h : Denotes id paymentId) :
      Means sdk (.issueReward id) (.paymentEngine (.issueReward sdk.platform paymentId))
  | completePayment {id : String} {paymentId : Bytes32} (h : Denotes id paymentId) :
      Means sdk (.completePayment id) (.paymentEngine (.completePayment sdk.platform paymentId))
  | issueStarReward {p : IssueStarReward} {rewardId sourceId : Bytes32} {recipient : Address}
      {amountInPaise star : I128} (hrewardId : Denotes p.rewardId rewardId)
      (hrecipient : sdk.address p.userWalletAddress = some recipient)
      (hstar : ∀ env (s : RewardEngine.Storage),
        (RewardEngine.calculateSpendReward amountInPaise).run env s = .ok (star, s))
      (hval : star.val = p.starAmount) :
      Means sdk (.issueStarReward p)
        (.rewardEngine (.issue (.spend sdk.platform rewardId recipient sourceId amountInPaise)))
  | registerMerchant {p : RegisterMerchant} {owner : Address}
      {merchantId upiIdHash metadataHash : Bytes32} (howner : sdk.address p.owner = some owner)
      (hmerchantId : Denotes p.merchantId merchantId) (hupi : Denotes p.upiIdHash upiIdHash)
      (hmetadata : Denotes p.metadataHash metadataHash) :
      Means sdk (.registerMerchant p)
        (.merchantRegistry (.registerMerchant merchantId owner upiIdHash metadataHash))
  | approveMerchant {id : String} {merchantId : Bytes32} (h : Denotes id merchantId) :
      Means sdk (.approveMerchant id) (.merchantRegistry (.approveMerchant merchantId))
  | suspendMerchant {id : String} {merchantId : Bytes32} (h : Denotes id merchantId) :
      Means sdk (.suspendMerchant id) (.merchantRegistry (.suspendMerchant merchantId))
  | rejectMerchant {id : String} {merchantId : Bytes32} (h : Denotes id merchantId) :
      Means sdk (.rejectMerchant id) (.merchantRegistry (.rejectMerchant merchantId))
  | getStarBalance {walletAddress : String} {id : Address}
      (h : sdk.address walletAddress = some id) :
      Means sdk (.getStarBalance walletAddress) (.starToken (.balance id))

/-- The invocation is built, the host accepts it, and it reaches what the call means. -/
def Agrees (sdk : Sdk) (c : ServiceCall) : Prop :=
  ∃ i e, SorobanService.invocation sdk c = some i ∧ Host.bind i = some e ∧ Means sdk c e

/-- The calls that get their arguments right: `create_payment`, which is given its operator, and the
functions that have no leading authority. -/
def Sound (sdk : Sdk) : ServiceCall → Prop
  | .createPayment p =>
    (∃ payer, sdk.address p.payer = some payer) ∧ p.asset ≠ .INR ∧
      (-2 ^ 127 ≤ p.amountInPaise ∧ p.amountInPaise < 2 ^ 127) ∧
      Identifies p.paymentId ∧ Identifies p.merchantId ∧ Identifies p.qrHash ∧
      Identifies p.rewardId
  | .registerMerchant p =>
    (∃ owner, sdk.address p.owner = some owner) ∧ Identifies p.merchantId ∧
      Identifies p.upiIdHash ∧ Identifies p.metadataHash
  | .approveMerchant merchantId | .suspendMerchant merchantId | .rejectMerchant merchantId =>
    Identifies merchantId
  | .getStarBalance walletAddress => ∃ id, sdk.address walletAddress = some id
  | .quotePayment _ | .markConverted _ | .markSettled _ | .issueReward _ | .completePayment _
  | .issueStarReward _ => False

/-! ### Agreement -/

section Agreement

variable {sdk : Sdk}

lemma bytes32_bytes (b : Bytes32) : Host.bytes32 b.bytes = some b := dif_pos b.length_eq

/-- The discriminants match the names. -/
lemma assetCode_assetMap {a : AssetCode} {asset : PaymentEngine.AssetCode}
    (h : a.onChain = some asset) :
    ∃ n, SorobanService.assetMap a = .u32 n ∧ Host.assetCode n = some asset := by
  cases a with
  | INR => cases h
  | _ =>
    cases h
    exact ⟨_, rfl, rfl⟩

lemma onChain_of_ne {a : AssetCode} (h : a ≠ .INR) : ∃ asset, a.onChain = some asset := by
  cases a with
  | INR => exact absurd rfl h
  | _ => exact ⟨_, rfl⟩

lemma bind_createPayment {p : CreatePayment} {payer : Address} {amountInPaise : I128}
    {asset : PaymentEngine.AssetCode} {i : Invocation} (hasset : p.asset.onChain = some asset)
    (hpayer : sdk.address p.payer = some payer) (hamount : amountInPaise.val = p.amountInPaise)
    (hi : SorobanService.createPayment sdk p = some i) :
    Host.bind i = some (.paymentEngine (.createPayment sdk.platform payer
      (uuidToBytes32 p.paymentId) (uuidToBytes32 p.merchantId) asset amountInPaise
      (uuidToBytes32 p.qrHash) (uuidToBytes32 p.rewardId))) := by
  obtain ⟨n, hmap, hcode⟩ := assetCode_assetMap hasset
  simp only [SorobanService.createPayment, hpayer, I128.ofInt?_eq_some.mpr hamount] at hi
  cases hi
  simp [Host.bind, Host.paymentEngine, SorobanService.idBytes, bytes32_bytes, hmap, hcode]

lemma agrees_createPayment {p : CreatePayment} :
    Agrees sdk (.createPayment p) ↔ Sound sdk (.createPayment p) := by
  constructor
  · rintro ⟨i, e, hi, he, hmeans⟩
    cases hmeans with
    | createPayment hpayer hpaymentId hmerchantId hasset hamount hqrHash hrewardId =>
      simp only [bind_createPayment hasset hpayer hamount hi, Option.some.injEq,
        ContractEntry.paymentEngine.injEq, PaymentEngine.Entry.createPayment.injEq] at he
      obtain ⟨-, -, rfl, rfl, -, -, rfl, rfl⟩ := he
      refine ⟨⟨_, hpayer⟩, ?_, ?_, denotes_uuidToBytes32.mp hpaymentId,
        denotes_uuidToBytes32.mp hmerchantId, denotes_uuidToBytes32.mp hqrHash,
        denotes_uuidToBytes32.mp hrewardId⟩
      · intro hinr
        rw [hinr] at hasset
        cases hasset
      · rw [← hamount]
        exact ⟨I128.lower _, I128.upper _⟩
  · rintro ⟨⟨payer, hpayer⟩, hne, hrange, hpaymentId, hmerchantId, hqrHash, hrewardId⟩
    obtain ⟨asset, hasset⟩ := onChain_of_ne hne
    have hamount : (⟨p.amountInPaise, hrange.1, hrange.2⟩ : I128).val = p.amountInPaise := rfl
    have hi : ∃ i, SorobanService.createPayment sdk p = some i := by
      simp only [SorobanService.createPayment, hpayer, I128.ofInt?_eq_some.mpr hamount]
      exact ⟨_, rfl⟩
    obtain ⟨i, hi⟩ := hi
    refine ⟨i, _, hi, bind_createPayment hasset hpayer hamount hi, ?_⟩
    exact .createPayment hpayer (denotes_uuidToBytes32.mpr hpaymentId)
      (denotes_uuidToBytes32.mpr hmerchantId) hasset hamount (denotes_uuidToBytes32.mpr hqrHash)
      (denotes_uuidToBytes32.mpr hrewardId)

lemma bind_registerMerchant {p : RegisterMerchant} {owner : Address} {i : Invocation}
    (howner : sdk.address p.owner = some owner)
    (hi : SorobanService.registerMerchant sdk p = some i) :
    Host.bind i = some (.merchantRegistry (.registerMerchant (uuidToBytes32 p.merchantId) owner
      (uuidToBytes32 p.upiIdHash) (uuidToBytes32 p.metadataHash))) := by
  simp only [SorobanService.registerMerchant, howner] at hi
  cases hi
  simp [Host.bind, Host.merchantRegistry, SorobanService.idBytes, bytes32_bytes]

lemma agrees_registerMerchant {p : RegisterMerchant} :
    Agrees sdk (.registerMerchant p) ↔ Sound sdk (.registerMerchant p) := by
  constructor
  · rintro ⟨i, e, hi, he, hmeans⟩
    cases hmeans with
    | registerMerchant howner hmerchantId hupi hmetadata =>
      simp only [bind_registerMerchant howner hi, Option.some.injEq,
        ContractEntry.merchantRegistry.injEq, MerchantRegistry.Entry.registerMerchant.injEq] at he
      obtain ⟨rfl, -, rfl, rfl⟩ := he
      exact ⟨⟨_, howner⟩, denotes_uuidToBytes32.mp hmerchantId, denotes_uuidToBytes32.mp hupi,
        denotes_uuidToBytes32.mp hmetadata⟩
  · rintro ⟨⟨owner, howner⟩, hmerchantId, hupi, hmetadata⟩
    have hi : ∃ i, SorobanService.registerMerchant sdk p = some i := by
      simp only [SorobanService.registerMerchant, howner]
      exact ⟨_, rfl⟩
    obtain ⟨i, hi⟩ := hi
    refine ⟨i, _, hi, bind_registerMerchant howner hi, ?_⟩
    exact .registerMerchant howner (denotes_uuidToBytes32.mpr hmerchantId)
      (denotes_uuidToBytes32.mpr hupi) (denotes_uuidToBytes32.mpr hmetadata)

/-- The reviews take the merchant's id and nothing else. -/
lemma agrees_review {c : ServiceCall} {id : String} {method : Method}
    {entry : Bytes32 → MerchantRegistry.Entry}
    (hi : SorobanService.invocation sdk c =
      some ⟨.merchantRegistry, method, [SorobanService.idBytes id]⟩)
    (hbind : ∀ b, Host.merchantRegistry method [.bytes b] = (Host.bytes32 b).map entry)
    (hmeans : ∀ b, Means sdk c (.merchantRegistry (entry b)) ↔ Denotes id b) :
    Agrees sdk c ↔ Identifies id := by
  have he : Host.bind ⟨.merchantRegistry, method, [SorobanService.idBytes id]⟩ =
      some (.merchantRegistry (entry (uuidToBytes32 id))) := by
    simp only [Host.bind, SorobanService.idBytes, hbind, bytes32_bytes, Option.map_some]
  rw [← denotes_uuidToBytes32, ← hmeans]
  constructor
  · rintro ⟨i, e, hi', he', h⟩
    obtain rfl := Option.some.inj (hi.symm.trans hi')
    obtain rfl := Option.some.inj (he.symm.trans he')
    exact h
  · intro h
    exact ⟨_, _, hi, he, h⟩

lemma agrees_getStarBalance {walletAddress : String} :
    Agrees sdk (.getStarBalance walletAddress) ↔ Sound sdk (.getStarBalance walletAddress) := by
  constructor
  · rintro ⟨i, e, -, -, hmeans⟩
    cases hmeans with
    | getStarBalance h => exact ⟨_, h⟩
  · rintro ⟨id, h⟩
    refine ⟨⟨.starToken, .balance, [.address id]⟩, _, ?_, rfl, .getStarBalance h⟩
    simp only [SorobanService.invocation, SorobanService.getStarBalance, h]
    rfl

/-- A call whose invocations the host refuses. -/
lemma not_agrees {c : ServiceCall}
    (h : ∀ i, SorobanService.invocation sdk c = some i → Host.bind i = none) : ¬Agrees sdk c := by
  rintro ⟨i, e, hi, he, -⟩
  rw [h i hi] at he
  cases he

/-- The first argument of a mint is the reward's id where the issuer is expected. -/
lemma not_agrees_issueStarReward {p : IssueStarReward} : ¬Agrees sdk (.issueStarReward p) := by
  refine not_agrees fun i hi => ?_
  simp only [SorobanService.invocation, SorobanService.issueStarReward, Option.bind_eq_bind,
    Option.bind_eq_some_iff] at hi
  obtain ⟨recipient, -, starAmount, -, heq⟩ := hi
  cases heq
  rfl

/-- **Agreement.** Exactly the sound calls reach what they mean: the others leave out the leading
authority of the entrypoint, or are given something that is no address. -/
theorem agrees_iff_sound (sdk : Sdk) (c : ServiceCall) : Agrees sdk c ↔ Sound sdk c := by
  cases c with
  | createPayment p => exact agrees_createPayment
  | registerMerchant p => exact agrees_registerMerchant
  | getStarBalance walletAddress => exact agrees_getStarBalance
  | approveMerchant id =>
    refine agrees_review rfl (fun b => Option.map_eq_bind.symm) fun b => ⟨fun h => ?_, .approveMerchant⟩
    cases h with
    | approveMerchant h => exact h
  | suspendMerchant id =>
    refine agrees_review rfl (fun b => Option.map_eq_bind.symm) fun b => ⟨fun h => ?_, .suspendMerchant⟩
    cases h with
    | suspendMerchant h => exact h
  | rejectMerchant id =>
    refine agrees_review rfl (fun b => Option.map_eq_bind.symm) fun b => ⟨fun h => ?_, .rejectMerchant⟩
    cases h with
    | rejectMerchant h => exact h
  | quotePayment p =>
    refine ⟨not_agrees fun i hi => ?_, False.elim⟩
    simp only [SorobanService.invocation, SorobanService.quotePayment, Option.bind_eq_bind,
      Option.bind_eq_some_iff] at hi
    obtain ⟨assetAmount, -, usdcAmount, -, networkFeePaise, -, heq⟩ := hi
    cases heq
    rfl
  | issueStarReward p => exact ⟨not_agrees_issueStarReward, False.elim⟩
  | markConverted id | markSettled id | issueReward id | completePayment id =>
    refine ⟨not_agrees fun i hi => ?_, False.elim⟩
    cases hi
    rfl

end Agreement

/-- An SDK that knows one address. -/
def oneAddress : Sdk where
  address s :=
    if s = "GA6MPSEDZWDYVFN2CLITDXSM2WI545AQATWRPJAA4QKBJKHSLUI5JAE6" then some ⟨1⟩ else none
  platform := ⟨0⟩

/-- A mint of 10 STAR to it. -/
def mintOfTen : IssueStarReward where
  rewardId := "6f1c2d3e-0000-4000-8000-000000000001"
  userId := "6f1c2d3e-0000-4000-8000-000000000002"
  userWalletAddress := "GA6MPSEDZWDYVFN2CLITDXSM2WI545AQATWRPJAA4QKBJKHSLUI5JAE6"
  starAmount := 10

/-- It is built, and the host refuses it. -/
theorem mint_refused : ∃ i, SorobanService.invocation oneAddress (.issueStarReward mintOfTen) = some i ∧
    Host.bind i = none ∧ ¬Agrees oneAddress (.issueStarReward mintOfTen) :=
  ⟨_, rfl, rfl, not_agrees_issueStarReward⟩

end PayEra.Api
