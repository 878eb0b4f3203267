import PayEra.Api.Abi
import PayEra.Api.Merchants

/-!
# Identifiers on chain

What the one helper that encodes UUIDs and digests makes of them, and which of the identifiers of a call
the contracts get.
-/

namespace PayEra.Api

open Soroban (Bytes32)
open SorobanService (ServiceCall uuidToBytes32 clean lastDigits invocation)
open Merchants (Uuid)

/-! ### Texts of digits -/

/-- The text of a UUID: its digits in groups of 8, 4, 4, 4 and 12. -/
def grouped (digits : List Char) : String :=
  String.ofList (digits.take 8 ++ '-' :: (digits.drop 8).take 4 ++
    '-' :: (digits.drop 12).take 4 ++ '-' :: (digits.drop 16).take 4 ++
    '-' :: digits.drop 20)

section Texts

variable {l : List Char} {n : ℕ}

lemma ne_dash_of_isSome {c : Char} (h : (Hex.digit c).isSome) : c ≠ '-' := by
  rintro rfl
  cases h

lemma filter_dash (h : ∀ c ∈ l, c ≠ '-') : l.filter (· ≠ '-') = l :=
  List.filter_eq_self.mpr fun c hc => decide_eq_true (h c hc)

/-- Without its dashes the text is the digits. -/
lemma clean_grouped (h : ∀ c ∈ l, c ≠ '-') : clean (grouped l) = l := by
  have hmem (i j : ℕ) : ∀ c ∈ (l.drop i).take j, c ≠ '-' := fun c hc =>
    h c (List.mem_of_mem_drop (List.mem_of_mem_take hc))
  have hdrop : ∀ c ∈ l.drop 20, c ≠ '-' := fun c hc => h c (List.mem_of_mem_drop hc)
  have htake : ∀ c ∈ l.take 8, c ≠ '-' := fun c hc => h c (List.mem_of_mem_take hc)
  have hsplit (i j : ℕ) : (l.drop i).take j ++ l.drop (i + j) = l.drop i := by
    rw [← List.drop_drop, List.take_append_drop]
  rw [clean, grouped, String.toList_ofList]
  simp only [List.filter_append, List.filter_cons, filter_dash (hmem _ _), filter_dash hdrop,
    filter_dash htake]
  simp only [ne_eq, not_true_eq_false, decide_false, Bool.false_eq_true, if_false, List.append_assoc]
  rw [hsplit 16 4, hsplit 12 4, hsplit 8 4, List.take_append_drop]

lemma clean_ofList (h : ∀ c ∈ l, c ≠ '-') : clean (String.ofList l) = l := by
  rw [clean, String.toList_ofList, filter_dash h]

lemma toLower_grouped (l : List Char) : (grouped l).toLower = grouped (l.map Char.toLower) := by
  apply String.toList_inj.mp
  have hdash : '-'.toLower = '-' := by decide
  rw [Ascii.toList_toLower, grouped, grouped, String.toList_ofList, String.toList_ofList]
  simp only [List.map_append, List.map_cons, List.map_take, List.map_drop, hdash]

/-- Texts are equal up to letter case if and only if their digits are. -/
lemma toLower_grouped_inj {u w : Hex.Digits n} : (grouped u.digits).toLower = (grouped w.digits).toLower ↔
    u.digits.map Char.toLower = w.digits.map Char.toLower := by
  have hdash (d : Hex.Digits n) : ∀ c ∈ d.digits.map Char.toLower, c ≠ '-' := by
    intro c hc
    obtain ⟨a, ha, rfl⟩ := List.mem_map.mp hc
    exact ne_dash_of_isSome (Hex.isSome_digit (Hex.digit_toLower (d.hex a ha)).2)
  rw [toLower_grouped, toLower_grouped]
  constructor
  · intro h
    rw [← clean_grouped (hdash u), h, clean_grouped (hdash w)]
  · intro h
    rw [h]

/-! ### Bytes -/

lemma bytes_uuidToBytes32 {s : String} (h : ∀ c ∈ lastDigits (clean s), (Hex.digit c).isSome) :
    (uuidToBytes32 s).bytes = Hex.octets (lastDigits (clean s)) := by
  rw [← Hex.decode_eq_octets h]
  apply List.take_left'
  rw [Hex.decode_eq_octets h, Hex.length_octets, length_lastDigits]

/-- What is not longer than 64 digits is padded with zeros. -/
lemma lastDigits_of_le (h : l.length ≤ 64) :
    lastDigits l = List.replicate (64 - l.length) '0' ++ l := by
  have hlen : (List.replicate (64 - l.length) '0' ++ l).length - 64 = 0 := by
    rw [List.length_append, List.length_replicate]
    omega
  rw [lastDigits, hlen, List.drop_zero]

/-- A UUID is encoded as its 16 bytes after 16 zeros. -/
lemma bytes_uuid (u : Hex.Digits 32) :
    (uuidToBytes32 (grouped u.digits)).bytes = List.replicate 16 0 ++ Hex.octets u.digits := by
  have hclean := clean_grouped fun c hc => ne_dash_of_isSome (u.hex c hc)
  have hlast : lastDigits u.digits = List.replicate (2 * 16) '0' ++ u.digits := by
    rw [lastDigits_of_le (by rw [u.length_eq]; decide), u.length_eq]
  have hhex : ∀ c ∈ lastDigits (clean (grouped u.digits)), (Hex.digit c).isSome := by
    rw [hclean, hlast]
    intro c hc
    rcases List.mem_append.mp hc with hc | hc
    · rw [List.eq_of_mem_replicate hc]
      rfl
    · exact u.hex c hc
  rw [bytes_uuidToBytes32 hhex, hclean, hlast, Hex.octets_zeros]

/-- 64 digits are encoded as the bytes that they denote. -/
lemma bytes_digest (d : Hex.Digits 64) :
    (uuidToBytes32 (String.ofList d.digits)).bytes = Hex.octets d.digits := by
  have hclean := clean_ofList fun c hc => ne_dash_of_isSome (d.hex c hc)
  have hlast : lastDigits d.digits = d.digits := by
    rw [lastDigits_of_le d.length_eq.le, d.length_eq]
    rfl
  have hhex : ∀ c ∈ lastDigits (clean (String.ofList d.digits)), (Hex.digit c).isSome := by
    rw [hclean, hlast]
    exact d.hex
  rw [bytes_uuidToBytes32 hhex, hclean, hlast]

lemma eq_of_bytes {b b' : Bytes32} (h : b.bytes = b'.bytes) : b = b' := by
  cases b
  cases b'
  cases h
  rfl

lemma uuidToBytes32_eq_iff {u w : Hex.Digits 32} :
    uuidToBytes32 (grouped u.digits) = uuidToBytes32 (grouped w.digits) ↔
      u.digits.map Char.toLower = w.digits.map Char.toLower := by
  rw [← Hex.octets_inj u.hex w.hex (u.length_eq.trans w.length_eq.symm) (by rw [u.length_eq])]
  constructor
  · intro h
    have hbytes := congrArg Bytes32.bytes h
    rw [bytes_uuid, bytes_uuid] at hbytes
    exact List.append_cancel_left hbytes
  · intro h
    apply eq_of_bytes
    rw [bytes_uuid, bytes_uuid, h]

end Texts

/-! ### Identifiers of the database -/

namespace Merchants

/-- An identifier of the database is in lower case. -/
def Uuid.hexDigits (u : Uuid) : Hex.Digits 32 where
  digits := u.digits
  length_eq := u.length_eq
  hex c hc := Hex.isSome_digit (u.lower c hc)

/-- Identifiers are told apart on chain. -/
lemma uuidToBytes32_inj {u v : Uuid} : uuidToBytes32 u.text = uuidToBytes32 v.text ↔ u = v := by
  have hlower (u : Uuid) : u.digits.map Char.toLower = u.digits := by
    conv_rhs => rw [← List.map_id u.digits]
    exact List.map_congr_left fun c hc => Hex.toLower_of_lower (u.lower c hc)
  have heq : uuidToBytes32 u.text = uuidToBytes32 v.text ↔
      u.digits.map Char.toLower = v.digits.map Char.toLower :=
    uuidToBytes32_eq_iff (u := u.hexDigits) (w := v.hexDigits)
  rw [heq, hlower, hlower]
  constructor
  · intro h
    cases u
    cases v
    cases h
    rfl
  · rintro rfl
    rfl

end Merchants

/-! ### Calls -/

def ScVal.bytes? : ScVal → Option (List UInt8)
  | .bytes b => some b
  | _ => none

/-- The identifiers and digests that a call passes on, in the order of its arguments. -/
def SorobanService.ServiceCall.identifiers : ServiceCall → List String
  | .createPayment p => [p.paymentId, p.merchantId, p.qrHash, p.rewardId]
  | .quotePayment p => [p.paymentId]
  | .markConverted paymentId => [paymentId]
  | .markSettled paymentId => [paymentId]
  | .issueReward paymentId => [paymentId]
  | .completePayment paymentId => [paymentId]
  | .issueStarReward p => [p.rewardId, p.userId]
  | .registerMerchant p => [p.merchantId, p.upiIdHash, p.metadataHash]
  | .approveMerchant merchantId => [merchantId]
  | .suspendMerchant merchantId => [merchantId]
  | .rejectMerchant merchantId => [merchantId]
  | .getStarBalance _ => []

/-- Every identifier goes through the one helper, and nothing else becomes bytes. -/
lemma bytes_invocation {sdk : Sdk} {call : ServiceCall} {i : Invocation}
    (h : invocation sdk call = some i) :
    i.args.filterMap ScVal.bytes? = call.identifiers.map fun s => (uuidToBytes32 s).bytes := by
  cases call with
  | createPayment p =>
    simp only [invocation, SorobanService.createPayment, Option.bind_eq_bind, Option.bind_eq_some_iff] at h
    obtain ⟨payer, -, amountInPaise, -, heq⟩ := h
    cases heq
    cases hasset : p.asset <;> rfl
  | quotePayment p =>
    simp only [invocation, SorobanService.quotePayment, Option.bind_eq_bind, Option.bind_eq_some_iff] at h
    obtain ⟨assetAmount, -, usdcAmount, -, networkFeePaise, -, heq⟩ := h
    cases heq
    rfl
  | issueStarReward p =>
    simp only [invocation, SorobanService.issueStarReward, Option.bind_eq_bind,
      Option.bind_eq_some_iff] at h
    obtain ⟨recipient, -, starAmount, -, heq⟩ := h
    cases heq
    rfl
  | registerMerchant p =>
    simp only [invocation, SorobanService.registerMerchant, Option.bind_eq_bind,
      Option.bind_eq_some_iff] at h
    obtain ⟨owner, -, heq⟩ := h
    cases heq
    rfl
  | getStarBalance walletAddress =>
    simp only [invocation, SorobanService.getStarBalance, Option.bind_eq_bind,
      Option.bind_eq_some_iff] at h
    obtain ⟨id, -, heq⟩ := h
    cases heq
    rfl
  | _ =>
    cases h
    rfl

/-- The digits of the bytes of a digest, as `digest('hex')` writes them. -/
def digestHex (digest : Bytes32) : Hex.Digits 64 where
  digits := Hex.encode digest.bytes
  length_eq := by rw [Hex.length_encode, digest.length_eq]
  hex := Hex.isSome_encode digest.bytes

/-- **Identifier encoding.** A UUID is encoded as its bytes after 16 zeros, and two of them as the same
bytes if and only if they are equal up to letter case; 64 digits are encoded as the bytes that they
denote. All identifiers of the calls are encoded so: those of the database stay apart, and a digest is
passed on unchanged. -/
theorem identifier_encoding :
    (∀ u : Hex.Digits 32, (uuidToBytes32 (grouped u.digits)).bytes =
      List.replicate 16 0 ++ Hex.octets u.digits ∧ (Hex.octets u.digits).length = 16) ∧
    (∀ u w : Hex.Digits 32, uuidToBytes32 (grouped u.digits) = uuidToBytes32 (grouped w.digits) ↔
      (grouped u.digits).toLower = (grouped w.digits).toLower) ∧
    (∀ d : Hex.Digits 64, (uuidToBytes32 (String.ofList d.digits)).bytes = Hex.octets d.digits) ∧
    (∀ sdk call i, invocation sdk call = some i →
      i.args.filterMap ScVal.bytes? = call.identifiers.map fun s => (uuidToBytes32 s).bytes) ∧
    (∀ u v : Uuid, u ≠ v → uuidToBytes32 u.text ≠ uuidToBytes32 v.text) ∧
    ∀ digest : Bytes32, uuidToBytes32 (String.ofList (digestHex digest).digits) = digest := by
  refine ⟨fun u => ⟨bytes_uuid u, ?_⟩, fun u w => ?_, bytes_digest, fun sdk call i => bytes_invocation,
    fun u v hne heq => hne (Merchants.uuidToBytes32_inj.mp heq), fun digest => ?_⟩
  · rw [Hex.length_octets, u.length_eq]
  · rw [uuidToBytes32_eq_iff, toLower_grouped_inj]
  · apply eq_of_bytes
    rw [bytes_digest]
    exact Hex.octets_encode digest.bytes

end PayEra.Api
