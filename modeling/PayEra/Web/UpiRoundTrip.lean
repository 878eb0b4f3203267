import PayEra.Web.Upi

/-!
# Codes that are made and scanned

The parser reads what `createMockUpiPayload` writes, and the pay page takes over the amount.
-/

namespace PayEra.Web

open Api (truthy)
open Api.Merchants (IsUpiVpa)
open Api.Merchants.MerchantsService (createMockUpiPayload number)
open FormUrlEncoded (serialize)

variable {browser : Browser} {params : List (String × String)} {v n : String}

/-! ### The query of a code -/

lemma text_ne {c : Char} (h : FormUrlEncoded.Text c) {d : Char} (hd : ¬FormUrlEncoded.Text d) : c ≠ d := by
  rintro rfl
  exact hd h

/-- Nothing in a serialized query is cleaned away. -/
lemma not_blank_of_text {c : Char} (h : FormUrlEncoded.Text c) : Url.blank c = false := by
  have hlow : ∀ k ≤ 32, ¬FormUrlEncoded.Text (Char.ofNat k) := by decide
  by_contra hblank
  rw [Bool.not_eq_false, Url.blank, decide_eq_true_eq] at hblank
  apply hlow c.toNat hblank
  rwa [Char.ofNat_toNat]

lemma startsUpiPay_append (s : List Char) : startsUpiPay (upiPay ++ s) = true := rfl

lemma urlString_append (s : List Char) :
    urlString (upiPay ++ s) = ['h', 't', 't', 'p'] ++ ':' :: '/' :: '/' :: 'p' :: 'a' :: 'y' :: s := rfl

/-- The query of a code is what was serialized. -/
lemma query_serialize (params : List (String × String)) :
    Url.query browser.hosts (urlString (upiPay ++ '?' :: serialize params)) = some (serialize params) := by
  have htext := FormUrlEncoded.text_serialize params
  have hclean : ∀ c ∈ '/' :: '/' :: 'p' :: 'a' :: 'y' :: '?' :: serialize params, Url.blank c = false := by
    have hhead : ∀ c ∈ ['/', '/', 'p', 'a', 'y', '?'], Url.blank c = false := by simp [Url.blank]
    intro c hc
    rcases List.mem_append.mp (show c ∈ ['/', '/', 'p', 'a', 'y', '?'] ++ serialize params from hc) with h | h
    · exact hhead c h
    · exact not_blank_of_text (htext c h)
  have hhash : '#' ∉ serialize params := fun hmem => text_ne (htext _ hmem) (by decide) rfl
  have hhost : Url.validAuthority browser.hosts true ['p', 'a', 'y'] = true :=
    Url.validAuthority_letters (by decide) isAlpha_pay
  rw [urlString_append, Url.query_http, Url.cleanEnd_eq_self hclean]
  show Url.afterSlashes _ true ('p' :: 'a' :: 'y' :: '?' :: serialize params) = _
  rw [Url.afterSlashes]
  show (if Url.validAuthority browser.hosts true ['p', 'a', 'y'] = true then _ else _) = _
  rw [if_pos hhost]
  exact congrArg some (Url.queryOf_cons hhash)

/-! ### The parameters -/

lemma number_toString (a : ℕ) : number (toString a) = a := by
  simp [number, Decimal.value]

/-- The parameters of a code. -/
def codeParams (v n : String) (a : Option ℕ) : List (String × String) :=
  [("cu", "INR"), ("pa", v), ("pn", n)] ++
    a.toList.map fun a => ("am", String.ofList (Decimal.toFixed ((a : ℚ) / 100) 2))

lemma createMockUpiPayload_eq (v n : String) (a : Option ℕ) :
    (createMockUpiPayload v n (a.map toString)).toList =
      upiPay ++ '?' :: serialize (codeParams v n a) := by
  cases a with
  | none => simp [createMockUpiPayload, upiPay, codeParams]
  | some a =>
    have hnumber : number a.repr = a := number_toString a
    simp [createMockUpiPayload, upiPay, codeParams, FormUrlEncoded.set, hnumber]

/-! ### Amounts -/

/-- The pay page takes over a positive amount of paise. -/
lemma scannedPaise_div {a : ℕ} (ha : 0 < a) :
    scannedPaise (some (.finite ((a : ℚ) / 100))) = some (toString a) := by
  have hne : (a : ℚ) / 100 ≠ 0 := by positivity
  rw [scannedPaise, if_neg hne, div_mul_cancel₀ _ (by norm_num), Decimal.toFixed_natCast]
  rw [Nat.toString_eq_ofList_toDigits]

/-! ### The round trip -/

lemma amount_codeParams (v n : String) (a : Option ℕ) :
    ((truthy (FormUrlEncoded.get (codeParams v n a) "am")).bind fun s => Decimal.parseFloat s.toList) =
      a.map fun a => Decimal.Number.finite ((a : ℚ) / 100) := by
  cases a with
  | none => rfl
  | some a =>
    have hread := Decimal.parseFloat_toFixed ((a : ℚ) / 100) 2
    have hrounded := Decimal.rounded_natCast a 2
    norm_num at hrounded
    rw [hrounded] at hread
    have hne : String.ofList (Decimal.toFixed ((a : ℚ) / 100) 2) ≠ "" := by
      intro hempty
      rw [String.ofList_eq_empty_iff] at hempty
      rw [hempty] at hread
      cases hread
    have hget : FormUrlEncoded.get (codeParams v n (some a)) "am" =
        some (String.ofList (Decimal.toFixed ((a : ℚ) / 100) 2)) := rfl
    rw [hget, truthy_some hne, Option.bind_some, String.toList_ofList, hread]
    rfl

/-- A VPA that the API accepts is not empty. -/
lemma ne_empty_of_isUpiVpa (h : IsUpiVpa v = true) : v ≠ "" := by
  rintro rfl
  cases h

/-- **Round trip.** The parser finds the VPA, the name and the currency of a code that the API makes,
no note, and the pay page its amount, if it has one. -/
theorem parse_createMockUpiPayload (browser : Browser) (v n : String) (a : Option ℕ)
    (hv : IsUpiVpa v = true) (hn : n ≠ "") (ha : ∀ k ∈ a, 0 < k) :
    (parseUpiQr browser (createMockUpiPayload v n (a.map toString))).isValid = true ∧
    (parseUpiQr browser (createMockUpiPayload v n (a.map toString))).upiVpa = v ∧
    (parseUpiQr browser (createMockUpiPayload v n (a.map toString))).merchantName = n ∧
    (parseUpiQr browser (createMockUpiPayload v n (a.map toString))).currency = "INR" ∧
    (parseUpiQr browser (createMockUpiPayload v n (a.map toString))).note = none ∧
    scannedPaise (parseUpiQr browser (createMockUpiPayload v n (a.map toString))).amount =
      a.map toString := by
  have hvne : v ≠ "" := ne_empty_of_isUpiVpa hv
  have hparse : parseUpiQr browser (createMockUpiPayload v n (a.map toString)) =
      { upiVpa := v
        merchantName := n
        amount := a.map fun a => .finite ((a : ℚ) / 100)
        currency := "INR"
        note := none
        isValid := true
        rawPayload := createMockUpiPayload v n (a.map toString) } := by
    have hvpa : truthy (FormUrlEncoded.get (codeParams v n a) "pa") = some v := truthy_some hvne
    have hname : truthy (FormUrlEncoded.get (codeParams v n a) "pn") = some n := truthy_some hn
    have hcurrency : truthy (FormUrlEncoded.get (codeParams v n a) "cu") = some "INR" := rfl
    have hnote : truthy (FormUrlEncoded.get (codeParams v n a) "tn") = none := by
      cases a <;> rfl
    rw [parseUpiQr, createMockUpiPayload_eq, if_pos (startsUpiPay_append _), query_serialize]
    simp only [FormUrlEncoded.parse_serialize, hvpa, hname, hcurrency, hnote, amount_codeParams,
      Option.getD_some]
  rw [hparse]
  refine ⟨rfl, rfl, rfl, rfl, rfl, ?_⟩
  cases a with
  | none => rfl
  | some a => exact scannedPaise_div (ha a rfl)

/-! ### A code -/

/-- A name with the characters that separate parameters. -/
theorem parse_createMockUpiPayload_of_separators :
    (parseUpiQr sampleBrowser (createMockUpiPayload "raofresh@upi" "Rao & Söhne = 100% #1+1"
      (some "50000"))).upiVpa = "raofresh@upi" ∧
    scannedPaise (parseUpiQr sampleBrowser (createMockUpiPayload "raofresh@upi"
      "Rao & Söhne = 100% #1+1" (some "50000"))).amount = some "50000" := by
  have h := parse_createMockUpiPayload sampleBrowser "raofresh@upi" "Rao & Söhne = 100% #1+1"
    (some 50000) (by decide) (by decide) (by decide)
  exact ⟨h.2.1, h.2.2.2.2.2⟩

end PayEra.Web
