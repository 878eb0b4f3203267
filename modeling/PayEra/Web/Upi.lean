import PayEra.Api.MerchantQrs
import PayEra.Lib.Url

/-!
# UPI codes in the browser

`apps/web/src/lib/upi-parser.ts`, the parser of `apps/web-landing/src/lib/upi.ts`, and what the pay
page makes of a code that it has scanned.
-/

namespace PayEra.Web

open Api (truthy)
open Decimal (Number)
open FormUrlEncoded (get)

/-- The parts of the browser that decide which hosts there are, and what bytes mean that are not
UTF-8. -/
structure Browser where
  hosts : Url.Hosts
  repair : FormUrlEncoded.Repair

structure UpiQrPayload where
  upiVpa : String
  merchantName : String
  amount : Option Number := none
  currency : String
  note : Option String := none
  isValid : Bool
  rawPayload : String

/-! ### The parser -/

def upiPay : List Char := ['u', 'p', 'i', ':', '/', '/', 'p', 'a', 'y']

/-- `rawText.toLowerCase().startsWith('upi://pay')`; no character beyond ASCII has one of these as its
small letter. -/
def startsUpiPay (s : List Char) : Bool := (s.take 9).map Char.toLower = upiPay

/-- The schemes that `/^(upi|UPI):\/\/pay/` takes. -/
def rewritten (s : List Char) : Bool :=
  upiPay.isPrefixOf s || ['U', 'P', 'I', ':', '/', '/', 'p', 'a', 'y'].isPrefixOf s

/-- `rawText.replace(/^(upi|UPI):\/\/pay/, 'http://pay')`. -/
def urlString (s : List Char) : List Char :=
  if rewritten s then ['h', 't', 't', 'p', ':', '/', '/', 'p', 'a', 'y'] ++ s.drop 9 else s

def invalid (rawText : String) : UpiQrPayload where
  upiVpa := ""
  merchantName := ""
  currency := "INR"
  isValid := false
  rawPayload := rawText

lemma isAlpha_pay : ∀ c ∈ ['p', 'a', 'y'], c.isAlpha := List.all_eq_true.mp (by decide)

lemma truthy_some {s : String} (h : s ≠ "") : truthy (some s) = some s := by
  simp [truthy, h]

variable (browser : Browser)

def parseUpiQr (rawText : String) : UpiQrPayload :=
  if startsUpiPay rawText.toList then
    match Url.query browser.hosts (urlString rawText.toList) with
    | none => invalid rawText
    | some query =>
      let params := FormUrlEncoded.parse browser.repair query
      match truthy (get params "pa") with
      | none => invalid rawText
      | some upiVpa =>
        { upiVpa
          merchantName := (truthy (get params "pn")).getD upiVpa
          amount := (truthy (get params "am")).bind fun amountStr => Decimal.parseFloat amountStr.toList
          currency := (truthy (get params "cu")).getD "INR"
          note := truthy (get params "tn")
          isValid := true
          rawPayload := rawText }
  else invalid rawText

/-- `/^[a-zA-Z0-9._-]+@[a-zA-Z0-9]+$/`. -/
def isUpiVpa (text : String) : Bool :=
  Words.test '@' ⟨Api.Merchants.isVpaChar, 1, none⟩ ⟨Char.isAlphanum, 1, none⟩ text.toList

namespace Landing

/-- The parser of the landing page. -/
def parseUpiQr (rawText : String) : UpiQrPayload :=
  if startsUpiPay rawText.toList then
    match Url.query browser.hosts (urlString rawText.toList) with
    | none => invalid rawText
    | some query =>
      let params := FormUrlEncoded.parse browser.repair query
      match truthy (get params "pa") with
      | none => invalid rawText
      | some upiVpa =>
        let result : UpiQrPayload :=
          { upiVpa
            merchantName := (truthy (get params "pn")).getD upiVpa
            currency := (truthy (get params "cu")).getD "INR"
            isValid := true
            rawPayload := rawText }
        let result :=
          { result with
            amount := (truthy (get params "am")).bind fun amountStr =>
              Decimal.parseFloat amountStr.toList }
        { result with note := truthy (get params "tn") }
  else invalid rawText

end Landing

/-! ### The pay page -/

/-- `if (parsed.amount) setAmountPaise((parsed.amount * 100).toFixed(0))`. -/
def scannedPaise : Option Number → Option String
  | none => none
  | some (.finite q) => if q = 0 then none else some (String.ofList (Decimal.toFixed (q * 100) 0))
  | some (.infinite negative) => some (if negative then "-Infinity" else "Infinity")

/-- A browser whose hosts are words of letters and digits. -/
def sampleBrowser : Browser where
  hosts :=
    { accepts := fun _ host => host.all Char.isAlphanum
      letters := fun _ host _ h => by
        rw [List.all_eq_true]
        intro c hc
        rw [Char.isAlphanum, h c hc, Bool.true_or] }
  repair := ⟨fun _ => "\uFFFD", fun _ _ => by decide⟩

end PayEra.Web
