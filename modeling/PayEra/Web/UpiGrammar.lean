import PayEra.Lib.Ascii
import PayEra.Web.Upi

/-!
# The grammar of UPI codes

Which texts the parser takes for codes, against the codes that there are: URIs with the scheme `upi`,
the authority `pay` and a payee.
-/

namespace PayEra.Web

open Api (truthy)
open FormUrlEncoded (get)
open Url (Uri)

/-! ### Codes -/

/-- Digits with or without decimals, not all of them zero. -/
def isPositiveDecimal (s : List Char) : Bool :=
  let whole := s.takeWhile Char.isDigit
  whole ≠ [] && s.any (fun c => c.isDigit && c ≠ '0') &&
    match s.dropWhile Char.isDigit with
    | [] => true
    | '.' :: fraction => fraction ≠ [] && fraction.all Char.isDigit
    | _ => false

section

variable (browser : Browser)

def params (query : List Char) : List (String × String) := FormUrlEncoded.parse browser.repair query

/-- A parameter `pa` with a value. -/
def Pays (query : List Char) : Prop := ∃ p ∈ params browser query, p.1 = "pa" ∧ p.2 ≠ ""

/-- The query of a URI with the scheme `upi`, the authority `pay` and no path but a slash. -/
structure HasQuery (s query : List Char) : Prop where
  exists_uri : ∃ u, Uri.split s = some u ∧ u.scheme.map Char.toLower = ['u', 'p', 'i'] ∧
    u.authority.map Char.toLower = ['p', 'a', 'y'] ∧ (u.path = [] ∨ u.path = ['/']) ∧
    u.query = some query

/-- The text is a code. -/
def IsUpi (s : List Char) : Prop := ∃ query, HasQuery s query ∧ Pays browser query

/-- The parser tells the codes from other texts, and takes only positive decimals for amounts. -/
structure Conforms (rawText : String) : Prop where
  isValid_iff : (parseUpiQr browser rawText).isValid = true ↔ IsUpi browser rawText.toList
  empty (h : ¬IsUpi browser rawText.toList) : (parseUpiQr browser rawText).upiVpa = ""
  amount (hvalid : (parseUpiQr browser rawText).isValid = true)
      (h : (parseUpiQr browser rawText).amount.isSome) :
    ∃ query amountStr, HasQuery rawText.toList query ∧
      get (params browser query) "am" = some amountStr ∧ isPositiveDecimal amountStr.toList

/-! ### Where the parser departs from them -/

/-- What follows `upi://pay`, without what the parser of URLs skips. -/
def tail (s : List Char) : List Char := Url.cleanEnd (s.drop 9)

/-- `pay` as the parser of URLs sees it. -/
def payHost (s : List Char) : List Char := if rewritten s then ['p', 'a', 'y'] else (s.take 9).drop 6

/-- The rest of the authority. -/
def surplus (s : List Char) : List Char := (tail s).takeWhile fun c => !Url.ends (rewritten s) c

/-- The first parameter `pa`, if it has a value. -/
def payee (query : List Char) : Option String := truthy (get (params browser query) "pa")

/-- How the parser departs from the grammar on a text that begins with `upi://pay` in any case. -/
inductive Departs (s : List Char) : Prop
  /-- What follows is no query, and not one after a slash: more of an authority, or of a path. -/
  | elsewhere (hquery : ∀ t, s.drop 9 ≠ '?' :: t ∧ s.drop 9 ≠ '/' :: '?' :: t)
      (hauthority : Url.validAuthority browser.hosts (rewritten s) (payHost s ++ surplus s) = true)
      (hpayee : (payee browser (Url.queryOf (tail s))).isSome)
  /-- The first `pa` is empty and another one is not, or what is skipped makes the difference. -/
  | payee (t : List Char) (hquery : s.drop 9 = '?' :: t ∨ s.drop 9 = '/' :: '?' :: t)
      (hpayee : ¬((payee browser (Url.queryOf (tail s))).isSome ↔
        Pays browser (t.takeWhile (· ≠ '#'))))
  /-- The amount begins with a number, but is none, or not a positive one. -/
  | amount (t : List Char) (hquery : s.drop 9 = '?' :: t ∨ s.drop 9 = '/' :: '?' :: t)
      (hpayee : (payee browser (Url.queryOf (tail s))).isSome) (amountStr : String)
      (hamount : get (params browser (Url.queryOf (tail s))) "am" = some amountStr)
      (hnumber : (Decimal.parseFloat amountStr.toList).isSome)
      (hwrong : ¬∃ written, get (params browser (t.takeWhile (· ≠ '#'))) "am" = some written ∧
        isPositiveDecimal written.toList)

end

variable {browser : Browser} {s scheme host r t query : List Char} {rawText : String}

/-! ### Texts that begin with `upi://pay` -/

/-- The parts of a text that begins with `upi://pay` in any case. -/
structure Begins (s scheme host r : List Char) : Prop where
  eq : s = scheme ++ ':' :: '/' :: '/' :: (host ++ r)
  scheme : scheme.map Char.toLower = ['u', 'p', 'i']
  host : host.map Char.toLower = ['p', 'a', 'y']

lemma isAlpha_upi : ∀ c ∈ ['u', 'p', 'i'], c.isAlpha := List.all_eq_true.mp (by decide)

lemma exists_begins (h : startsUpiPay s = true) : ∃ scheme host, Begins s scheme host (s.drop 9) := by
  have hhead : (s.take 9).map Char.toLower =
      ['u', 'p', 'i'] ++ ([':', '/', '/'] ++ ['p', 'a', 'y']) := of_decide_eq_true h
  obtain ⟨scheme, l, hs, hscheme, hl⟩ := List.map_eq_append_iff.mp hhead
  obtain ⟨slashes, host, rfl, hslashes, hhost⟩ := List.map_eq_append_iff.mp hl
  have hmarks : ∀ c ∈ [':', '/', '/'], c.isAlpha = false := by simp
  obtain rfl := Ascii.eq_of_map_toLower hmarks hslashes
  refine ⟨scheme, host, ?_, hscheme, hhost⟩
  conv_lhs => rw [← List.take_append_drop 9 s, hs]
  simp

lemma Begins.lengths (h : Begins s scheme host r) : scheme.length = 3 ∧ host.length = 3 := by
  have hscheme := congrArg List.length h.scheme
  have hhost := congrArg List.length h.host
  simpa using And.intro hscheme hhost

lemma Begins.starts (h : Begins s scheme host r) : startsUpiPay s = true := by
  obtain ⟨hscheme, hhost⟩ := h.lengths
  have htake : s.take 9 = scheme ++ ':' :: '/' :: '/' :: host := by
    rw [h.eq, List.take_append, hscheme]
    simp [hhost, List.take_of_length_le, hscheme]
  rw [startsUpiPay, htake, decide_eq_true_eq, List.map_append, h.scheme]
  simp [h.host, upiPay]

lemma Begins.drop (h : Begins s scheme host r) : s.drop 9 = r ∧ (s.take 9).drop 6 = host := by
  obtain ⟨hscheme, hhost⟩ := h.lengths
  rw [h.eq]
  constructor
  · rw [List.drop_append, hscheme, List.drop_of_length_le (by omega)]
    simp [hhost]
  · rw [List.take_append, hscheme, List.take_of_length_le (by omega)]
    simp [List.drop_append, hhost, hscheme]

lemma Begins.letters (h : Begins s scheme host r) :
    (∀ c ∈ scheme, c.isAlpha) ∧ ∀ c ∈ host, c.isAlpha :=
  ⟨Ascii.isAlpha_of_map_toLower isAlpha_upi h.scheme, Ascii.isAlpha_of_map_toLower isAlpha_pay h.host⟩

/-! ### Their queries -/

lemma hasQuery_iff : HasQuery s query ↔ startsUpiPay s = true ∧
    ∃ t, (s.drop 9 = '?' :: t ∨ s.drop 9 = '/' :: '?' :: t) ∧ query = t.takeWhile (· ≠ '#') := by
  constructor
  · rintro ⟨u, hu, hscheme, hauthority, hpath, hquery⟩
    obtain ⟨t, rfl, heq⟩ := Uri.eq_append hu hquery
    have hbegins : Begins s u.scheme u.authority (u.path ++ '?' :: t) := ⟨heq, hscheme, hauthority⟩
    refine ⟨hbegins.starts, t, ?_, rfl⟩
    rw [hbegins.drop.1]
    rcases hpath with hpath | hpath
    · left
      rw [hpath, List.nil_append]
    · right
      rw [hpath, List.singleton_append]
  · rintro ⟨hstarts, t, hdrop, rfl⟩
    obtain ⟨scheme, host, hbegins⟩ := exists_begins hstarts
    obtain ⟨hscheme, hhost⟩ := hbegins.letters
    have hnocolon : ∀ c ∈ scheme, (c = ':' || Url.ends false c) = false := by
      intro c hc
      have hne : c ≠ ':' := by
        rintro rfl
        exact absurd (hscheme _ hc) (by decide)
      simp [hne, Url.ends_letter (hscheme c hc)]
    have hnoend : ∀ c ∈ host, Url.ends false c = false := fun c hc => Url.ends_letter (hhost c hc)
    have hpath : ∃ path : List Char, (path = [] ∨ path = ['/']) ∧ s.drop 9 = path ++ '?' :: t := by
      rcases hdrop with hdrop | hdrop
      · exact ⟨[], .inl rfl, hdrop⟩
      · exact ⟨['/'], .inr rfl, hdrop⟩
    obtain ⟨path, hpath, heq⟩ := hpath
    have hs := hbegins.eq
    rw [heq] at hs
    have hsplit := Uri.split_append (t := t) hnocolon hnoend hpath
    rw [← hs] at hsplit
    exact ⟨_, hsplit, hbegins.scheme, hbegins.host, hpath, rfl⟩

/-- What the parser of URLs makes of such a text. -/
lemma query_urlString (h : startsUpiPay s = true) :
    Url.query browser.hosts (urlString s) =
      if Url.validAuthority browser.hosts (rewritten s) (payHost s ++ surplus s) then
        some (Url.queryOf (tail s))
      else none := by
  obtain ⟨scheme, host, hbegins⟩ := exists_begins h
  by_cases hrewritten : rewritten s = true
  · have hslashes : ∀ c ∈ ['/', '/', 'p', 'a', 'y'], Url.blank c = false := by simp [Url.blank]
    have hclean : Url.cleanEnd ('/' :: '/' :: 'p' :: 'a' :: 'y' :: s.drop 9) =
        '/' :: '/' :: 'p' :: 'a' :: 'y' :: tail s := Url.cleanEnd_append hslashes
    have hurl : urlString s =
        ['h', 't', 't', 'p'] ++ ':' :: '/' :: '/' :: 'p' :: 'a' :: 'y' :: s.drop 9 := by
      rw [urlString, if_pos hrewritten]
      rfl
    rw [hurl, Url.query_http, hclean, payHost, if_pos hrewritten, surplus, hrewritten]
    show Url.afterSlashes _ true (['p', 'a', 'y'] ++ tail s) = _
    exact Url.afterSlashes_letters isAlpha_pay
  · obtain ⟨hscheme, hhost⟩ := hbegins.letters
    have hslashes : ∀ c ∈ '/' :: '/' :: host, Url.blank c = false := by
      intro c hc
      simp only [List.mem_cons] at hc
      rcases hc with rfl | rfl | hc
      · rfl
      · rfl
      · exact Url.blank_letter (hhost c hc)
    have hclean : Url.cleanEnd ('/' :: '/' :: (host ++ s.drop 9)) = '/' :: '/' :: (host ++ tail s) :=
      Url.cleanEnd_append hslashes
    have hcolon : ':' ∉ scheme := fun hmem => absurd (hscheme _ hmem) (by decide)
    have hvalid : Url.validScheme (scheme.map Char.toLower) = true := by
      rw [hbegins.scheme]
      decide
    have hspecial : ¬Url.special (scheme.map Char.toLower) = true := by
      rw [hbegins.scheme]
      decide
    have hslash : ['/', '/'].isPrefixOf ('/' :: '/' :: (host ++ tail s)) = true := by
      simp [List.isPrefixOf]
    have hquery : Url.query browser.hosts (scheme ++ ':' :: '/' :: '/' :: (host ++ s.drop 9)) = _ :=
      Url.query_scheme hvalid (fun c hc => Url.blank_letter (hscheme c hc)) hcolon
    rw [← hbegins.eq, if_neg hspecial, hclean, if_pos hslash] at hquery
    rw [urlString, if_neg hrewritten, hquery, payHost, if_neg hrewritten, hbegins.drop.2, surplus]
    rw [Bool.not_eq_true] at hrewritten
    rw [hrewritten]
    exact Url.afterSlashes_letters hhost

/-- A query ends the authority. -/
lemma surplus_eq_nil (h : s.drop 9 = '?' :: t ∨ s.drop 9 = '/' :: '?' :: t) : surplus s = [] := by
  have hclean (c : Char) (hc : Url.blank c = false) (t : List Char) :
      Url.cleanEnd (c :: t) = c :: Url.cleanEnd t :=
    Url.cleanEnd_append (a := [c]) (by simpa using hc)
  rcases h with h | h
  · rw [surplus, tail, h, hclean _ (by decide)]
    simp [Url.ends]
  · rw [surplus, tail, h, hclean _ (by decide)]
    simp [Url.ends]

lemma validAuthority_payHost (h : startsUpiPay s = true) (isSpecial : Bool) :
    Url.validAuthority browser.hosts isSpecial (payHost s) = true := by
  obtain ⟨scheme, host, hbegins⟩ := exists_begins h
  rw [payHost]
  split_ifs
  · exact Url.validAuthority_letters (by decide) isAlpha_pay
  · rw [hbegins.drop.2]
    refine Url.validAuthority_letters ?_ hbegins.letters.2
    rw [← List.length_pos_iff, hbegins.lengths.2]
    decide

/-! ### What the parser takes -/

/-- The parser takes the text for a code. -/
structure Takes (browser : Browser) (s : List Char) : Prop where
  starts : startsUpiPay s = true
  authority : Url.validAuthority browser.hosts (rewritten s) (payHost s ++ surplus s) = true
  payee : (payee browser (Url.queryOf (tail s))).isSome

lemma parse_of_takes (h : Takes browser rawText.toList) :
    (parseUpiQr browser rawText).isValid = true ∧
    (parseUpiQr browser rawText).amount =
      (truthy (get (params browser (Url.queryOf (tail rawText.toList))) "am")).bind fun amountStr =>
        Decimal.parseFloat amountStr.toList := by
  obtain ⟨vpa, hvpa⟩ := Option.isSome_iff_exists.mp h.payee
  have hpa : truthy (get (FormUrlEncoded.parse browser.repair
      (Url.queryOf (tail rawText.toList))) "pa") = some vpa := hvpa
  rw [parseUpiQr, if_pos h.starts, query_urlString h.starts, if_pos h.authority]
  simp only [hpa, true_and]
  rfl

lemma parse_of_not_takes (h : ¬Takes browser rawText.toList) :
    parseUpiQr browser rawText = invalid rawText := by
  rw [parseUpiQr]
  split_ifs with hstarts
  · rw [query_urlString hstarts]
    split_ifs with hauthority
    · have hpa : truthy (get (FormUrlEncoded.parse browser.repair
          (Url.queryOf (tail rawText.toList))) "pa") = none := by
        by_contra hsome
        exact h ⟨hstarts, hauthority, Option.isSome_iff_ne_none.mpr hsome⟩
      simp only [hpa]
    · rfl
  · rfl

lemma isValid_iff : (parseUpiQr browser rawText).isValid = true ↔ Takes browser rawText.toList := by
  constructor
  · intro h
    by_contra hno
    rw [parse_of_not_takes hno] at h
    cases h
  · exact fun h => (parse_of_takes h).1

lemma takes_iff (hstarts : startsUpiPay s = true)
    (hquery : s.drop 9 = '?' :: t ∨ s.drop 9 = '/' :: '?' :: t) :
    Takes browser s ↔ (payee browser (Url.queryOf (tail s))).isSome := by
  constructor
  · exact fun h => h.payee
  · intro h
    refine ⟨hstarts, ?_, h⟩
    rw [surplus_eq_nil hquery, List.append_nil]
    exact validAuthority_payHost hstarts _

/-- The query of a text is what follows its first question mark. -/
lemma hasQuery_unique {t' : List Char} (h : s.drop 9 = '?' :: t ∨ s.drop 9 = '/' :: '?' :: t)
    (h' : s.drop 9 = '?' :: t' ∨ s.drop 9 = '/' :: '?' :: t') : t = t' := by
  rcases h with h | h <;> rcases h' with h' | h' <;> simp_all

lemma isUpi_iff (hstarts : startsUpiPay s = true)
    (hquery : s.drop 9 = '?' :: t ∨ s.drop 9 = '/' :: '?' :: t) :
    IsUpi browser s ↔ Pays browser (t.takeWhile (· ≠ '#')) := by
  constructor
  · rintro ⟨query, hhas, hpays⟩
    obtain ⟨-, t', hquery', rfl⟩ := hasQuery_iff.mp hhas
    rwa [hasQuery_unique hquery hquery']
  · exact fun h => ⟨_, hasQuery_iff.mpr ⟨hstarts, t, hquery, rfl⟩, h⟩

/-! ### Where it is right -/

lemma bind_parseFloat {amountStr : String} (hnumber : (Decimal.parseFloat amountStr.toList).isSome) :
    (truthy (some amountStr)).bind (fun amountStr => Decimal.parseFloat amountStr.toList) =
      Decimal.parseFloat amountStr.toList := by
  have hne : amountStr ≠ "" := by
    rintro rfl
    cases hnumber
  rw [truthy_some hne, Option.bind_some]

/-- An amount is one of a parameter. -/
lemma exists_amountStr {o : Option String}
    (h : ((truthy o).bind fun amountStr => Decimal.parseFloat amountStr.toList).isSome) :
    ∃ amountStr, o = some amountStr ∧ (Decimal.parseFloat amountStr.toList).isSome := by
  cases o with
  | none => cases h
  | some amountStr =>
    by_cases hempty : amountStr = ""
    · subst hempty
      cases h
    · rw [truthy_some hempty, Option.bind_some] at h
      exact ⟨amountStr, rfl, h⟩

lemma not_departs (h : Conforms browser rawText) (hstarts : startsUpiPay rawText.toList = true) :
    ¬Departs browser rawText.toList := by
  intro hdeparts
  cases hdeparts with
  | elsewhere hquery hauthority hpayee =>
    obtain ⟨query, hhas, -⟩ := h.isValid_iff.mp (isValid_iff.mpr ⟨hstarts, hauthority, hpayee⟩)
    obtain ⟨-, t, hdrop, -⟩ := hasQuery_iff.mp hhas
    rcases hdrop with hdrop | hdrop
    · exact (hquery t).1 hdrop
    · exact (hquery t).2 hdrop
  | payee t hquery hpayee =>
    apply hpayee
    rw [← takes_iff hstarts hquery, ← isUpi_iff hstarts hquery, ← h.isValid_iff, isValid_iff]
  | amount t hquery hpayee amountStr hamount hnumber hwrong =>
    have htakes := (takes_iff hstarts hquery).mpr hpayee
    obtain ⟨hvalid, heq⟩ := parse_of_takes htakes
    rw [hamount, bind_parseFloat hnumber] at heq
    rw [← heq] at hnumber
    obtain ⟨query, written, hhas, hwritten, hpositive⟩ := h.amount hvalid hnumber
    obtain ⟨-, t', hquery', rfl⟩ := hasQuery_iff.mp hhas
    obtain rfl := hasQuery_unique hquery hquery'
    exact hwrong ⟨written, hwritten, hpositive⟩

lemma not_isUpi (h : startsUpiPay s ≠ true) : ¬IsUpi browser s := by
  rintro ⟨query, hhas, -⟩
  exact h (hasQuery_iff.mp hhas).1

lemma conforms_of_not_starts (h : startsUpiPay rawText.toList ≠ true) : Conforms browser rawText := by
  have hno : ¬Takes browser rawText.toList := fun htakes => h htakes.starts
  have hparse := parse_of_not_takes hno
  refine ⟨⟨fun hvalid => ?_, fun hupi => ?_⟩, fun _ => ?_, fun hvalid => ?_⟩
  · exact absurd (isValid_iff.mp hvalid) hno
  · exact absurd hupi (not_isUpi h)
  · rw [hparse]
    rfl
  · exact absurd (isValid_iff.mp hvalid) hno

lemma conforms_of_not_departs (hstarts : startsUpiPay rawText.toList = true)
    (h : ¬Departs browser rawText.toList) : Conforms browser rawText := by
  by_cases hquery : ∃ t, rawText.toList.drop 9 = '?' :: t ∨ rawText.toList.drop 9 = '/' :: '?' :: t
  · obtain ⟨t, hquery⟩ := hquery
    have hpayee : (payee browser (Url.queryOf (tail rawText.toList))).isSome ↔
        Pays browser (t.takeWhile (· ≠ '#')) := by
      by_contra hno
      exact h (.payee t hquery hno)
    have htakes : Takes browser rawText.toList ↔ IsUpi browser rawText.toList := by
      rw [takes_iff hstarts hquery, isUpi_iff hstarts hquery, hpayee]
    refine ⟨isValid_iff.trans htakes, fun hno => ?_, fun hvalid hamount => ?_⟩
    · rw [parse_of_not_takes (mt htakes.mp hno)]
      rfl
    · have htaken := isValid_iff.mp hvalid
      rw [(parse_of_takes htaken).2] at hamount
      obtain ⟨amountStr, hget, hnumber⟩ := exists_amountStr hamount
      by_contra hwrong
      refine h (.amount t hquery htaken.payee amountStr hget hnumber fun hwritten => hwrong ?_)
      obtain ⟨written, hwritten, hpositive⟩ := hwritten
      exact ⟨_, written, hasQuery_iff.mpr ⟨hstarts, t, hquery, rfl⟩, hwritten, hpositive⟩
  · rw [not_exists] at hquery
    have hno : ¬Takes browser rawText.toList := fun htakes =>
      h (.elsewhere (fun t => not_or.mp (hquery t)) htakes.authority htakes.payee)
    have hupi : ¬IsUpi browser rawText.toList := by
      rintro ⟨query, hhas, -⟩
      obtain ⟨-, t, hdrop, -⟩ := hasQuery_iff.mp hhas
      exact hquery t hdrop
    refine ⟨⟨fun hvalid => absurd (isValid_iff.mp hvalid) hno, fun h => absurd h hupi⟩, fun _ => ?_,
      fun hvalid => absurd (isValid_iff.mp hvalid) hno⟩
    rw [parse_of_not_takes hno]
    rfl

lemma landing_parseUpiQr : Landing.parseUpiQr browser rawText = parseUpiQr browser rawText := rfl

/-- **The grammar.** Both parsers tell the codes from other texts, and their amounts from other
numbers, exactly on the texts that do not begin with `upi://pay`, or where they depart in none of the
three ways. -/
theorem parseUpiQr_conforms_iff (browser : Browser) (rawText : String) :
    Landing.parseUpiQr browser rawText = parseUpiQr browser rawText ∧
    (Conforms browser rawText ↔
      (startsUpiPay rawText.toList = true → ¬Departs browser rawText.toList)) := by
  refine ⟨landing_parseUpiQr, fun h hstarts => not_departs h hstarts, fun h => ?_⟩
  by_cases hstarts : startsUpiPay rawText.toList = true
  · exact conforms_of_not_departs hstarts (h hstarts)
  · exact conforms_of_not_starts hstarts

/-- `pay` is only the beginning of the authority. -/
theorem payments_passes_for_pay : ¬∀ browser rawText, Conforms browser rawText := by
  intro h
  have hpays : Url.queryOf (tail "upi://payments?pa=shop%40upi".toList) =
      FormUrlEncoded.serialize [("pa", "shop@upi")] := by decide
  apply not_departs (h sampleBrowser "upi://payments?pa=shop%40upi") (by decide)
  apply Departs.elsewhere
  · intro t
    constructor <;> intro hdrop <;> cases hdrop
  · decide
  · rw [payee, params, hpays, FormUrlEncoded.parse_serialize]
    rfl

end PayEra.Web
