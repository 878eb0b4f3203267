import PayEra.Web.Upi

/-!
# VPAs that are scanned and looked up

The two validators of VPAs against each other, and the lookup of a VPA as it was scanned against the
VPAs as they are stored.
-/

namespace PayEra.Web

open Api.Merchants

/-! ### The validators -/

/-- Two words of the characters of VPAs. -/
structure Shape (s x y : List Char) : Prop where
  eq : s = x ++ '@' :: y
  first : x ≠ [] ∧ ∀ c ∈ x, isVpaChar c = true
  second : y ≠ [] ∧ ∀ c ∈ y, isVpaChar c = true

/-- Where the validators agree on a text: it has not this shape, or its words are as long as the API
wants them exactly if the second one is as the client wants it. -/
def Agreeable (s : List Char) : Prop :=
  ∀ x y, Shape s x y →
    ((2 ≤ x.length ∧ x.length ≤ 256) ∧ (2 ≤ y.length ∧ y.length ≤ 64) ↔ ∀ c ∈ y, c.isAlphanum = true)

/-! ### The lookup -/

/-- The merchant is approved, and has the VPA, in any case of its letters, or an active code for it. -/
structure Serves (d : Shop) (vpa : String) (r : MerchantRow) : Prop where
  mem : r ∈ d.books.merchants
  approved : r.status = .APPROVED
  vpa : (∃ v ∈ r.defaultUpiVpa, v.toLower = vpa.toLower) ∨
    ∃ q ∈ d.qrCodes, q.isActive = true ∧ q.merchantId = r.id ∧ q.upiVpa.toLower = vpa.toLower

/-- Whenever there is a merchant with the VPA that was scanned, one is found. -/
def Found (p : Platform) (vpa : String) : Prop :=
  ∀ d, (shops p).Reachable d → (∃ r, Serves d vpa r) →
    ∃ r, MerchantsService.findByUpiVpa vpa d = some r ∧ Serves d vpa r

section

variable {p : Platform} {d : Shop} {s vpa : String} {r : MerchantRow}

/-! ### Where the validators agree -/

lemma test_isUpiVpa : IsUpiVpa s = true ↔
    ∃ x y, Shape s.toList x y ∧ (2 ≤ x.length ∧ x.length ≤ 256) ∧ 2 ≤ y.length ∧ y.length ≤ 64 := by
  rw [IsUpiVpa, Words.test_iff (by decide)]
  simp only [Words.Word.test, Bool.and_eq_true, List.all_eq_true, decide_eq_true_eq, Option.all_some]
  constructor
  · rintro ⟨x, y, heq, ⟨⟨hx, hx₁⟩, hx₂⟩, ⟨hy, hy₁⟩, hy₂⟩
    refine ⟨x, y, ⟨heq, ⟨?_, hx⟩, ?_, hy⟩, ⟨hx₁, hx₂⟩, hy₁, hy₂⟩
    · exact List.ne_nil_of_length_pos (by omega)
    · exact List.ne_nil_of_length_pos (by omega)
  · rintro ⟨x, y, hshape, ⟨hx₁, hx₂⟩, hy₁, hy₂⟩
    exact ⟨x, y, hshape.eq, ⟨⟨hshape.first.2, hx₁⟩, hx₂⟩, ⟨hshape.second.2, hy₁⟩, hy₂⟩

lemma isVpaChar_of_isAlphanum {c : Char} (h : c.isAlphanum = true) : isVpaChar c = true := by
  simp [isVpaChar, h]

lemma test_client : isUpiVpa s = true ↔
    ∃ x y, Shape s.toList x y ∧ ∀ c ∈ y, c.isAlphanum = true := by
  rw [isUpiVpa, Words.test_iff (by decide)]
  simp only [Words.Word.test, Bool.and_eq_true, List.all_eq_true, decide_eq_true_eq, Option.all_none,
    and_true]
  constructor
  · rintro ⟨x, y, heq, ⟨hx, hx₁⟩, hy, hy₁⟩
    refine ⟨x, y, ⟨heq, ⟨?_, hx⟩, ?_, fun c hc => isVpaChar_of_isAlphanum (hy c hc)⟩, hy⟩
    · exact List.ne_nil_of_length_pos (by omega)
    · exact List.ne_nil_of_length_pos (by omega)
  · rintro ⟨x, y, hshape, hy⟩
    have hx₁ := List.length_pos_of_ne_nil hshape.first.1
    have hy₁ := List.length_pos_of_ne_nil hshape.second.1
    exact ⟨x, y, hshape.eq, ⟨hshape.first.2, hx₁⟩, hy, hy₁⟩

/-- A text has the shape in one way only. -/
lemma Shape.unique {l x y x' y' : List Char} (h : Shape l x y) (h' : Shape l x' y') :
    x = x' ∧ y = y' := by
  have hno (x : List Char) (hx : ∀ c ∈ x, isVpaChar c = true) : '@' ∉ x := fun hmem =>
    absurd (hx _ hmem) (by decide)
  obtain ⟨hx, hy⟩ := Words.split_append (y := y) (hno x h.first.2)
  obtain ⟨hx', hy'⟩ := Words.split_append (y := y') (hno x' h'.first.2)
  rw [← h.eq, h'.eq] at hx hy
  exact ⟨hx.symm.trans hx', hy.symm.trans hy'⟩

lemma validators_agree_iff : (IsUpiVpa s = true ↔ isUpiVpa s = true) ↔ Agreeable s.toList := by
  rw [test_isUpiVpa, test_client]
  constructor
  · intro h x y hshape
    constructor
    · intro hlengths
      obtain ⟨x', y', hshape', hy'⟩ := h.mp ⟨x, y, hshape, hlengths⟩
      rwa [(hshape.unique hshape').2]
    · intro hy
      obtain ⟨x', y', hshape', hlengths⟩ := h.mpr ⟨x, y, hshape, hy⟩
      obtain ⟨rfl, rfl⟩ := hshape.unique hshape'
      exact hlengths
  · intro h
    constructor
    · rintro ⟨x, y, hshape, hlengths⟩
      exact ⟨x, y, hshape, (h x y hshape).mp hlengths⟩
    · rintro ⟨x, y, hshape, hy⟩
      exact ⟨x, y, hshape, (h x y hshape).mpr hy⟩

/-! ### Where the lookup finds merchants -/

lemma hasVpa_iff : MerchantsService.hasVpa vpa d r = true ↔
    r.defaultUpiVpa = some vpa ∨ ∃ q ∈ d.qrCodes, q.merchantId = r.id ∧ q.upiVpa = vpa := by
  simp [MerchantsService.hasVpa]

/-- A stored VPA is the small one. -/
lemma eq_toLower {v : String} (hv : Small v) (h : v.toLower = vpa.toLower) : v = vpa.toLower := by
  rw [← h]
  exact hv.symm

/-- The merchants that the lookup takes are those that serve the VPA, if it is a small one. -/
lemma hasVpa_iff_serves (hd : Tidy d) (hsmall : Small vpa) (hr : r ∈ d.books.merchants)
    (happroved : r.status = .APPROVED) : MerchantsService.hasVpa vpa d r = true ↔ Serves d vpa r := by
  rw [hasVpa_iff]
  constructor
  · rintro (hdefault | ⟨q, hq, hid, hvpa⟩)
    · exact ⟨hr, happroved, .inl ⟨vpa, hdefault, rfl⟩⟩
    · exact ⟨hr, happroved, .inr ⟨q, hq, (hd.qrCodes q hq).2, hid, congrArg String.toLower hvpa⟩⟩
  · rintro ⟨-, -, ⟨v, hv, hvpa⟩ | ⟨q, hq, -, hid, hvpa⟩⟩
    · left
      have heq := eq_toLower (hd.merchants r hr v hv) hvpa
      rw [hsmall] at heq
      rw [← heq]
      exact hv
    · right
      have heq := eq_toLower (hd.qrCodes q hq).1 hvpa
      rw [hsmall] at heq
      exact ⟨q, hq, hid, heq⟩

lemma found_of_small (hsmall : Small vpa) : Found p vpa := by
  rintro d hd ⟨r, hr⟩
  have htidy := tidy_reachable hd
  cases hfound : MerchantsService.findByUpiVpa vpa d with
  | none =>
    have hno := List.find?_eq_none.mp hfound r hr.mem
    rw [(hasVpa_iff_serves htidy hsmall hr.mem hr.approved).mpr hr, hr.approved] at hno
    exact absurd rfl hno
  | some r' =>
    have hmem := List.mem_of_find?_eq_some hfound
    have htaken := List.find?_some hfound
    rw [Bool.and_eq_true, decide_eq_true_eq] at htaken
    exact ⟨r', rfl, (hasVpa_iff_serves htidy hsmall hmem htaken.2).mp htaken.1⟩

/-- A merchant with the VPA. -/
def merchantOf (vpa : String) : MerchantRow where
  id := ⟨List.replicate 32 '0', rfl, fun _ hc => (List.mem_replicate.mp hc).2 ▸ .inl (by decide)⟩
  ownerUserId := none
  displayName := ""
  defaultUpiVpa := some vpa.toLower
  status := .APPROVED

/-- A capital letter is never found. -/
lemma small_of_found (h : Found p vpa) : Small vpa := by
  by_contra hcapital
  have hreach (storage : MerchantRegistry.Storage) : (shops p).Reachable
      { books := { merchants := [merchantOf vpa], registry := storage } } := by
    apply Transition.System.Reachable.init
    refine ⟨fun r hr v hv => ?_, fun q hq => absurd hq List.not_mem_nil⟩
    obtain rfl := List.mem_singleton.mp hr
    obtain rfl := Option.some.inj hv
    exact small_toLower vpa
  have hserves : Serves { books := { merchants := [merchantOf vpa], registry := {} } } vpa
      (merchantOf vpa) := ⟨List.mem_singleton_self _, rfl, .inl ⟨vpa.toLower, rfl, small_toLower vpa⟩⟩
  obtain ⟨r, hfound, -⟩ := h _ (hreach {}) ⟨_, hserves⟩
  have htaken := List.find?_some hfound
  rw [Bool.and_eq_true, hasVpa_iff] at htaken
  obtain rfl := List.mem_singleton.mp (List.mem_of_find?_eq_some hfound)
  rcases htaken.1 with hdefault | ⟨q, hq, -⟩
  · exact hcapital (Option.some.inj hdefault)
  · cases hq

end

/-- **VPAs.** The validators agree on a text exactly if it is agreeable, and the lookup finds the
merchants of exactly the VPAs without capital letters. -/
theorem vpa_agreement_iff (p : Platform) :
    (∀ s : String, (IsUpiVpa s = true ↔ isUpiVpa s = true) ↔ Agreeable s.toList) ∧
    ∀ vpa : String, Found p vpa ↔ Small vpa :=
  ⟨fun _ => validators_agree_iff, fun _ => ⟨small_of_found, found_of_small⟩⟩

/-! ### A capital letter -/

def sampleOwner : Api.Principal := ⟨"owner", .MERCHANT_OPERATOR⟩

def sampleDraw : Draw := ⟨⟨0, 0, 0⟩, (merchantOf "").id, "qr"⟩

def sampleRegistration : ShopRequest :=
  .create sampleOwner { displayName := "Shop", defaultUpiVpa := some "Shop@upi" }

def sampleApproval : ShopRequest := .review (.approve ⟨"admin", .ADMIN⟩ sampleDraw.merchantId)

/-- A merchant registers with the VPA, and is approved. -/
def sampleShop (p : Platform) : Shop :=
  sampleApproval.after p sampleDraw
    (sampleRegistration.after p sampleDraw { books := { merchants := [], registry := {} } })

lemma reachable_sampleShop (p : Platform) : (shops p).Reachable (sampleShop p) := by
  have hempty : (shops p).Reachable { books := { merchants := [], registry := {} } } := by
    apply Transition.System.Reachable.init
    exact ⟨fun r hr => absurd hr List.not_mem_nil, fun q hq => absurd hq List.not_mem_nil⟩
  have hregistered := hempty.step (l := (sampleRegistration, sampleDraw)) ⟨by decide, rfl⟩
  exact hregistered.step (l := (sampleApproval, sampleDraw)) ⟨rfl, rfl⟩

/-- The row that there is then. -/
def sampleRow : MerchantRow :=
  { merchantOf "Shop@upi" with
    ownerUserId := some "owner"
    displayName := "Shop"
    defaultUpiVpa := some (MerchantsService.normalizeUpiVpa "Shop@upi")
    approvedAt := some 0
    approvedByAdminId := some "admin" }

lemma serves_sampleRow (p : Platform) : Serves (sampleShop p) "Shop@upi" sampleRow := by
  refine ⟨List.mem_singleton_self _, rfl, .inl ⟨_, rfl, ?_⟩⟩
  rw [normalizeUpiVpa_eq (by decide)]
  exact small_toLower _

lemma not_small_sample : ¬Small "Shop@upi" := by
  intro h
  have hlist := congrArg String.toList h
  rw [Ascii.toList_toLower] at hlist
  exact absurd hlist (by decide)

lemma not_found_sample (p : Platform) : MerchantsService.findByUpiVpa "Shop@upi" (sampleShop p) = none := by
  have hno : MerchantsService.hasVpa "Shop@upi" (sampleShop p) sampleRow = false := by
    rw [← Bool.not_eq_true, hasVpa_iff]
    rintro (hdefault | ⟨q, hq, -⟩)
    · apply not_small_sample
      rw [Api.Merchants.Small, ← normalizeUpiVpa_eq (by decide)]
      exact Option.some.inj hdefault
    · cases hq
  rw [MerchantsService.findByUpiVpa, List.find?_eq_none]
  intro r hr
  obtain rfl : r = sampleRow := List.mem_singleton.mp hr
  simp [hno]

/-- A handle with a dot divides the validators, and the merchant that has registered with a capital
letter is not found by it. -/
theorem scanned_capital_is_not_found :
    ¬(∀ s : String, IsUpiVpa s = true ↔ isUpiVpa s = true) ∧
    ∀ p, ¬∀ vpa : String, IsUpiVpa vpa = true → isUpiVpa vpa = true → Found p vpa := by
  constructor
  · intro h
    have hclient : isUpiVpa "shop@ok.bank" = true := (h "shop@ok.bank").mp (by decide)
    exact absurd hclient (by decide)
  · intro p h
    obtain ⟨r, hfound, -⟩ := h "Shop@upi" (by decide) (by decide) (sampleShop p)
      (reachable_sampleShop p) ⟨sampleRow, serves_sampleRow p⟩
    rw [not_found_sample] at hfound
    cases hfound

end PayEra.Web
