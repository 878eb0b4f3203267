import PayEra.Api.Merchants
import PayEra.Lib.Ascii
import PayEra.Lib.Decimal
import PayEra.Lib.FormUrlEncoded
import PayEra.Lib.Words

/-!
# The VPAs of merchants

The rest of `apps/api/src/merchants/merchants.service.ts` that stores VPAs and looks them up: a
merchant is created with one, gets codes for others, and is found by any of them.
-/

namespace PayEra.Api.Merchants

/-! ### Validators -/

/-- `[a-zA-Z0-9._-]`. -/
def isVpaChar (c : Char) : Bool := c.isAlphanum || c = '.' || c = '_' || c = '-'

/-- `/^[a-zA-Z0-9._-]{2,256}@[a-zA-Z0-9._-]{2,64}$/`. -/
def IsUpiVpa (s : String) : Bool :=
  Words.test '@' ⟨isVpaChar, 2, some 256⟩ ⟨isVpaChar, 2, some 64⟩ s.toList

/-! ### Rows and requests -/

structure MerchantQrRow where
  id : String
  merchantId : Uuid
  upiVpa : String
  qrPayload : String
  qrPayloadHash : String
  defaultAmountPaise : Option ℕ
  isActive : Bool := true
  metadata : Metadata := []
  deriving DecidableEq

/-- The tables, with the column `gstin` of the merchants. -/
structure Shop where
  books : Books
  qrCodes : List MerchantQrRow := []
  gstins : List String := []

structure CreateMerchantDto where
  ownerUserId : Option String := none
  displayName : String
  defaultUpiVpa : Option String := none
  category : Option String := none
  city : Option String := none
  state : Option String := none
  country : Option String := none
  postalCode : Option String := none
  gstin : Option String := none
  metadata : Option Metadata := none

structure CreateMerchantQrDto where
  upiVpa : String
  defaultAmountPaise : Option String := none
  metadata : Option Metadata := none
  qrPayload : Option String := none

namespace MerchantsService

/-! ### Merchants -/

def newMerchant (id : Uuid) (owner : Principal) (dto : CreateMerchantDto) : MerchantRow where
  id := id
  ownerUserId :=
    if owner.role = .ADMIN then some (dto.ownerUserId.getD owner.id) else some owner.id
  displayName := dto.displayName
  defaultUpiVpa := dto.defaultUpiVpa.map normalizeUpiVpa
  category := dto.category
  city := dto.city
  state := dto.state
  country := dto.country.getD "IN"
  postalCode := dto.postalCode
  metadata := dto.metadata.getD []

/-- `merchant.create`; the VPA and the number of the tax are unique. -/
def create (id : Uuid) (owner : Principal) (dto : CreateMerchantDto) (d : Shop) :
    Except ReviewError (MerchantRow × Shop) :=
  let row := newMerchant id owner dto
  if row.defaultUpiVpa.isSome ∧ (d.books.merchants.any fun r => r.defaultUpiVpa = row.defaultUpiVpa) then
    .error .uniqueConstraint
  else if dto.gstin.any d.gstins.contains then .error .uniqueConstraint
  else
    .ok (row,
      { d with
        books := { d.books with merchants := d.books.merchants ++ [row] }
        gstins := d.gstins ++ dto.gstin.toList })

/-! ### Codes -/

/-- `Number(amountPaise)` of a string of digits. -/
def number (amountPaise : String) : ℚ := Decimal.value amountPaise.toList

def createMockUpiPayload (upiVpa payeeName : String) (amountPaise : Option String) : String :=
  let params := [("cu", "INR"), ("pa", upiVpa), ("pn", payeeName)]
  let params :=
    match amountPaise with
    | none => params
    | some amountPaise =>
      FormUrlEncoded.set params "am" (String.ofList (Decimal.toFixed (number amountPaise / 100) 2))
  String.ofList (['u', 'p', 'i', ':', '/', '/', 'p', 'a', 'y', '?'] ++ FormUrlEncoded.serialize params)

def newQr (p : Platform) (id : String) (merchant : MerchantRow) (dto : CreateMerchantQrDto) :
    MerchantQrRow :=
  let upiVpa := normalizeUpiVpa dto.upiVpa
  let qrPayload :=
    dto.qrPayload.getD (createMockUpiPayload upiVpa merchant.displayName dto.defaultAmountPaise)
  { id
    merchantId := merchant.id
    upiVpa
    qrPayload
    qrPayloadHash := p.sha256 qrPayload
    defaultAmountPaise := dto.defaultAmountPaise.map fun a => Decimal.value a.toList
    metadata := dto.metadata.getD [] }

/-- The hash of a payload is unique. -/
def createQr (p : Platform) (id : String) (owner : Principal) (merchantId : Uuid)
    (dto : CreateMerchantQrDto) (d : Shop) : Except ReviewError (MerchantQrRow × Shop) := do
  let merchant ← findOne owner merchantId d.books
  let row := newQr p id merchant dto
  if d.qrCodes.any fun q => q.qrPayloadHash = row.qrPayloadHash then throw .uniqueConstraint
  pure (row, { d with qrCodes := d.qrCodes ++ [row] })

/-! ### The lookup -/

/-- `OR: [{ defaultUpiVpa: upiVpa }, { qrCodes: { some: { upiVpa } } }]`. -/
def hasVpa (upiVpa : String) (d : Shop) (r : MerchantRow) : Bool :=
  decide (r.defaultUpiVpa = some upiVpa) ||
    d.qrCodes.any fun q => decide (q.merchantId = r.id ∧ q.upiVpa = upiVpa)

def findByUpiVpa (upiVpa : String) (d : Shop) : Option MerchantRow :=
  d.books.merchants.find? fun r => hasVpa upiVpa d r && decide (r.status = .APPROVED)

end MerchantsService

/-! ### The requests -/

/-- What writes VPAs, or the rows that have them. -/
inductive ShopRequest where
  | review (r : Review)
  | create (owner : Principal) (dto : CreateMerchantDto)
  | createQr (owner : Principal) (merchantId : Uuid) (dto : CreateMerchantQrDto)

/-- The VPA of a request passes its validator. -/
def ShopRequest.valid : ShopRequest → Bool
  | .review (.update _ _ dto) => dto.defaultUpiVpa.all IsUpiVpa
  | .review _ => true
  | .create _ dto => dto.defaultUpiVpa.all IsUpiVpa
  | .createQr _ _ dto => IsUpiVpa dto.upiVpa

/-- When a request is made, and the ids that it draws. -/
structure Draw where
  moment : Moment
  merchantId : Uuid
  qrId : String

/-- A request that throws has changed nothing. -/
def ShopRequest.after (p : Platform) (x : Draw) (r : ShopRequest) (d : Shop) : Shop :=
  match r with
  | .review r => { d with books := r.after p x.moment d.books }
  | .create owner dto =>
    match MerchantsService.create x.merchantId owner dto d with
    | .ok (_, d') => d'
    | .error _ => d
  | .createQr owner merchantId dto =>
    match MerchantsService.createQr p x.qrId owner merchantId dto d with
    | .ok (_, d') => d'
    | .error _ => d

/-- A VPA without capital letters. -/
def Small (vpa : String) : Prop := vpa.toLower = vpa

/-- The VPAs are stored as they are normalized, and no code has been switched off. -/
structure Tidy (d : Shop) : Prop where
  merchants : ∀ r ∈ d.books.merchants, ∀ vpa ∈ r.defaultUpiVpa, Small vpa
  qrCodes : ∀ q ∈ d.qrCodes, Small q.upiVpa ∧ q.isActive = true

/-- Requests one after the other. -/
def shops (p : Platform) : Transition.System Shop (ShopRequest × Draw) where
  Init := Tidy
  Step d l d' := l.1.valid = true ∧ d' = l.1.after p l.2 d

section Lemmas

variable {p : Platform} {d d' : Shop} {b b' : Books} {s v : String}

/-! ### Normalized VPAs -/

lemma small_toLower (s : String) : Small s.toLower := by
  apply String.toList_inj.mp
  rw [Ascii.toList_toLower, Ascii.toList_toLower, List.map_map]
  exact List.map_congr_left fun c _ => Ascii.toLower_toLower c

lemma small_normalize (s : String) : Small (MerchantsService.normalizeUpiVpa s) := small_toLower _

/-- Nothing is trimmed from a text without white space. -/
lemma trimAscii_eq (h : ∀ c ∈ s.toList, c.isWhitespace = false) : s.trimAscii.toString = s := by
  have hstart : s.toSlice.trimAsciiStart = s.toSlice := by
    apply String.Slice.dropWhile_eq_self
    rw [String.Slice.startsWith_bool_eq_head?, String.copy_toSlice]
    cases hlist : s.toList with
    | nil => rfl
    | cons c t => exact h c (by simp [hlist])
  have hend : s.toSlice.trimAsciiEnd = s.toSlice := by
    apply String.Slice.dropEndWhile_eq_self
    rw [String.Slice.endsWith_bool_eq_getLast?, String.copy_toSlice]
    cases hlast : s.toList.getLast? with
    | none => rfl
    | some c => exact h c (List.mem_of_getLast? hlast)
  rw [String.trimAscii, String.Slice.trimAscii, hstart, hend]
  exact String.copy_toSlice

lemma isWhitespace_vpaChar {c : Char} (h : isVpaChar c = true ∨ c = '@') : c.isWhitespace = false := by
  have hspaces : ∀ d ∈ [' ', '\t', '\r', '\n'], ¬(isVpaChar d = true ∨ d = '@') := by simp [isVpaChar]
  by_contra hspace
  rw [Bool.not_eq_false] at hspace
  apply hspaces c _ h
  simpa [Char.isWhitespace, or_assoc] using hspace

/-- The characters of a VPA. -/
lemma vpaChar_of_isUpiVpa (h : IsUpiVpa s = true) : ∀ c ∈ s.toList, isVpaChar c = true ∨ c = '@' := by
  obtain ⟨x, y, heq, hx, hy⟩ := (Words.test_iff (by decide)).mp h
  simp only [Words.Word.test, Bool.and_eq_true, List.all_eq_true] at hx hy
  intro c hc
  rw [heq] at hc
  rcases List.mem_append.mp hc with hc | hc
  · exact .inl (hx.1.1 c hc)
  · rcases List.mem_cons.mp hc with rfl | hc
    · exact .inr rfl
    · exact .inl (hy.1.1 c hc)

/-- A VPA only loses its capital letters. -/
lemma normalizeUpiVpa_eq (h : IsUpiVpa s = true) : MerchantsService.normalizeUpiVpa s = s.toLower := by
  have hspaces : ∀ c ∈ s.toList, c.isWhitespace = false := fun c hc =>
    isWhitespace_vpaChar (vpaChar_of_isUpiVpa h c hc)
  rw [MerchantsService.normalizeUpiVpa, trimAscii_eq hspaces]

/-! ### What a review does to the rows -/

/-- The row keeps its VPA, or gets a normalized one. -/
def KeepsVpa (f : MerchantRow → MerchantRow) : Prop :=
  ∀ r, (f r).defaultUpiVpa = r.defaultUpiVpa ∨
    ∃ vpa, (f r).defaultUpiVpa = some (MerchantsService.normalizeUpiVpa vpa)

/-- The change of one row, or none. -/
def Rewrites (b b' : Books) : Prop :=
  b'.merchants = b.merchants ∨
    ∃ id f, KeepsVpa f ∧ b'.merchants = updateWhere (fun r => r.id = id) f b.merchants

lemma rewrites_review {actor : Principal} {id : Uuid} {action : String}
    {data : MerchantRow → MerchantRow}
    {onChain : MerchantRow → MerchantRegistry.Storage → MerchantRegistry.Storage}
    (hdata : KeepsVpa data) :
    Rewrites b (b.settle (AdminService.review actor id action data onChain b)) := by
  cases hfind : b.find id with
  | none =>
    simp only [AdminService.review, hfind]
    exact .inl rfl
  | some row =>
    simp only [AdminService.review, hfind]
    exact .inr ⟨id, data, hdata, rfl⟩

lemma rewrites_updateRow {id : Uuid} {data : MerchantRow → MerchantRow} (hdata : KeepsVpa data) :
    Rewrites b (b.settle (MerchantsService.updateRow id data b)) := by
  cases hfind : b.find id with
  | none =>
    simp only [MerchantsService.updateRow, hfind]
    exact .inl rfl
  | some row =>
    simp only [MerchantsService.updateRow, hfind]
    exact .inr ⟨id, data, hdata, rfl⟩

lemma rewrites_update {owner : Principal} {id : Uuid} {dto : UpdateMerchantDto} {date : ℕ} :
    Rewrites b (b.settle (MerchantsService.update owner id dto date b)) := by
  rw [MerchantsService.update]
  cases MerchantsService.findOne owner id b with
  | error e => exact .inl rfl
  | ok row =>
    cases htaken : MerchantsService.vpaTaken id dto b with
    | true => exact .inl rfl
    | false =>
      refine rewrites_updateRow fun r => ?_
      cases dto.defaultUpiVpa with
      | none => exact .inl rfl
      | some vpa => exact .inr ⟨vpa, rfl⟩

lemma Review.rewrites (r : Review) (t : Moment) : Rewrites b (r.after p t b) := by
  cases r with
  | adminApprove actor id dto => exact rewrites_review fun _ => .inl rfl
  | adminReject actor id dto => exact rewrites_review fun _ => .inl rfl
  | adminSuspend actor id dto => exact rewrites_review fun _ => .inl rfl
  | update owner id dto => exact rewrites_update
  | approve admin id => exact rewrites_updateRow fun _ => .inl rfl
  | reject id => exact rewrites_updateRow fun _ => .inl rfl
  | suspend id => exact rewrites_updateRow fun _ => .inl rfl

/-! ### Tidy tables -/

lemma Rewrites.small (h : Rewrites b b') (hsmall : ∀ r ∈ b.merchants, ∀ vpa ∈ r.defaultUpiVpa, Small vpa) :
    ∀ r ∈ b'.merchants, ∀ vpa ∈ r.defaultUpiVpa, Small vpa := by
  rcases h with h | ⟨id, f, hf, h⟩
  · rwa [h]
  · intro r hr vpa hvpa
    rw [h] at hr
    obtain ⟨r₀, hr₀, rfl⟩ := List.mem_map.mp hr
    by_cases hid : r₀.id = id
    · simp only [hid, decide_true, if_true] at hvpa
      rcases hf r₀ with hsame | ⟨vpa', hnew⟩
      · rw [hsame] at hvpa
        exact hsmall r₀ hr₀ vpa hvpa
      · rw [hnew] at hvpa
        obtain rfl := Option.some.inj hvpa
        exact small_normalize _
    · simp only [hid, decide_false, Bool.false_eq_true, if_false] at hvpa
      exact hsmall r₀ hr₀ vpa hvpa

lemma tidy_create {id : Uuid} {owner : Principal} {dto : CreateMerchantDto} {row : MerchantRow}
    (h : Tidy d) (hok : MerchantsService.create id owner dto d = .ok (row, d')) : Tidy d' := by
  simp only [MerchantsService.create] at hok
  split_ifs at hok with htaken hgstin
  obtain ⟨rfl, rfl⟩ := Prod.mk.inj (Except.ok.inj hok)
  refine ⟨fun r hr vpa hvpa => ?_, h.qrCodes⟩
  rcases List.mem_append.mp hr with hr | hr
  · exact h.merchants r hr vpa hvpa
  · obtain rfl := List.mem_singleton.mp hr
    obtain ⟨given, -, rfl⟩ := Option.map_eq_some_iff.mp hvpa
    exact small_normalize given

lemma tidy_createQr {id : String} {owner : Principal} {merchantId : Uuid} {dto : CreateMerchantQrDto}
    {row : MerchantQrRow} (h : Tidy d)
    (hok : MerchantsService.createQr p id owner merchantId dto d = .ok (row, d')) : Tidy d' := by
  rw [MerchantsService.createQr] at hok
  cases hfound : MerchantsService.findOne owner merchantId d.books with
  | error e =>
    rw [hfound] at hok
    cases hok
  | ok merchant =>
    rw [hfound] at hok
    simp only [bind, Except.bind] at hok
    split_ifs at hok with htaken
    obtain ⟨rfl, rfl⟩ := Prod.mk.inj (Except.ok.inj hok)
    refine ⟨h.merchants, fun q hq => ?_⟩
    rcases List.mem_append.mp hq with hq | hq
    · exact h.qrCodes q hq
    · obtain rfl := List.mem_singleton.mp hq
      exact ⟨small_normalize _, rfl⟩

lemma tidy_step {l : ShopRequest × Draw} (hstep : (shops p).Step d l d') (h : Tidy d) : Tidy d' := by
  obtain ⟨-, rfl⟩ := hstep
  obtain ⟨r, x⟩ := l
  cases r with
  | review r => exact ⟨(r.rewrites x.moment).small h.merchants, h.qrCodes⟩
  | create owner dto =>
    simp only [ShopRequest.after]
    split
    · rename_i hok
      exact tidy_create h hok
    · exact h
  | createQr owner merchantId dto =>
    simp only [ShopRequest.after]
    split
    · rename_i hok
      exact tidy_createQr h hok
    · exact h

lemma tidy_reachable (h : (shops p).Reachable d) : Tidy d :=
  h.invariant (fun _ hinit => hinit) fun _ _ _ _ htidy hstep => tidy_step hstep htidy

end Lemmas

end PayEra.Api.Merchants
