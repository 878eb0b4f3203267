import Mathlib.Data.List.Basic
import Mathlib.Tactic.Ring
import Mathlib.Tactic.Linarith
import PayEra.Lib.Ascii

/-!
# Hexadecimal strings

Decoding pairs of digits until one is not a digit, and the number and the bytes that a string of digits
denotes.
-/

namespace Hex

def digit (c : Char) : Option ℕ :=
  if '0' ≤ c ∧ c ≤ '9' then some (c.toNat - 48)
  else if 'a' ≤ c ∧ c ≤ 'f' then some (c.toNat - 87)
  else if 'A' ≤ c ∧ c ≤ 'F' then some (c.toNat - 55)
  else none

lemma digit_lt {c : Char} {n : ℕ} (h : digit c = some n) : n < 16 := by
  have hle : ∀ a b : Char, a ≤ b ↔ a.toNat ≤ b.toNat := fun a b => Iff.rfl
  unfold digit at h
  simp only [hle] at h
  split_ifs at h with h₁ h₂ h₃
  · obtain rfl := Option.some.inj h
    have : '9'.toNat = 57 := rfl
    omega
  · obtain rfl := Option.some.inj h
    have : 'f'.toNat = 102 := rfl
    omega
  · obtain rfl := Option.some.inj h
    have : 'F'.toNat = 70 := rfl
    omega

/-- The bytes of the leading pairs of digits. -/
def decode : List Char → List UInt8
  | a :: b :: l =>
    match digit a, digit b with
    | some x, some y => UInt8.ofNat (16 * x + y) :: decode l
    | _, _ => []
  | _ => []

/-- The digits read on from a number. -/
def numberFrom (n : ℕ) : List Char → Option ℕ
  | [] => some n
  | c :: l => (digit c).bind fun d => numberFrom (16 * n + d) l

/-- The number that a string of digits denotes. -/
def number : List Char → Option ℕ := numberFrom 0

/-- The bytes read on from a number, most significant first. -/
def valueFrom (n : ℕ) (bytes : List UInt8) : ℕ := bytes.foldl (fun n b => 256 * n + b.toNat) n

def value : List UInt8 → ℕ := valueFrom 0

/-- Every pair of digits is a byte, and the bytes denote what the digits denote. -/
theorem decode_of_numberFrom {n m : ℕ} {l : List Char} (h : numberFrom n l = some m)
    (heven : l.length % 2 = 0) :
    (decode l).length = l.length / 2 ∧ valueFrom n (decode l) = m := by
  fun_induction decode l generalizing n with
  | case1 a b l x y ha hb ih =>
    simp only [numberFrom, ha, hb, Option.bind_some] at h
    have hx := digit_lt ha
    have hy := digit_lt hb
    have hpairs : l.length % 2 = 0 := by
      simp only [List.length_cons] at heven
      omega
    obtain ⟨hlen, hval⟩ := ih (n := 16 * (16 * n + x) + y) h hpairs
    refine ⟨by simp only [List.length_cons]; omega, ?_⟩
    rw [← hval, valueFrom, valueFrom, List.foldl_cons, UInt8.toNat_ofNat']
    congr 1
    omega
  | case2 a b l hne =>
    simp only [numberFrom, Option.bind_eq_some_iff] at h
    obtain ⟨x, ha, y, hb, -⟩ := h
    exact absurd hb (hne x y ha)
  | case3 l hl =>
    cases l with
    | nil => exact ⟨rfl, Option.some.inj h⟩
    | cons a l =>
      cases l with
      | nil => simp at heven
      | cons b l => exact absurd rfl (hl a b l)

lemma valueFrom_eq (n : ℕ) (bytes : List UInt8) :
    valueFrom n bytes = n * 256 ^ bytes.length + value bytes := by
  induction bytes generalizing n with
  | nil => simp [valueFrom, value]
  | cons b bytes ih =>
    have hcons : ∀ m, valueFrom m (b :: bytes) = valueFrom (256 * m + b.toNat) bytes :=
      fun _ => rfl
    rw [value, hcons, hcons, ih, ih (256 * 0 + b.toNat), List.length_cons]
    ring

lemma value_lt (bytes : List UInt8) : value bytes < 256 ^ bytes.length := by
  induction bytes with
  | nil => exact Nat.one_pos
  | cons b bytes ih =>
    have hb : b.toNat < 256 := b.toNat_lt
    have hval : value (b :: bytes) = b.toNat * 256 ^ bytes.length + value bytes := by
      rw [← valueFrom_eq]
      show valueFrom (256 * 0 + b.toNat) bytes = _
      rw [Nat.mul_zero, Nat.zero_add]
    have hmul : (b.toNat + 1) * 256 ^ bytes.length ≤ 256 * 256 ^ bytes.length :=
      Nat.mul_le_mul_right _ hb
    rw [hval, List.length_cons, pow_succ]
    linarith

lemma numberFrom_append (n : ℕ) (l₁ l₂ : List Char) :
    numberFrom n (l₁ ++ l₂) = (numberFrom n l₁).bind fun m => numberFrom m l₂ := by
  induction l₁ generalizing n with
  | nil => rfl
  | cons c l₁ ih =>
    simp only [List.cons_append, numberFrom, Option.bind_assoc]
    exact Option.bind_congr fun d _ => ih _

/-- Where the reading starts only matters in the end. -/
lemma numberFrom_eq (n : ℕ) (l : List Char) :
    numberFrom n l = (number l).map fun m => n * 16 ^ l.length + m := by
  induction l generalizing n with
  | nil => simp [numberFrom, number]
  | cons c l ih =>
    rw [number, numberFrom, numberFrom]
    cases digit c with
    | none => rfl
    | some d =>
      simp only [Option.bind_some]
      rw [ih, ih (16 * 0 + d), Option.map_map]
      congr 1
      funext m
      simp only [Function.comp_apply, List.length_cons]
      ring

/-- Leading zeros do not matter. -/
lemma number_pad (k : ℕ) (l : List Char) : number (List.replicate k '0' ++ l) = number l := by
  have hzeros : number (List.replicate k '0') = some 0 := by
    induction k with
    | zero => rfl
    | succ k ih => exact ih
  rw [number, numberFrom_append]
  rw [number] at hzeros
  rw [hzeros, Option.bind_some]

/-- A number that is not too large is that of the last digits. -/
lemma number_drop {l : List Char} {n k : ℕ} (h : number l = some n)
    (hn : n < 16 ^ (l.length - k)) : number (l.drop k) = some n := by
  rw [← List.take_append_drop k l, number, numberFrom_append, Option.bind_eq_some_iff] at h
  obtain ⟨m, -, h⟩ := h
  rw [numberFrom_eq, Option.map_eq_some_iff, List.length_drop] at h
  obtain ⟨m', hm', rfl⟩ := h
  have hm : m = 0 := by
    by_contra hne
    have : 1 * 16 ^ (l.length - k) ≤ m * 16 ^ (l.length - k) :=
      Nat.mul_le_mul_right _ (Nat.pos_of_ne_zero hne)
    omega
  rw [hm, Nat.zero_mul, Nat.zero_add]
  exact hm'

/-! ### Digits of one case -/

/-- A digit as it is written in lower case. -/
def Lower (c : Char) : Prop := '0' ≤ c ∧ c ≤ '9' ∨ 'a' ≤ c ∧ c ≤ 'f'

instance : DecidablePred Lower := fun _ => inferInstanceAs (Decidable (_ ∨ _))

lemma digit_of_lower {c : Char} (h : Lower c) :
    48 ≤ c.toNat ∧ c.toNat ≤ 57 ∧ digit c = some (c.toNat - 48) ∨
      97 ≤ c.toNat ∧ c.toNat ≤ 102 ∧ digit c = some (c.toNat - 87) := by
  rcases h with h | h
  · exact .inl ⟨h.1, h.2, if_pos h⟩
  · have hge : 97 ≤ c.toNat := h.1
    have hnot : ¬('0' ≤ c ∧ c ≤ '9') := by
      rintro ⟨-, h'⟩
      have hle : c.toNat ≤ 57 := h'
      omega
    exact .inr ⟨h.1, h.2, (if_neg hnot).trans (if_pos h)⟩

lemma digit_injective {c c' : Char} (h : Lower c) (h' : Lower c') (heq : digit c = digit c') :
    c = c' := by
  refine Char.toNat_inj.mp ?_
  rcases digit_of_lower h with ⟨h₁, h₂, h₃⟩ | ⟨h₁, h₂, h₃⟩ <;>
    rcases digit_of_lower h' with ⟨h₄, h₅, h₆⟩ | ⟨h₄, h₅, h₆⟩ <;>
    · rw [h₃, h₆] at heq
      have := Option.some.inj heq
      omega

/-- Digits of one case are determined by their number and their count. -/
theorem eq_of_numberFrom {l l' : List Char} {n n' m : ℕ} (hl : ∀ c ∈ l, Lower c)
    (hl' : ∀ c ∈ l', Lower c) (hlen : l.length = l'.length) (h : numberFrom n l = some m)
    (h' : numberFrom n' l' = some m) : n = n' ∧ l = l' := by
  induction l generalizing l' n n' with
  | nil =>
    obtain rfl := List.length_eq_zero_iff.mp hlen.symm
    exact ⟨(Option.some.inj h).trans (Option.some.inj h').symm, rfl⟩
  | cons c l ih =>
    cases l' with
    | nil => cases hlen
    | cons c' l' =>
      simp only [numberFrom, Option.bind_eq_some_iff] at h h'
      obtain ⟨x, hx, h⟩ := h
      obtain ⟨x', hx', h'⟩ := h'
      obtain ⟨hn, rfl⟩ := ih (fun a ha => hl a (List.mem_cons_of_mem _ ha))
        (fun a ha => hl' a (List.mem_cons_of_mem _ ha)) (Nat.succ.inj hlen) h h'
      have hlt := digit_lt hx
      have hlt' := digit_lt hx'
      have hxx : x = x' := by omega
      refine ⟨by omega, ?_⟩
      rw [digit_injective (hl c List.mem_cons_self) (hl' c' List.mem_cons_self)
        (by rw [hx, hx', hxx])]

lemma exists_numberFrom {l : List Char} (n : ℕ) (hl : ∀ c ∈ l, Lower c) :
    ∃ m, numberFrom n l = some m := by
  induction l generalizing n with
  | nil => exact ⟨n, rfl⟩
  | cons c l ih =>
    have htail := fun a ha => hl a (List.mem_cons_of_mem _ ha)
    rcases digit_of_lower (hl c List.mem_cons_self) with ⟨-, -, h⟩ | ⟨-, -, h⟩
    · rw [numberFrom, h, Option.bind_some]
      exact ih _ htail
    · rw [numberFrom, h, Option.bind_some]
      exact ih _ htail

/-! ### Bytes -/

/-- The bytes that digits denote: the `i`-th is made of the digits at `2 * i` and `2 * i + 1`. -/
def octets (l : List Char) : List UInt8 :=
  (List.range (l.length / 2)).map fun i =>
    UInt8.ofNat (16 * (l[2 * i]?.bind digit).getD 0 + (l[2 * i + 1]?.bind digit).getD 0)

lemma octets_cons {a b : Char} {x y : ℕ} (ha : digit a = some x) (hb : digit b = some y)
    (l : List Char) : octets (a :: b :: l) = UInt8.ofNat (16 * x + y) :: octets l := by
  have hlen : (a :: b :: l).length / 2 = l.length / 2 + 1 := by
    simp only [List.length_cons]
    omega
  rw [octets, hlen, List.range_succ_eq_map, List.map_cons, List.map_map, octets]
  congr 1
  simp [ha, hb]

/-- Digits are decoded to the bytes that they denote. -/
theorem decode_eq_octets {l : List Char} (h : ∀ c ∈ l, (digit c).isSome) : decode l = octets l := by
  fun_induction decode l with
  | case1 a b l x y ha hb ih =>
    rw [octets_cons hb ha, ih fun c hc => h c (List.mem_cons_of_mem _ (List.mem_cons_of_mem _ hc))]
  | case2 a b l hne =>
    obtain ⟨x, ha⟩ := Option.isSome_iff_exists.mp (h a (by simp))
    obtain ⟨y, hb⟩ := Option.isSome_iff_exists.mp (h b (by simp))
    exact absurd hb (hne x y ha)
  | case3 l hl =>
    cases l with
    | nil => rfl
    | cons a l =>
      cases l with
      | nil => simp [octets]
      | cons b l => exact absurd rfl (hl a b l)

lemma length_octets (l : List Char) : (octets l).length = l.length / 2 := by
  rw [octets, List.length_map, List.length_range]

lemma octets_zeros (k : ℕ) (l : List Char) :
    octets (List.replicate (2 * k) '0' ++ l) = List.replicate k 0 ++ octets l := by
  induction k with
  | zero => rfl
  | succ k ih =>
    have hzero : digit '0' = some 0 := rfl
    rw [Nat.mul_succ, List.replicate_succ, List.replicate_succ, List.replicate_succ, List.cons_append,
      List.cons_append, octets_cons hzero hzero, ih]
    rfl

/-- The digit of a number below sixteen. -/
def lowerDigit (n : ℕ) : Char := if n < 10 then Char.ofNat (48 + n) else Char.ofNat (87 + n)

lemma digit_lowerDigit {n : ℕ} (h : n < 16) : digit (lowerDigit n) = some n := by
  have hall : ∀ n ∈ List.range 16, digit (lowerDigit n) = some n := by decide
  exact hall n (List.mem_range.mpr h)

/-- The digits that bytes are written with. -/
def encode (bytes : List UInt8) : List Char :=
  bytes.flatMap fun b => [lowerDigit (b.toNat / 16), lowerDigit (b.toNat % 16)]

lemma octets_encode (bytes : List UInt8) : octets (encode bytes) = bytes := by
  induction bytes with
  | nil => rfl
  | cons b bytes ih =>
    have hhigh : b.toNat / 16 < 16 := Nat.div_lt_of_lt_mul b.toNat_lt
    have hlow : b.toNat % 16 < 16 := Nat.mod_lt _ (by decide)
    show octets (lowerDigit _ :: lowerDigit _ :: encode bytes) = _
    rw [octets_cons (digit_lowerDigit hhigh) (digit_lowerDigit hlow), Nat.div_add_mod, ih,
      UInt8.ofNat_toNat]

lemma isSome_encode (bytes : List UInt8) : ∀ c ∈ encode bytes, (digit c).isSome := by
  intro c hc
  obtain ⟨b, -, hc⟩ := List.mem_flatMap.mp hc
  have hhigh : b.toNat / 16 < 16 := Nat.div_lt_of_lt_mul b.toNat_lt
  have hlow : b.toNat % 16 < 16 := Nat.mod_lt _ (by decide)
  rcases List.mem_pair.mp hc with rfl | rfl
  · rw [digit_lowerDigit hhigh]
    rfl
  · rw [digit_lowerDigit hlow]
    rfl

lemma length_encode (bytes : List UInt8) : (encode bytes).length = 2 * bytes.length := by
  induction bytes with
  | nil => rfl
  | cons b bytes ih =>
    show (encode bytes).length + 1 + 1 = _
    rw [ih, List.length_cons, Nat.mul_succ]

/-! ### Letter case -/

lemma isSome_digit {c : Char} (h : Lower c) : (digit c).isSome := by
  rcases digit_of_lower h with ⟨-, -, h⟩ | ⟨-, -, h⟩
  · rw [h]
    rfl
  · rw [h]
    rfl

lemma toLower_of_lower {c : Char} (h : Lower c) : c.toLower = c := by
  apply Ascii.toLower_of_not_isUpper
  intro hupper
  obtain ⟨hlow, hhigh⟩ := Ascii.isUpper_iff.mp hupper
  rcases digit_of_lower h with ⟨-, hle, -⟩ | ⟨hge, -⟩
  · omega
  · omega

/-- A digit in capitals is one of six. -/
lemma digit_toLower {c : Char} (h : (digit c).isSome) :
    digit c.toLower = digit c ∧ Lower c.toLower := by
  by_cases hc : Lower c
  · rw [toLower_of_lower hc]
    exact ⟨rfl, hc⟩
  · have hcapital : 'A' ≤ c ∧ c ≤ 'F' := by
      unfold digit at h
      split_ifs at h with h₁ h₂ h₃
      · exact absurd (.inl h₁) hc
      · exact absurd (.inr h₂) hc
      · exact h₃
      · cases h
    have hlow : 65 ≤ c.toNat := hcapital.1
    have hhigh : c.toNat ≤ 70 := hcapital.2
    have hall : ∀ k ∈ List.range 6, digit (Char.ofNat (65 + k)).toLower = digit (Char.ofNat (65 + k)) ∧
        Lower (Char.ofNat (65 + k)).toLower := by decide
    have hspec := hall (c.toNat - 65) (List.mem_range.mpr (by omega))
    rwa [Nat.add_sub_cancel' hlow, Char.ofNat_toNat] at hspec

lemma octets_map_toLower {l : List Char} (h : ∀ c ∈ l, (digit c).isSome) :
    octets (l.map Char.toLower) = octets l := by
  have hdigit (i : ℕ) : ((l.map Char.toLower)[i]?).bind digit = l[i]?.bind digit := by
    rw [List.getElem?_map, Option.bind_map]
    cases hc : l[i]? with
    | none => rfl
    | some c => exact (digit_toLower (h c (List.mem_of_getElem? hc))).1
  rw [octets, octets, List.length_map]
  exact List.map_congr_left fun i _ => by rw [hdigit, hdigit]

/-- Digits are determined by the bytes that they denote, up to their case. -/
theorem octets_inj {l l' : List Char} (hl : ∀ c ∈ l, (digit c).isSome)
    (hl' : ∀ c ∈ l', (digit c).isSome) (hlen : l.length = l'.length) (heven : l.length % 2 = 0) :
    octets l = octets l' ↔ l.map Char.toLower = l'.map Char.toLower := by
  have hlower {l : List Char} (hl : ∀ c ∈ l, (digit c).isSome) : ∀ c ∈ l.map Char.toLower, Lower c := by
    intro c hc
    obtain ⟨a, ha, rfl⟩ := List.mem_map.mp hc
    exact (digit_toLower (hl a ha)).2
  have hnumber {l : List Char} (hl : ∀ c ∈ l, (digit c).isSome) (heven : l.length % 2 = 0) :
      number (l.map Char.toLower) = some (value (octets l)) := by
    obtain ⟨m, hm⟩ := exists_numberFrom 0 (hlower hl)
    rw [← octets_map_toLower hl, ← decode_eq_octets fun c hc => isSome_digit (hlower hl c hc), number, hm]
    exact congrArg some (decode_of_numberFrom hm (by rwa [List.length_map])).2.symm
  constructor
  · intro h
    have heq := hnumber hl heven
    rw [h] at heq
    exact (eq_of_numberFrom (hlower hl) (hlower hl') (by rw [List.length_map, List.length_map, hlen])
      heq (hnumber hl' (hlen ▸ heven))).2
  · intro h
    rw [← octets_map_toLower hl, h, octets_map_toLower hl']

/-- A text of `n` hexadecimal digits, of either case. -/
structure Digits (n : ℕ) where
  digits : List Char
  length_eq : digits.length = n
  hex : ∀ c ∈ digits, (digit c).isSome

end Hex
