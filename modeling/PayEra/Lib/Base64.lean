import Mathlib.Data.List.Basic

/-!
# UTF-8 and URL-safe base64

Texts as bytes, and bytes as text without padding. Three bytes are four characters, so that a text
whose first bytes are known has its first characters known.
-/

namespace Base64

def bytes (s : String) : List UInt8 := s.toList.flatMap String.utf8EncodeChar

@[simp] lemma bytes_append (s t : String) : bytes (s ++ t) = bytes s ++ bytes t := by
  simp [bytes]

lemma bytes_ofList_append (l l' : List Char) :
    bytes (String.ofList (l ++ l')) = bytes (String.ofList l) ++ bytes (String.ofList l') := by
  simp [bytes]

/-- A character is at least a byte. -/
lemma length_le_bytes (s : String) : s.toList.length ≤ (bytes s).length := by
  rw [bytes]
  induction s.toList with
  | nil => simp
  | cons c l ih =>
    have hc : 0 < (String.utf8EncodeChar c).length :=
      List.length_pos_of_ne_nil String.utf8EncodeChar_ne_nil
    rw [List.flatMap_cons, List.length_append, List.length_cons]
    omega

def alphabet : List Char :=
  "ABCDEFGHIJKLMNOPQRSTUVWXYZabcdefghijklmnopqrstuvwxyz0123456789-_".toList

def digit (n : ℕ) : Char := alphabet.getD n 'A'

def encode : List UInt8 → List Char
  | a :: b :: c :: rest =>
    digit (a.toNat / 4) :: digit (a.toNat % 4 * 16 + b.toNat / 16) ::
      digit (b.toNat % 16 * 4 + c.toNat / 64) :: digit (c.toNat % 64) :: encode rest
  | [a, b] =>
    [digit (a.toNat / 4), digit (a.toNat % 4 * 16 + b.toNat / 16), digit (b.toNat % 16 * 4)]
  | [a] => [digit (a.toNat / 4), digit (a.toNat % 4 * 16)]
  | [] => []

/-- Groups of three bytes are encoded on their own. -/
theorem encode_append (p q : List UInt8) (h : p.length % 3 = 0) :
    encode (p ++ q) = encode p ++ encode q := by
  fun_induction encode p with
  | case1 a b c rest ih =>
    have hrest : rest.length % 3 = 0 := by
      simp only [List.length_cons] at h
      omega
    simp [encode, ih hrest]
  | case2 a b => simp at h
  | case3 a => simp at h
  | case4 => rfl

theorem length_encode (p : List UInt8) (h : p.length % 3 = 0) :
    (encode p).length = p.length / 3 * 4 := by
  fun_induction encode p with
  | case1 a b c rest ih =>
    simp only [List.length_cons] at h ⊢
    have hrest := ih (by omega)
    omega
  | case2 a b => simp at h
  | case3 a => simp at h
  | case4 => rfl

end Base64
