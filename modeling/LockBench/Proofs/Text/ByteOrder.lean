import LockBench.Text.Utf8
import Mathlib.Data.List.Lex
import Mathlib.Data.String.Basic

/-!
# The order of bytes

Texts are in the order of their characters.  In UTF-8 a later character starts
with a larger byte, or goes on with one, so that the order of the bytes is the
same.
-/

namespace LockBench
namespace Text

theorem toNat_lt (c : Char) : c.val.toNat < 0x110000 := by
  have valid := c.valid
  simp only [UInt32.isValidChar, Nat.isValidChar] at valid
  omega

/-! ## One character -/

/-- Bytes are compared by the numbers that they are made of. -/
theorem ofNat_cons_lt_ofNat_cons
    {n m : Nat}
    {rest others : List UInt8}
    (small : n < 256)
    (smallOther : m < 256)
    (below : n < m ∨ n = m ∧ rest < others) :
    UInt8.ofNat n :: rest < UInt8.ofNat m :: others := by
  rw [List.cons_lt_cons_iff, UInt8.lt_iff_toNat_lt, ← UInt8.toNat_inj,
    UInt8.toNat_ofNat', UInt8.toNat_ofNat', Nat.mod_eq_of_lt small,
    Nat.mod_eq_of_lt smallOther]
  exact below

/-- The bytes after the first one of a character: so many digits of base 64. -/
def following (n : Nat) : Nat -> List UInt8
  | 0 => []
  | digits + 1 =>
    UInt8.ofNat (n / 64 ^ digits % 64 + 128) :: following n digits

/-- Where the digits in front are the same, those that follow decide. -/
theorem following_lt
    {n m digits : Nat}
    (below : n < m)
    (same : n / 64 ^ digits = m / 64 ^ digits)
    (rest others : List UInt8) :
    following n digits ++ rest < following m digits ++ others := by
  induction digits with
  | zero => simp at same; omega
  | succ digits inductionHypothesis =>
      rw [Nat.pow_succ, ← Nat.div_div_eq_div_mul, ← Nat.div_div_eq_div_mul]
        at same
      have le := Nat.div_le_div_right (c := 64 ^ digits) below.le
      refine ofNat_cons_lt_ofNat_cons (by omega) (by omega) ?_
      by_cases sameDigit : n / 64 ^ digits = m / 64 ^ digits
      · exact .inr ⟨by rw [sameDigit], inductionHypothesis sameDigit⟩
      · exact .inl (by omega)

/-- The first byte of a character, by the number of those that follow. -/
def leading (n : Nat) : Nat -> Nat
  | 0 => n
  | 1 => n / 64 + 192
  | 2 => n / 64 ^ 2 + 224
  | _ => n / 64 ^ 3 + 240

/-- How many bytes follow the first one of a character. -/
def followingCount (n : Nat) : Nat :=
  if n ≤ 0x7F then 0 else if n ≤ 0x7FF then 1 else if n ≤ 0xFFFF then 2 else 3

theorem utf8EncodeChar_eq (c : Char) :
    String.utf8EncodeChar c =
      UInt8.ofNat (leading c.val.toNat (followingCount c.val.toNat)) ::
        following c.val.toNat (followingCount c.val.toNat) := by
  have bound := toNat_lt c
  simp only [String.utf8EncodeChar, followingCount]
  split
  · rfl
  split
  · simp only [leading, following, Nat.pow_zero, Nat.div_one]
    rw [Nat.mod_eq_of_lt (by omega)]
  split
  · simp only [leading, following, Nat.pow_zero, Nat.div_one, Nat.pow_one,
      Nat.reducePow]
    rw [Nat.mod_eq_of_lt (a := c.val.toNat / 4096) (by omega)]
  · simp only [leading, following, Nat.pow_zero, Nat.div_one, Nat.pow_one,
      Nat.reducePow]
    rw [Nat.mod_eq_of_lt (a := c.val.toNat / 262144) (by omega)]

theorem leading_lt
    {n : Nat}
    (bound : n < 0x110000) : leading n (followingCount n) < 256 := by
  rw [followingCount]
  split_ifs <;> simp only [leading, Nat.reducePow] <;> omega

/-- The first byte of a later character is larger, or it is the same and as many
bytes follow. -/
theorem leading_lt_or_eq
    {n m : Nat}
    (below : n < m) :
    leading n (followingCount n) < leading m (followingCount m) ∨
      followingCount n = followingCount m ∧
        n / 64 ^ followingCount n = m / 64 ^ followingCount n ∧
        leading n (followingCount n) = leading m (followingCount m) := by
  rw [followingCount, followingCount]
  split_ifs <;> simp only [leading, Nat.reducePow, true_and] <;> omega

/-- A later character comes later in UTF-8, whatever comes after it. -/
theorem utf8EncodeChar_append_lt
    {c d : Char}
    (below : c < d)
    (rest others : List UInt8) :
    String.utf8EncodeChar c ++ rest < String.utf8EncodeChar d ++ others := by
  have lt : c.val.toNat < d.val.toNat := below
  rw [utf8EncodeChar_eq, utf8EncodeChar_eq, List.cons_append, List.cons_append]
  refine ofNat_cons_lt_ofNat_cons (leading_lt (toNat_lt c))
    (leading_lt (toNat_lt d)) ?_
  rcases leading_lt_or_eq lt with larger | ⟨sameCount, sameDigits, sameFirst⟩
  · exact .inl larger
  · rw [← sameCount]
    exact .inr ⟨by rw [sameFirst, sameCount],
      following_lt lt sameDigits rest others⟩

/-! ## Texts -/

theorem bytes_eq (text : String) :
    bytes text = text.toList.flatMap String.utf8EncodeChar := by
  rw [bytes, String.toUTF8_eq_toByteArray, ← String.utf8Encode_toList,
    List.utf8Encode, List.toList_data_toByteArray]

theorem flatMap_utf8EncodeChar_lt
    {chars others : List Char}
    (below : chars < others) :
    chars.flatMap String.utf8EncodeChar <
      others.flatMap String.utf8EncodeChar := by
  induction below with
  | @nil c rest =>
      obtain ⟨first, following, bytes_eq⟩ :=
        List.exists_cons_of_ne_nil (String.utf8EncodeChar_ne_nil (c := c))
      rw [List.flatMap_cons, bytes_eq]
      exact .nil
  | rel less => exact utf8EncodeChar_append_lt less _ _
  | cons _ inductionHypothesis =>
      exact List.append_left_lt inductionHypothesis

/-- The bytes of texts are in the order of the texts. -/
theorem bytes_lt_bytes_iff (text other : String) :
    bytes text < bytes other ↔ text < other := by
  have keeps : ∀ text other : String, text < other ->
      bytes text < bytes other := by
    intro text other below
    rw [bytes_eq, bytes_eq]
    exact flatMap_utf8EncodeChar_lt (String.lt_iff_toList_lt.mp below)
  refine ⟨fun below => ?_, keeps text other⟩
  rcases lt_trichotomy text other with less | rfl | greater
  · exact less
  · exact absurd below (List.lt_irrefl _)
  · exact absurd below (List.lt_asymm (keeps _ _ greater))

end Text
end LockBench
