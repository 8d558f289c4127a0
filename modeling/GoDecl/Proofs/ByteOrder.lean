import GoDecl.Proofs.CodePoints
import Mathlib.Data.String.Basic

/-! The order of texts by their bytes. A later code point is written with a greater lead byte, or
with the same one and greater bytes behind it, so no byte of a text tells its order otherwise than
its characters do. -/
namespace GoDecl

/-- The bytes of a text in UTF-8. -/
def bytes (s : String) : List UInt8 := s.toUTF8.data.toList

def codePoints (s : String) : List Nat := s.toList.map Char.toNat

theorem ofNat_lt_iff {m n : Nat} (small : m < 256) (small' : n < 256) :
    UInt8.ofNat m < UInt8.ofNat n ↔ m < n := by
  simp [UInt8.lt_iff_toNat_lt, Nat.mod_eq_of_lt, small, small']

theorem ofNat_eq_iff {m n : Nat} (small : m < 256) (small' : n < 256) :
    UInt8.ofNat m = UInt8.ofNat n ↔ m = n := by
  simp [← UInt8.toNat_inj, Nat.mod_eq_of_lt, small, small']

theorem lt_by_digits {m n : Nat} (less : m < n) :
    m / 262144 < n / 262144 ∨ m / 262144 = n / 262144 ∧
      (m / 4096 % 64 < n / 4096 % 64 ∨ m / 4096 % 64 = n / 4096 % 64 ∧
        (m / 64 % 64 < n / 64 % 64 ∨ m / 64 % 64 = n / 64 % 64 ∧ m % 64 < n % 64)) := by
  have twice (k : Nat) : k / 4096 = k / 64 / 64 := by rw [Nat.div_div_eq_div_mul]
  have thrice (k : Nat) : k / 262144 = k / 64 / 64 / 64 := by
    rw [Nat.div_div_eq_div_mul, Nat.div_div_eq_div_mul]
  rw [twice, twice, thrice, thrice]
  omega

/-- The bytes of a character decide, whatever comes behind them. -/
theorem utf8EncodeChar_append_lt {c d : Char} (less : c < d) (xs ys : List UInt8) :
    String.utf8EncodeChar c ++ xs < String.utf8EncodeChar d ++ ys := by
  have points : c.val.toNat < d.val.toNat := less
  have last : d.val.toNat < 0x110000 := Int.ofNat_lt.mp (codePoint_lt d)
  have digits := lt_by_digits points
  unfold String.utf8EncodeChar
  dsimp only
  -- Each length has lead bytes of its own, and those of a longer one are greater.
  split_ifs <;>
    simp (disch := omega) only [List.cons_append, List.nil_append, List.cons_lt_cons_iff,
      ofNat_lt_iff, ofNat_eq_iff, Nat.mod_eq_of_lt] <;>
    omega

section Written

variable {α : Type} [LT α] {write : Char → List α} (filled : ∀ c, write c ≠ [])
  (decides : ∀ c d, c < d → ∀ xs ys, write c ++ xs < write d ++ ys)

include filled decides

theorem flatMap_lt {s t : List Char} (less : s < t) : s.flatMap write < t.flatMap write := by
  induction less with
  | @nil d t =>
    obtain ⟨x, xs, first⟩ := List.exists_cons_of_ne_nil (filled d)
    simp [first]
  | cons _ ih => exact List.append_left_lt ih
  | rel before => exact decides _ _ before _ _

theorem flatMap_lt_iff [Std.Asymm (α := α) (· < ·)] (s t : List Char) :
    s.flatMap write < t.flatMap write ↔ s < t := by
  constructor
  · intro less
    rcases lt_trichotomy s t with before | rfl | behind
    · exact before
    · exact absurd less (List.lt_asymm less)
    · exact absurd less (List.lt_asymm (flatMap_lt filled decides behind))
  · exact flatMap_lt filled decides

end Written

theorem bytes_eq (s : String) : bytes s = s.toList.flatMap String.utf8EncodeChar := by
  conv => lhs; rw [bytes, ← String.ofList_toList (s := s), String.toUTF8_eq_toByteArray]
  exact List.toList_data_toByteArray

theorem bytes_lt_iff (s t : String) : bytes s < bytes t ↔ s < t := by
  rw [bytes_eq, bytes_eq, String.lt_iff_toList_lt]
  exact flatMap_lt_iff (fun _ => String.utf8EncodeChar_ne_nil)
    (fun _ _ => utf8EncodeChar_append_lt) _ _

theorem codePoints_lt_iff (s t : String) : codePoints s < codePoints t ↔ s < t := by
  have decides (c d : Char) (less : c < d) (xs ys : List Nat) :
      [c.toNat] ++ xs < [d.toNat] ++ ys := List.Lex.rel less
  rw [codePoints, codePoints, List.map_eq_flatMap, List.map_eq_flatMap, String.lt_iff_toList_lt]
  exact flatMap_lt_iff (by simp) decides _ _

end GoDecl
