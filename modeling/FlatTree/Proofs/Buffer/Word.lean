import Mathlib
import FlatTree.Buffer.Word

/-!
# Words read back

A word that was written to eight bytes is read from them again, wherever in a
byte array they stand.

- `wordAt?_append_left`, `wordAt?_append_right`: a read in a part of an array.
- `wordAt?_flatMap_wordBytes`: words that stand one after another.
-/

namespace FlatTree

theorem getElem?_toByteArray (bytes : List UInt8) (i : Nat) :
    bytes.toByteArray[i]? = bytes[i]? := by
  have hsize : bytes.toByteArray.size = bytes.length := List.size_toByteArray
  by_cases h : i < bytes.length
  · rw [getElem?_pos bytes.toByteArray i (hsize ▸ h), getElem?_pos bytes i h,
      List.getElem_toByteArray]
  · rw [getElem?_neg bytes.toByteArray i (hsize ▸ h), getElem?_neg bytes i h]

theorem getElem?_append_of_lt {a b : ByteArray} {i : Nat} (h : i < a.size) :
    (a ++ b)[i]? = a[i]? := by
  have hlt : i < (a ++ b).size := by rw [ByteArray.size_append]; omega
  rw [getElem?_pos a i h, getElem?_pos (a ++ b) i hlt, ByteArray.getElem_append_left h]

theorem getElem?_append_add (a b : ByteArray) (i : Nat) : (a ++ b)[a.size + i]? = b[i]? := by
  have hsize : a.size + i < (a ++ b).size ↔ i < b.size := by rw [ByteArray.size_append]; omega
  by_cases h : i < b.size
  · rw [getElem?_pos b i h, getElem?_pos (a ++ b) (a.size + i) (hsize.mpr h),
      ByteArray.getElem_append_right (Nat.le_add_right _ _)]
    simp only [Nat.add_sub_cancel_left]
  · rw [getElem?_neg b i h, getElem?_neg (a ++ b) (a.size + i) (mt hsize.mp h)]

/-- A part of a byte array, by where it starts and how long it is. -/
theorem extract_part {before part after : ByteArray} {start stop : Nat}
    (hstart : start = before.size) (hstop : stop = start + part.size) :
    (before ++ (part ++ after)).extract start stop = part := by
  subst hstop
  rw [← Nat.add_zero start, Nat.add_assoc, ByteArray.extract_append_size_add' hstart, Nat.zero_add,
    ByteArray.extract_append_eq_left rfl]

/-- A value depends on its own bytes only. -/
theorem littleEndian_congr {a b : ByteArray} :
    ∀ {n i j : Nat}, (∀ k < n, a[i + k]? = b[j + k]?) → littleEndian a i n = littleEndian b j n
  | 0, _, _, _ => rfl
  | n + 1, i, j, h => by
    have hfirst : a[i]? = b[j]? := h 0 (Nat.succ_pos n)
    have hrest : littleEndian a (i + 1) n = littleEndian b (j + 1) n := by
      refine littleEndian_congr fun k hk => ?_
      rw [Nat.add_assoc, Nat.add_assoc, Nat.add_comm 1 k]
      exact h (k + 1) (Nat.succ_lt_succ hk)
    rw [littleEndian, littleEndian, hfirst, hrest]

theorem wordAt?_append_left {a b : ByteArray} {i : Nat} (h : i + wordSize ≤ a.size) :
    wordAt? (a ++ b) i = wordAt? a i := by
  rw [wordAt?, wordAt?, if_pos h, if_pos (by rw [ByteArray.size_append]; omega)]
  exact congrArg some (littleEndian_congr fun k hk => getElem?_append_of_lt (by omega))

theorem wordAt?_append_right (a b : ByteArray) (i : Nat) :
    wordAt? (a ++ b) (a.size + i) = wordAt? b i := by
  rw [wordAt?, wordAt?, ByteArray.size_append]
  by_cases h : i + wordSize ≤ b.size
  · rw [if_pos h, if_pos (by omega)]
    refine congrArg some (littleEndian_congr fun k _ => ?_)
    rw [Nat.add_assoc]
    exact getElem?_append_add a b (i + k)
  · rw [if_neg h, if_neg (by omega)]

/-- The bytes of a word hold its lowest digits to the base 256. -/
theorem toNat_littleEndian {bytes : ByteArray} :
    ∀ {n : Nat} {w : UInt64} {i : Nat}, n ≤ wordSize →
      (∀ k < n, bytes[i + k]? = (littleEndianBytes n w)[k]?) →
        (littleEndian bytes i n).toNat = w.toNat % 256 ^ n
  | 0, w, _, _, _ => (Nat.mod_one _).symm
  | n + 1, w, i, hn, h => by
    have hfirst : bytes[i]? = some w.toUInt8 := h 0 (Nat.succ_pos n)
    have hrest : (littleEndian bytes (i + 1) n).toNat = (w / 256).toNat % 256 ^ n := by
      refine toNat_littleEndian (Nat.le_of_succ_le hn) fun k hk => ?_
      rw [Nat.add_assoc, Nat.add_comm 1 k, h (k + 1) (Nat.succ_lt_succ hk)]
      rfl
    -- The digits of a word fit a word, so none of the sums wraps around.
    have hpow : 256 ^ (n + 1) ≤ 2 ^ 64 := by
      rw [show (2 : Nat) ^ 64 = 256 ^ 8 from rfl]
      exact Nat.pow_le_pow_right (by decide) hn
    have hdigits : w.toNat % 256 ^ (n + 1) =
        w.toNat % 256 + 256 * (w.toNat / 256 % 256 ^ n) := by
      rw [Nat.pow_succ, Nat.mul_comm, Nat.mod_mul]
    have hlt : w.toNat % 256 ^ (n + 1) < 2 ^ 64 :=
      Nat.lt_of_lt_of_le (Nat.mod_lt _ (Nat.pow_pos (by decide))) hpow
    rw [littleEndian, hfirst, Option.getD_some, UInt64.toNat_add, UInt64.toNat_mul, hrest,
      UInt64.toNat_div, UInt8.toNat_toUInt64, UInt64.toNat_toUInt8, Nat.add_mod_mod, hdigits]
    rw [hdigits] at hlt
    exact Nat.mod_eq_of_lt hlt

theorem wordAt?_wordBytes (w : UInt64) (rest : ByteArray) :
    wordAt? ((wordBytes w).toByteArray ++ rest) 0 = some w := by
  have hsize : (wordBytes w).toByteArray.size = wordSize := by simp
  have hfits : 0 + wordSize ≤ (wordBytes w).toByteArray.size := by omega
  rw [wordAt?_append_left hfits, wordAt?, if_pos hfits]
  refine congrArg some (UInt64.toNat_inj.mp ?_)
  rw [toNat_littleEndian (Nat.le_refl _) fun k _ => ?_]
  · exact Nat.mod_eq_of_lt w.toNat_lt
  · rw [Nat.zero_add]
    exact getElem?_toByteArray _ _

/-- Words that stand one after another are read back by their places. -/
theorem wordAt?_flatMap_wordBytes :
    ∀ (words : List UInt64) (i : Nat),
      wordAt? (words.flatMap wordBytes).toByteArray (i * wordSize) = words[i]?
  | [], i => by
    rw [wordAt?, if_neg (by simp [wordSize])]
    rfl
  | w :: rest, 0 => by
    rw [List.flatMap_cons, List.toByteArray_append, Nat.zero_mul, wordAt?_wordBytes]
    rfl
  | w :: rest, i + 1 => by
    have hplace : (i + 1) * wordSize = (wordBytes w).toByteArray.size + i * wordSize := by
      rw [List.size_toByteArray, length_wordBytes, Nat.succ_mul, Nat.add_comm]
    rw [List.flatMap_cons, List.toByteArray_append, hplace, wordAt?_append_right,
      wordAt?_flatMap_wordBytes rest i]
    rfl

@[simp] theorem length_flatMap_wordBytes (words : List UInt64) :
    (words.flatMap wordBytes).length = words.length * wordSize := by
  induction words with
  | nil => rfl
  | cons w rest ih =>
    rw [List.flatMap_cons, List.length_append, ih, length_wordBytes, List.length_cons,
      Nat.succ_mul, Nat.add_comm]

/-! ## Words that saturate -/

theorem toNat_saturatingAdd (a b : UInt64) :
    (saturatingAdd a b).toNat = min (a.toNat + b.toNat) (2 ^ 64 - 1) := by
  have hmax : maxWord.toNat = 2 ^ 64 - 1 := rfl
  by_cases h : a.toNat + b.toNat ≤ maxWord.toNat
  · rw [saturatingAdd, if_pos h, UInt64.toNat_add]
    omega
  · rw [saturatingAdd, if_neg h]
    omega

theorem toNat_saturatingMul (a b : UInt64) :
    (saturatingMul a b).toNat = min (a.toNat * b.toNat) (2 ^ 64 - 1) := by
  have hmax : maxWord.toNat = 2 ^ 64 - 1 := rfl
  by_cases h : a.toNat * b.toNat ≤ maxWord.toNat
  · rw [saturatingMul, if_pos h, UInt64.toNat_mul]
    omega
  · rw [saturatingMul, if_neg h]
    omega

end FlatTree
