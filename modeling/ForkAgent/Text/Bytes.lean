import Mathlib.Data.List.Basic

/-!
# The bytes of a text

UTF-8 has a zero byte for the null character only.
-/

namespace Text

/-- The bytes of a file, in their order. -/
def bytesOf (b : ByteArray) : List UInt8 := b.data.toList

theorem bytesOf_toUTF8 (s : String) : bytesOf s.toUTF8 = s.toList.flatMap String.utf8EncodeChar := by
  rw [String.toUTF8_eq_toByteArray, ← String.utf8Encode_toList]
  simp [bytesOf, List.utf8Encode]

theorem ofNat_ne_zero {n : Nat} (hpos : 0 < n) (hlt : n < 256) : (0 : UInt8) ≠ UInt8.ofNat n := by
  intro h
  have hnat : 0 = n % 2 ^ 8 := by simpa using congrArg UInt8.toNat h
  omega

theorem eq_null_of_zero_mem {c : Char} (h : 0 ∈ String.utf8EncodeChar c) : c = '\x00' := by
  apply Char.toNat_inj.mp
  show c.val.toNat = 0
  by_contra hne
  revert h
  rw [imp_false]
  simp only [String.utf8EncodeChar]
  split
  · simp only [List.mem_singleton]
    apply ofNat_ne_zero <;> omega
  · split
    · simp only [List.mem_cons, List.not_mem_nil, or_false, not_or]
      constructor <;> apply ofNat_ne_zero <;> omega
    · split
      · simp only [List.mem_cons, List.not_mem_nil, or_false, not_or]
        refine ⟨?_, ?_, ?_⟩ <;> apply ofNat_ne_zero <;> omega
      · simp only [List.mem_cons, List.not_mem_nil, or_false, not_or]
        refine ⟨?_, ?_, ?_, ?_⟩ <;> apply ofNat_ne_zero <;> omega

theorem zero_not_mem_bytesOf {s : String} (h : '\x00' ∉ s.toList) : 0 ∉ bytesOf s.toUTF8 := by
  rw [bytesOf_toUTF8, List.mem_flatMap]
  intro hzero
  obtain ⟨c, hc, hzero⟩ := hzero
  rw [eq_null_of_zero_mem hzero] at hc
  exact h hc

theorem fromUTF8?_toUTF8 (s : String) : String.fromUTF8? s.toUTF8 = some s := by
  rw [String.toUTF8_eq_toByteArray, String.fromUTF8?, dif_pos s.isValidUTF8]
  rfl

end Text
