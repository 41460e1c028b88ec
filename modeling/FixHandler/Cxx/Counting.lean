import Mathlib

/-!
# Counting through `std::uint32_t`

`boost::counting_iterator` goes up by one until it equals the end of its range,
and wraps around on the way if it has to.
-/

namespace Cxx

/-- `std::numeric_limits<std::uint32_t>::max()` -/
def uint32Max : UInt32 := 0xFFFFFFFF

/-- The greatest number of 32 bits -/
theorem toNat_uint32Max : uint32Max.toNat = 2 ^ 32 - 1 := rfl

/-- The values a `boost::counting_iterator<std::uint32_t>` takes from `first` until it
    reaches `last`. -/
def countingRange (first last : UInt32) : List UInt32 :=
  (List.range (last - first).toNat).map fun i => first + .ofNat i

/-- A range that does not wrap around. -/
theorem mem_countingRange {first last : UInt32} (h : first ≤ last) {n : UInt32} :
    n ∈ countingRange first last ↔ first ≤ n ∧ n < last := by
  have hsub := UInt32.toNat_sub_of_le _ _ h
  have hle := UInt32.le_iff_toNat_le.mp h
  have hlast := last.toNat_lt
  simp only [countingRange, List.mem_map, List.mem_range, UInt32.le_iff_toNat_le,
    UInt32.lt_iff_toNat_lt]
  constructor
  · rintro ⟨i, hi, rfl⟩
    rw [UInt32.toNat_add, UInt32.toNat_ofNat']
    omega
  · rintro ⟨hfirst, hn⟩
    refine ⟨n.toNat - first.toNat, by omega, ?_⟩
    apply UInt32.toNat_inj.mp
    rw [UInt32.toNat_add, UInt32.toNat_ofNat']
    omega

end Cxx
