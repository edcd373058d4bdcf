import Mathlib.Algebra.BigOperators.Group.List.Basic
import HistogramMonitor.Proofs.Histogram.Acceptance

/-!
# Counting bins

The number of bins is a product that is taken axis by axis, and it is given up at the first partial product that
64 bits cannot hold. Nothing is given up too early: every axis has at least two cells, so a partial product is never
larger than the whole one (`cellCount_le_append`), and what is counted depends on the whole product alone
(`totalBins_exact`). That is why the order of the axes does not matter, although it decides which partial products
there are.
-/

namespace HistogramMonitor

/-- A sum, or the largest number that 64 bits can hold where it would be larger. -/
def saturatingAdd (m n : Nat) : Nat := min (m + n) (addressable - 1)

variable {axes axes' before after : List Axis} {n : Nat}

/-- The cells along an axis are few enough to be counted, so their sum does not saturate. -/
theorem Axis.cells_eq_saturatingAdd (a : Axis) : a.cells = saturatingAdd a.bins.toNat 2 := by
  have hbins : a.bins.toNat < 0x100000000 := a.bins.toNat_lt
  rw [saturatingAdd, addressable, Nat.min_eq_left (by omega)]
  rfl

theorem cellCount_eq_prod (axes : List Axis) : cellCount axes = (axes.map fun a => a.bins.toNat + 2).prod := by
  rw [List.prod_eq_foldr, List.foldr_map]
  rfl

theorem totalBins_eq_some_iff : totalBins axes = some n ↔ cellCount axes = n ∧ n < addressable := by
  rw [totalBins_eq]
  by_cases hfits : cellCount axes < addressable
  · rw [if_pos hfits, Option.some_inj]
    exact ⟨fun h => ⟨h, h ▸ hfits⟩, fun h => h.1⟩
  · rw [if_neg hfits]
    exact ⟨nofun, fun h => absurd (h.1 ▸ h.2) hfits⟩

/-- Axes that come later make a product no smaller. -/
theorem cellCount_le_append (before after : List Axis) : cellCount before ≤ cellCount (before ++ after) := by
  rw [cellCount_eq_prod (before ++ after), List.map_append, List.prod_append, ← cellCount_eq_prod, ← cellCount_eq_prod]
  exact Nat.le_mul_of_pos_right _ (cellCount_pos after)

/-- **The bins are counted exactly.**

* The number of bins is the product of the bins along each axis, two more for each, if 64 bits can hold it; and there is
  none if they cannot.
* It does not depend on the order of the axes.
* If the product of all axes can be held, so can that of the first few, which is what they are counted as.
* The cells along an axis are exactly two more than its bins, although they are added by a sum that could saturate. -/
theorem totalBins_exact (axes : List Axis) :
    (∀ n, totalBins axes = some n ↔
      n = (axes.map fun a => a.bins.toNat + 2).prod ∧ n ≤ 0xFFFFFFFFFFFFFFFF) ∧
    (∀ axes', axes.Perm axes' → totalBins axes' = totalBins axes) ∧
    (∀ before after, axes = before ++ after →
      (axes.map fun a => a.bins.toNat + 2).prod ≤ 0xFFFFFFFFFFFFFFFF →
        totalBins before = some (before.map fun a => a.bins.toNat + 2).prod) ∧
    ∀ a : Axis, a.cells = saturatingAdd a.bins.toNat 2 ∧ saturatingAdd a.bins.toNat 2 = a.bins.toNat + 2 := by
  refine ⟨fun n => ?_, fun axes' hperm => ?_, fun before after hsplit hfits => ?_, fun a => ?_⟩
  · rw [totalBins_eq_some_iff, cellCount_eq_prod, eq_comm]
    exact and_congr_right fun _ => Nat.lt_succ_iff
  · have hprod : cellCount axes' = cellCount axes := by
      rw [cellCount_eq_prod, cellCount_eq_prod, (hperm.map _).prod_eq]
    rw [totalBins_eq, totalBins_eq, hprod]
  · rw [← cellCount_eq_prod, totalBins_eq_some_iff]
    refine ⟨rfl, Nat.lt_of_le_of_lt (cellCount_le_append before after) ?_⟩
    rw [← hsplit, cellCount_eq_prod]
    exact Nat.lt_succ_of_le hfits
  · exact ⟨a.cells_eq_saturatingAdd, a.cells_eq_saturatingAdd.symm⟩

/-- Two axes with as many bins as can just be counted. -/
def fullMap : List Axis := [⟨0xFFFFFFFF, ⟨0⟩, ⟨0⟩⟩, ⟨0xFFFFFFFD, ⟨0⟩, ⟨0⟩⟩]

/-- They are counted in either order, and so is the first of them alone; but not with another axis behind them, even
if that has no bins. -/
theorem fullMap_counted :
    totalBins fullMap = some 0xFFFFFFFFFFFFFFFF ∧
    (fullMap.Perm fullMap.reverse ∧ totalBins fullMap.reverse = totalBins fullMap) ∧
    totalBins (fullMap.take 1) = some 0x100000001 ∧
    totalBins (fullMap ++ [⟨0, ⟨0⟩, ⟨0⟩⟩]) = none := by
  obtain ⟨hcount, horder, hpartial, -⟩ := totalBins_exact fullMap
  have hperm : fullMap.Perm fullMap.reverse := (List.reverse_perm fullMap).symm
  refine ⟨(hcount _).mpr (by decide), ⟨hperm, horder _ hperm⟩, ?_, ?_⟩
  · exact hpartial (fullMap.take 1) (fullMap.drop 1) rfl (by decide)
  · refine Option.eq_none_iff_forall_ne_some.mpr fun n hn => ?_
    obtain ⟨rfl, hle⟩ := ((totalBins_exact _).1 n).mp hn
    exact absurd hle (by decide)

end HistogramMonitor
