/-!
# Listing items in increasing order

`increasing` sorts any items that can be compared. Its result holds the same items
(`increasing_perm`), each no greater than those after it (`pairwise_increasing`). If no item is
given twice, each is less than those after it (`pairwise_lt_increasing`), so the result depends on
the items alone and not on the order in which they were given (`increasing_eq_of_mem_iff`).
-/

namespace ByteMachine

variable {α : Type}

/-- The items from least to greatest; equal ones keep their order. -/
def increasing [Ord α] (items : List α) : List α :=
  items.mergeSort fun a b => (compare a b).isLE

theorem increasing_perm [Ord α] (items : List α) : (increasing items).Perm items :=
  List.mergeSort_perm items _

@[simp] theorem mem_increasing [Ord α] {items : List α} {a : α} :
    a ∈ increasing items ↔ a ∈ items :=
  (increasing_perm items).mem_iff

@[simp] theorem length_increasing [Ord α] (items : List α) :
    (increasing items).length = items.length :=
  (increasing_perm items).length_eq

theorem pairwise_increasing [Ord α] [Std.TransOrd α] (items : List α) :
    (increasing items).Pairwise fun a b => (compare a b).isLE := by
  refine List.pairwise_mergeSort (fun _ _ _ => Std.TransCmp.isLE_trans) (fun a b => ?_) items
  have swapped : compare b a = (compare a b).swap := Std.OrientedOrd.eq_swap
  rw [swapped]
  cases compare a b <;> decide

section Distinct

variable [Ord α] [Std.TransOrd α] [Std.LawfulEqOrd α] {items : List α}

theorem pairwise_lt_increasing (distinct : items.Nodup) :
    (increasing items).Pairwise fun a b => compare a b = .lt := by
  have apart : (increasing items).Nodup := (increasing_perm items).nodup_iff.mpr distinct
  refine (pairwise_increasing items).imp₂ (fun a b le ne => ?_) apart
  cases order : compare a b with
  | lt => rfl
  | eq => exact absurd (Std.LawfulEqOrd.eq_of_compare order) ne
  | gt => simp [order] at le

/-- **Distinct items have one listing**, in whatever order they come. -/
theorem increasing_eq_of_mem_iff {others : List α} (distinct : items.Nodup)
    (distinct' : others.Nodup) (same : ∀ a, a ∈ items ↔ a ∈ others) :
    increasing items = increasing others := by
  have perm : items.Perm others := (List.perm_ext_iff_of_nodup distinct distinct').mpr same
  have listed : (increasing items).Perm (increasing others) :=
    (increasing_perm items).trans (perm.trans (increasing_perm others).symm)
  refine listed.eq_of_pairwise (fun a b _ _ before behind => ?_) (pairwise_lt_increasing distinct)
    (pairwise_lt_increasing distinct')
  rw [Std.OrientedCmp.gt_iff_lt.mpr before] at behind
  cases behind

end Distinct

end ByteMachine
