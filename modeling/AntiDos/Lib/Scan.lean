import Mathlib.Algebra.Order.BigOperators.Group.Finset

/-!
# Scanning cells that grow

The cells of an array are copied one after the other while they may grow. The copies need not have
stood in the array together at any moment. But each of them lies between what its cell held when the
scan began and what it holds now, and so does their sum.
-/

namespace Scan

variable {ι M : Type*} {begun now now' values : ι → M} {todo : List ι} {i : ι}

section Order

variable [Preorder M]

/-- The cells have grown since the scan began, and those that are not still to be copied were copied
since then. -/
structure Copied (begun now values : ι → M) (todo : List ι) : Prop where
  grown : ∀ i, begun i ≤ now i
  lower : ∀ i ∉ todo, begun i ≤ values i
  upper : ∀ i ∉ todo, values i ≤ now i

theorem Copied.begin (now values : ι → M) (hall : ∀ i, i ∈ todo) : Copied now now values todo where
  grown _ := le_rfl
  lower i hi := absurd (hall i) hi
  upper i hi := absurd (hall i) hi

theorem Copied.grow (h : Copied begun now values todo) (hgrow : ∀ i, now i ≤ now' i) :
    Copied begun now' values todo where
  grown i := (h.grown i).trans (hgrow i)
  lower := h.lower
  upper i hi := (h.upper i hi).trans (hgrow i)

theorem Copied.copy [DecidableEq ι] (h : Copied begun now values (i :: todo)) :
    Copied begun now (Function.update values i (now i)) todo := by
  constructor
  · exact h.grown
  · intro j hj
    by_cases heq : j = i
    · subst heq
      simpa using h.grown j
    · simpa [heq] using h.lower j (by simp [heq, hj])
  · intro j hj
    by_cases heq : j = i
    · subst heq
      simp
    · simpa [heq] using h.upper j (by simp [heq, hj])

end Order

section Sums

variable [Fintype ι] [AddCommMonoid M] [PartialOrder M] [IsOrderedAddMonoid M]

theorem Copied.sum_between (h : Copied begun now values []) :
    ∑ i, begun i ≤ ∑ i, values i ∧ ∑ i, values i ≤ ∑ i, now i :=
  ⟨Finset.sum_le_sum fun i _ ↦ h.lower i List.not_mem_nil,
    Finset.sum_le_sum fun i _ ↦ h.upper i List.not_mem_nil⟩

end Sums

/-- Differences that have led from `a` to `b`, and one more that leads on to `c`. -/
theorem sum_snoc_add [AddCommMonoid M] {l : List M} {a b c d : M} (hsum : l.sum + a = b)
    (hdiff : d + b = c) : (l ++ [d]).sum + a = c := by
  rw [List.sum_append, List.sum_singleton, add_comm l.sum, add_assoc, hsum, hdiff]

end Scan
