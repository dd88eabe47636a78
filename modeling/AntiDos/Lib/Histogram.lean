import Mathlib.Data.Nat.Notation
import Mathlib.Logic.Function.Basic
import Mathlib.Data.List.Count

/-!
# Histograms kept in parallel rows

A histogram of a list is kept as a row of keys and a row of counts, of which the first `n` places
are in use. An element is counted by bumping the place of its key, or by opening a new place when
no place has the key.
-/

namespace Histogram

variable {α : Type*} [BEq α]

/-- The first `n` places of the two rows are the histogram of `xs`. -/
structure Holds (n : ℕ) (key : ℕ → α) (cnt : ℕ → ℕ) (xs : List α) : Prop where
  inj : ∀ i < n, ∀ j < n, key i = key j → i = j
  mem_iff : ∀ a, a ∈ xs ↔ ∃ i < n, key i = a
  count : ∀ i < n, cnt i = xs.count (key i)

variable {n : ℕ} {key : ℕ → α} {cnt : ℕ → ℕ} {xs : List α}

theorem Holds.empty (key : ℕ → α) (cnt : ℕ → ℕ) : Holds 0 key cnt [] where
  inj := by simp
  mem_iff := by simp
  count := by simp

variable [LawfulBEq α]

theorem Holds.bump (h : Holds n key cnt xs) {i : ℕ} (hi : i < n) :
    Holds n key (Function.update cnt i (cnt i + 1)) (xs ++ [key i]) where
  inj := h.inj
  mem_iff a := by
    simp only [List.mem_append, List.mem_singleton, h.mem_iff a]
    constructor
    · rintro (hmem | rfl)
      · exact hmem
      · exact ⟨i, hi, rfl⟩
    · exact Or.inl
  count j hj := by
    rw [List.count_append, ← h.count j hj]
    by_cases hji : j = i
    · subst hji
      simp
    · have hne : key i ≠ key j := fun heq ↦ hji (h.inj j hj i hi heq.symm)
      simp [Function.update_of_ne hji, hne]

theorem Holds.insert (h : Holds n key cnt xs) {a : α} (ha : ∀ i < n, key i ≠ a) :
    Holds (n + 1) (Function.update key n a) (Function.update cnt n 1) (xs ++ [a]) := by
  have hkey : ∀ i < n, Function.update key n a i = key i :=
    fun i hi ↦ Function.update_of_ne (Nat.ne_of_lt hi) a key
  have hnew : Function.update key n a n = a := Function.update_self n a key
  have hnot : a ∉ xs := by
    intro hmem
    obtain ⟨i, hi, hia⟩ := (h.mem_iff a).mp hmem
    exact ha i hi hia
  constructor
  · intro i hi j hj heq
    rcases Nat.lt_succ_iff_lt_or_eq.mp hi with hi | rfl <;>
      rcases Nat.lt_succ_iff_lt_or_eq.mp hj with hj | rfl
    · exact h.inj i hi j hj (by rwa [hkey i hi, hkey j hj] at heq)
    · exact (ha i hi (by rwa [hkey i hi, hnew] at heq)).elim
    · exact (ha j hj (by rw [hkey j hj, hnew] at heq; exact heq.symm)).elim
    · rfl
  · intro b
    simp only [List.mem_append, List.mem_singleton, h.mem_iff b]
    constructor
    · rintro (⟨i, hi, hib⟩ | rfl)
      · exact ⟨i, Nat.lt_succ_of_lt hi, (hkey i hi).trans hib⟩
      · exact ⟨n, Nat.lt_succ_self n, hnew⟩
    · rintro ⟨i, hi, hib⟩
      rcases Nat.lt_succ_iff_lt_or_eq.mp hi with hi | rfl
      · exact Or.inl ⟨i, hi, (hkey i hi).symm.trans hib⟩
      · exact Or.inr (hib.symm.trans hnew)
  · intro i hi
    rw [List.count_append]
    rcases Nat.lt_succ_iff_lt_or_eq.mp hi with hi | rfl
    · have hne : a ≠ key i := (ha i hi).symm
      rw [Function.update_of_ne (Nat.ne_of_lt hi), hkey i hi, h.count i hi]
      simp [hne]
    · rw [Function.update_self, hnew, List.count_eq_zero_of_not_mem hnot]
      simp

/-- Some place of key `a` counts more than `c` exactly when `a` occurs more than `c` times. -/
theorem Holds.exceeds_iff (h : Holds n key cnt xs) (a : α) (c : ℕ) :
    (∃ i < n, key i = a ∧ c < cnt i) ↔ c < xs.count a := by
  constructor
  · rintro ⟨i, hi, rfl, hc⟩
    rwa [← h.count i hi]
  · intro hc
    have hmem : a ∈ xs := List.count_pos_iff.mp (Nat.lt_of_le_of_lt (Nat.zero_le c) hc)
    obtain ⟨i, hi, rfl⟩ := (h.mem_iff a).mp hmem
    exact ⟨i, hi, rfl, by rwa [h.count i hi]⟩

end Histogram
