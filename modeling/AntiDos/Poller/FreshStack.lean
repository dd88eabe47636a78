import AntiDos.Poller.Reporting
import Mathlib.Algebra.Group.Nat.Defs
import Mathlib.Data.Finset.Range

/-!
# A stack without any source of the queue

The worst content of the uninitialised tables is an address that sends nothing, with the largest
count in every row. No packet is then counted in a stale row, so every pair of a policy and a
source opens a row of its own, and as soon as two policies are hit, one of them shows a stale row.
-/

namespace AntiDos

open Faulting

def freshStack (z : UInt32) : ℕ → PolicyStatsIp := fun _ ↦ ⟨fun _ ↦ z, fun _ ↦ 0xFFFFFFFF, 0⟩

def StaleStart (z : UInt32) (t : PolicyStatsIp) : Prop := t.ip0 0 = z ∧ t.ip1 0 = 0xFFFFFFFF

/-- The tables after the pairs `P` were hit on such a stack. -/
structure Fresh (z : UInt32) (P : Finset (ℕ × UInt32)) (c : Counting) : Prop
    extends Covered P c where
  rows : ∀ j k, (c.psi j).ip0 k = z ∨ (j, (c.psi j).ip0 k) ∈ P
  start : c.numIp = 0 → ∀ j, StaleStart z (c.psi j)
  first : ∃ j₁, ∀ j, j ≠ j₁ → StaleStart z (c.psi j)

variable {z : UInt32} {P : Finset (ℕ × UInt32)} {c : Counting}

theorem Fresh.init (z : UInt32) : Fresh z ∅ (Counting.init (freshStack z)) where
  toCovered := Covered.init _
  rows _ _ := Or.inl rfl
  start _ _ := ⟨rfl, rfl⟩
  first := ⟨0, fun _ _ ↦ ⟨rfl, rfl⟩⟩

theorem Fresh.mem_of_row (h : Fresh z P c) {j k : ℕ} {a : UInt32} (hka : (c.psi j).ip0 k = a)
    (haz : a ≠ z) : (j, a) ∈ P := by
  rcases h.rows j k with hz | hmem
  · exact (haz (hka.symm.trans hz)).elim
  · rwa [hka] at hmem

theorem Fresh.bump (h : Fresh z P c) {j k : ℕ} (hk : k < (c.psi j).numIp)
    (hkz : (c.psi j).ip0 k ≠ z) : Fresh z P (c.bump j k) where
  toCovered := h.toCovered.bump j k
  rows i r := by
    by_cases hij : i = j
    · subst hij
      simpa using h.rows i r
    · rw [bump_psi_of_ne _ _ _ _ hij]
      exact h.rows i r
  start hzero := by
    have hle := h.le j
    rw [bump_numIp] at hzero
    omega
  first := by
    obtain ⟨j₁, hj₁⟩ := h.first
    refine ⟨j₁, fun i hi ↦ ?_⟩
    by_cases hij : i = j
    · subst hij
      have hk0 : (0 : ℕ) ≠ k := fun heq ↦ hkz (heq ▸ (hj₁ i hi).1)
      simpa [StaleStart, hk0] using hj₁ i hi
    · rw [bump_psi_of_ne _ _ _ _ hij]
      exact hj₁ i hi

theorem Fresh.enter (h : Fresh z P c) {j : ℕ} {a : UInt32}
    (ha : ∀ k < (c.psi j).numIp, (c.psi j).ip0 k ≠ a) (hroom : c.numIp < psiRows) :
    Fresh z (insert (j, a) P) (c.enter j a) where
  toCovered := h.toCovered.enter ha hroom
  rows i r := by
    by_cases hij : i = j
    · subst hij
      by_cases hr : r = c.numIp
      · subst hr
        exact Or.inr (by simp)
      · rcases h.rows i r with hz | hmem
        · exact Or.inl (by simpa [hr] using hz)
        · exact Or.inr (Finset.mem_insert_of_mem (by simpa [hr] using hmem))
    · rw [enter_psi_of_ne _ _ _ _ hij]
      exact (h.rows i r).imp_right Finset.mem_insert_of_mem
  start hzero := by simp at hzero
  first := by
    -- The first row ever opened is row 0 of the first policy hit.
    rcases Nat.eq_zero_or_pos c.numIp with hzero | hpos
    · refine ⟨j, fun i hi ↦ ?_⟩
      rw [enter_psi_of_ne _ _ _ _ hi]
      exact h.start hzero i
    · obtain ⟨j₁, hj₁⟩ := h.first
      refine ⟨j₁, fun i hi ↦ ?_⟩
      by_cases hij : i = j
      · subst hij
        simpa [StaleStart, Nat.ne_of_lt hpos] using hj₁ i hi
      · rw [enter_psi_of_ne _ _ _ _ hij]
        exact hj₁ i hi

/-- On a stack without any source of the queue, every pair hit has its own row. -/
theorem countQueue_fresh {pol : PolicyTable} {q : List PktMeta} (hz : ∀ m ∈ q, m.src ≠ z)
    (h : countQueue pol (Counting.init (freshStack z)) q = .ok c) :
    Fresh z (hits pol q).toFinset c := by
  rw [countQueue_eq] at h
  refine foldlM_processed (fun pre c ↦ Fresh z pre.toFinset c) ?_ (Fresh.init z) h
  rintro pre ⟨j, a⟩ post b b' hsplit hI hstep
  have haz : a ≠ z := by
    have hmem : (j, a) ∈ hits pol q := by rw [hsplit]; simp
    obtain ⟨m, hm, _, -, -, rfl⟩ := mem_hits.mp hmem
    exact hz m hm
  have hset : (pre ++ [(j, a)]).toFinset = insert (j, a) pre.toFinset := by
    simp [List.toFinset_append]
  rw [hset]
  rcases countHit_ok_cases (hI.numIp_le j) hstep with ⟨k, hk, hka, rfl⟩ | ⟨hall, hroom, rfl⟩
  · rw [Finset.insert_eq_of_mem (hI.mem_of_row hka haz)]
    exact hI.bump hk (hka ▸ haz)
  · exact hI.enter hall hroom

theorem Fresh.stale_visible (h : Fresh z P c) {i j : ℕ} {a b : UInt32} (hi : (i, a) ∈ P)
    (hj : (j, b) ∈ P) (hij : i ≠ j) :
    ∃ r d, (r, d) ∈ P ∧ 0 < (c.psi r).numIp ∧ StaleStart z (c.psi r) := by
  obtain ⟨j₁, hj₁⟩ := h.first
  have hvisible : ∀ r d, (r, d) ∈ P → 0 < (c.psi r).numIp := by
    intro r d hmem
    obtain ⟨k, hk, -⟩ := h.listed r d hmem
    exact Nat.zero_lt_of_lt hk
  by_cases hi₁ : i = j₁
  · exact ⟨j, b, hj, hvisible j b hj, hj₁ j fun heq ↦ hij (hi₁.trans heq.symm)⟩
  · exact ⟨i, a, hi, hvisible i a hi, hj₁ i hi₁⟩

theorem exists_notMem (l : List UInt32) (hl : l.length < 2 ^ 32) : ∃ z : UInt32, z ∉ l := by
  have hcard : (l.map UInt32.toNat).toFinset.card < (Finset.range (2 ^ 32)).card := by
    rw [Finset.card_range]
    exact (List.toFinset_card_le _).trans_lt (by simpa using hl)
  obtain ⟨n, hn, hnot⟩ := Finset.exists_mem_notMem_of_card_lt_card hcard
  refine ⟨UInt32.ofNat n, fun hmem ↦ hnot ?_⟩
  rw [List.mem_toFinset, List.mem_map]
  refine ⟨_, hmem, ?_⟩
  exact UInt32.toNat_ofNat_of_lt' (Finset.mem_range.mp hn)

end AntiDos
