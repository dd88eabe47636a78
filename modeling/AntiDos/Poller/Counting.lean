import AntiDos.Poller.Detect
import Mathlib.Data.List.Flatten
import Mathlib.Data.Finset.Dedup

/-!
# The counting loop

The two outer loops of `detect_attackers` visit the pairs of a packet and a policy whose address it
was sent to. They are flattened to one list of hits, and each hit either finds its source in the
visible rows of its policy or opens the row at the shared index.
-/

namespace AntiDos

open Faulting

/-! ## Hits -/

/-- The hits of one packet on the policies `l`, numbered from `k`. -/
def packetHits (m : PktMeta) (l : List Policy) (k : ℕ) : List (ℕ × UInt32) :=
  (l.zipIdx k).filterMap fun pj ↦ if m.dst = pj.1.ip then some (pj.2, m.src) else none

/-- The pairs of a policy index and a source, in the order in which the loops visit them. -/
def hits (pol : PolicyTable) (q : List PktMeta) : List (ℕ × UInt32) :=
  q.flatMap fun m ↦ packetHits m pol.policies 0

/-- The number of distinct pairs of a policy and a source that sent to its address. -/
def demand (pol : PolicyTable) (q : List PktMeta) : ℕ := (hits pol q).toFinset.card

def sentTo (q : List PktMeta) (src dst : UInt32) : ℕ :=
  q.countP fun m ↦ m.src = src ∧ m.dst = dst

theorem packetHits_cons (m : PktMeta) (p : Policy) (l : List Policy) (k : ℕ) :
    packetHits m (p :: l) k =
      (if m.dst = p.ip then [(k, m.src)] else []) ++ packetHits m l (k + 1) := by
  by_cases h : m.dst = p.ip <;> simp [packetHits, List.zipIdx_cons, h]

theorem mem_packetHits {m : PktMeta} {l : List Policy} {k j : ℕ} {a : UInt32} :
    (j, a) ∈ packetHits m l k ↔
      ∃ p, (p, j) ∈ l.zipIdx k ∧ m.dst = p.ip ∧ m.src = a := by
  simp only [packetHits, List.mem_filterMap, Prod.exists]
  constructor
  · rintro ⟨p, i, hmem, hif⟩
    by_cases h : m.dst = p.ip
    · obtain ⟨rfl, rfl⟩ : i = j ∧ m.src = a := by simpa [h] using hif
      exact ⟨p, hmem, h, rfl⟩
    · simp [h] at hif
  · rintro ⟨p, hmem, h, rfl⟩
    exact ⟨p, j, hmem, by simp [h]⟩

theorem mem_hits {pol : PolicyTable} {q : List PktMeta} {j : ℕ} {a : UInt32} :
    (j, a) ∈ hits pol q ↔
      ∃ m ∈ q, ∃ p, pol.policies[j]? = some p ∧ m.dst = p.ip ∧ m.src = a := by
  simp [hits, mem_packetHits, List.mem_zipIdx_iff_getElem?]

theorem count_packetHits {m : PktMeta} {l : List Policy} {k i : ℕ} {p : Policy} (a : UInt32)
    (hp : l[i]? = some p) :
    (packetHits m l k).count (k + i, a) = if m.src = a ∧ m.dst = p.ip then 1 else 0 := by
  induction l generalizing k i with
  | nil => simp at hp
  | cons r l ih =>
      rw [packetHits_cons, List.count_append]
      cases i with
      | zero =>
          obtain rfl : r = p := by simpa using hp
          have htail : (packetHits m l (k + 1)).count (k + 0, a) = 0 := by
            rw [List.count_eq_zero]
            intro hmem
            obtain ⟨_, hz, -⟩ := mem_packetHits.mp hmem
            have := List.le_snd_of_mem_zipIdx hz
            omega
          rw [htail]
          by_cases hd : m.dst = r.ip <;> by_cases hs : m.src = a <;> simp [hd, hs]
      | succ i =>
          have hhead : (if m.dst = r.ip then [(k, m.src)] else []).count (k + (i + 1), a) = 0 := by
            by_cases hd : m.dst = r.ip <;> simp [hd]
          rw [hhead, Nat.zero_add, show k + (i + 1) = k + 1 + i by omega]
          exact ih (by simpa using hp)

theorem count_hits {pol : PolicyTable} {q : List PktMeta} {j : ℕ} {p : Policy} (a : UInt32)
    (hp : pol.policies[j]? = some p) : (hits pol q).count (j, a) = sentTo q a p.ip := by
  induction q with
  | nil => simp [hits, sentTo]
  | cons m q ih =>
      have hm := count_packetHits (m := m) (k := 0) a hp
      rw [Nat.zero_add] at hm
      have hcons : hits pol (m :: q) = packetHits m pol.policies 0 ++ hits pol q := by
        simp [hits]
      rw [hcons, List.count_append, hm, ih, sentTo, sentTo, List.countP_cons]
      by_cases hd : m.src = a ∧ m.dst = p.ip <;> simp [hd, Nat.add_comm]

theorem countQueue_eq (pol : PolicyTable) (c : Counting) (q : List PktMeta) :
    countQueue pol c q = (hits pol q).foldlM (fun c h ↦ countHit c h.1 h.2) c := by
  have hpacket : ∀ (m : PktMeta) (l : List Policy) (k : ℕ) (c : Counting),
      (l.zipIdx k).foldlM
          (fun c pj ↦ if m.dst = pj.1.ip then countHit c pj.2 m.src else .ok c) c =
        (packetHits m l k).foldlM (fun c h ↦ countHit c h.1 h.2) c := by
    intro m l k c
    induction l generalizing k c with
    | nil => rfl
    | cons p l ih =>
        rw [packetHits_cons, List.zipIdx_cons, List.foldlM_cons]
        by_cases h : m.dst = p.ip
        · rw [if_pos h, if_pos h, List.singleton_append, List.foldlM_cons]
          exact bind_congr fun c' ↦ ih (k + 1) c'
        · rw [if_neg h, if_neg h, List.nil_append, ok_bind]
          exact ih (k + 1) c
  induction q generalizing c with
  | nil => rfl
  | cons m q ih =>
      simp only [countQueue, List.foldlM_cons, hits, List.flatMap_cons, List.foldlM_append]
      simp only [countQueue, hits] at ih
      rw [countPacket, hpacket]
      exact bind_congr ih

/-! ## One hit -/

/-- Count a packet in row `k` of policy `j`. -/
def Counting.bump (c : Counting) (j k : ℕ) : Counting :=
  let t := c.psi j
  { c with
    psi := Function.update c.psi j
      { t with ip1 := Function.update t.ip1 k (t.ip1 k + 1), numIp := c.numIp } }

/-- Open the row at the shared index for source `a` of policy `j`. -/
def Counting.enter (c : Counting) (j : ℕ) (a : UInt32) : Counting :=
  let t := c.psi j
  ⟨Function.update c.psi j
    ⟨Function.update t.ip0 c.numIp a, Function.update t.ip1 c.numIp 1, c.numIp + 1⟩, c.numIp + 1⟩

theorem findRow_cases (t : PolicyStatsIp) (a : UInt32) {k n : ℕ} (h : k + n ≤ psiRows) :
    (∃ i, k ≤ i ∧ i < k + n ∧ t.ip0 i = a ∧ findRow t a k n = .ok (some i)) ∨
      ((∀ i, k ≤ i → i < k + n → t.ip0 i ≠ a) ∧ findRow t a k n = .ok none) := by
  induction n generalizing k with
  | zero =>
      refine Or.inr ⟨fun i hk hi ↦ ?_, rfl⟩
      omega
  | succ n ih =>
      have hread : read Fault.psiRow psiRows t.ip0 k = .ok (t.ip0 k) := read_of_lt _ (by omega)
      by_cases hk : a = t.ip0 k
      · refine Or.inl ⟨k, le_rfl, by omega, hk.symm, ?_⟩
        simp [findRow, hread, hk]
      · have hnext : findRow t a k (n + 1) = findRow t a (k + 1) n := by
          simp [findRow, hread, hk]
        rw [hnext]
        rcases ih (k := k + 1) (by omega) with ⟨i, hki, hin, hia, hok⟩ | ⟨hall, hok⟩
        · exact Or.inl ⟨i, by omega, by omega, hia, hok⟩
        · refine Or.inr ⟨fun i hki hin ↦ ?_, hok⟩
          rcases Nat.eq_or_lt_of_le hki with rfl | hlt
          · exact fun heq ↦ hk heq.symm
          · exact hall i hlt (by omega)

/-- A hit finds its source in a visible row, or opens a row while there is one left. -/
theorem countHit_cases (c : Counting) (j : ℕ) (a : UInt32) (h : (c.psi j).numIp ≤ psiRows) :
    (∃ k < (c.psi j).numIp, (c.psi j).ip0 k = a ∧ countHit c j a = .ok (c.bump j k)) ∨
      ((∀ k < (c.psi j).numIp, (c.psi j).ip0 k ≠ a) ∧
        countHit c j a =
          if c.numIp < psiRows then .ok (c.enter j a) else .error (.psiRow c.numIp)) := by
  rcases findRow_cases (c.psi j) a (k := 0) (n := (c.psi j).numIp) (by omega) with
    ⟨k, -, hk, hka, hfind⟩ | ⟨hall, hfind⟩
  · rw [Nat.zero_add] at hk
    have hlt : k < psiRows := by omega
    refine Or.inl ⟨k, hk, hka, ?_⟩
    simp [countHit, hfind, read_of_lt _ hlt, write_of_lt _ _ hlt, Counting.bump]
  · refine Or.inr ⟨fun k hk ↦ hall k (Nat.zero_le k) (by omega), ?_⟩
    by_cases hroom : c.numIp < psiRows
    · simp [countHit, hfind, write_of_lt _ _ hroom, Counting.enter, hroom]
    · simp [countHit, hfind, write_of_le _ _ (Nat.not_lt.mp hroom), hroom]

theorem countHit_ok_cases {c c' : Counting} {j : ℕ} {a : UInt32}
    (hle : (c.psi j).numIp ≤ psiRows) (h : countHit c j a = .ok c') :
    (∃ k < (c.psi j).numIp, (c.psi j).ip0 k = a ∧ c' = c.bump j k) ∨
      ((∀ k < (c.psi j).numIp, (c.psi j).ip0 k ≠ a) ∧ c.numIp < psiRows ∧ c' = c.enter j a) := by
  rcases countHit_cases c j a hle with ⟨k, hk, hka, hok⟩ | ⟨hall, hok⟩
  · exact Or.inl ⟨k, hk, hka, by simpa [hok] using h.symm⟩
  · by_cases hroom : c.numIp < psiRows
    · exact Or.inr ⟨hall, hroom, by simpa [hok, hroom] using h.symm⟩
    · simp [hok, hroom] at h

section Projections

variable (c : Counting) (i j k : ℕ) (a : UInt32)

@[simp] theorem bump_numIp : (c.bump j k).numIp = c.numIp := rfl

@[simp] theorem enter_numIp : (c.enter j a).numIp = c.numIp + 1 := rfl

@[simp] theorem bump_psi_self : (c.bump j k).psi j =
    { c.psi j with
      ip1 := Function.update (c.psi j).ip1 k ((c.psi j).ip1 k + 1), numIp := c.numIp } := by
  simp [Counting.bump]

@[simp] theorem enter_psi_self : (c.enter j a).psi j =
    ⟨Function.update (c.psi j).ip0 c.numIp a, Function.update (c.psi j).ip1 c.numIp 1,
      c.numIp + 1⟩ := by
  simp [Counting.enter]

theorem bump_psi_of_ne (h : i ≠ j) : (c.bump j k).psi i = c.psi i := by
  simp [Counting.bump, h]

theorem enter_psi_of_ne (h : i ≠ j) : (c.enter j a).psi i = c.psi i := by
  simp [Counting.enter, h]

end Projections

/-! ## The shared index

`W` collects the pairs for which a row was opened. A pair is found again once it has a row, so the
shared index is bounded by the number of distinct pairs, whatever the stack held. -/

theorem toFinset_subset_append (l r : List (ℕ × UInt32)) : l.toFinset ⊆ (l ++ r).toFinset := by
  rw [List.toFinset_append]
  exact Finset.subset_union_left

structure Covered (W : Finset (ℕ × UInt32)) (c : Counting) : Prop where
  card : W.card = c.numIp
  listed : ∀ j a, (j, a) ∈ W → ∃ k < (c.psi j).numIp, (c.psi j).ip0 k = a
  le : ∀ j, (c.psi j).numIp ≤ c.numIp
  room : c.numIp ≤ psiRows

theorem Covered.init (stack : ℕ → PolicyStatsIp) : Covered ∅ (Counting.init stack) where
  card := rfl
  listed := by simp
  le _ := le_rfl
  room := Nat.zero_le _

variable {W : Finset (ℕ × UInt32)} {c : Counting}

theorem Covered.numIp_le (h : Covered W c) (j : ℕ) : (c.psi j).numIp ≤ psiRows :=
  (h.le j).trans h.room

theorem Covered.bump (h : Covered W c) (j k : ℕ) : Covered W (c.bump j k) where
  card := h.card
  listed i a hmem := by
    obtain ⟨r, hr, hra⟩ := h.listed i a hmem
    by_cases hij : i = j
    · subst hij
      exact ⟨r, by simpa using hr.trans_le (h.le i), by simpa using hra⟩
    · exact ⟨r, by rwa [bump_psi_of_ne _ _ _ _ hij], by rwa [bump_psi_of_ne _ _ _ _ hij]⟩
  le i := by
    by_cases hij : i = j
    · subst hij
      simp
    · rw [bump_psi_of_ne _ _ _ _ hij]
      exact h.le i
  room := h.room

theorem Covered.not_mem (h : Covered W c) {j : ℕ} {a : UInt32}
    (ha : ∀ k < (c.psi j).numIp, (c.psi j).ip0 k ≠ a) : (j, a) ∉ W := by
  intro hmem
  obtain ⟨k, hk, hka⟩ := h.listed j a hmem
  exact ha k hk hka

theorem Covered.enter (h : Covered W c) {j : ℕ} {a : UInt32}
    (ha : ∀ k < (c.psi j).numIp, (c.psi j).ip0 k ≠ a) (hroom : c.numIp < psiRows) :
    Covered (insert (j, a) W) (c.enter j a) where
  card := by rw [Finset.card_insert_of_notMem (h.not_mem ha), h.card, enter_numIp]
  listed i b hmem := by
    rcases Finset.mem_insert.mp hmem with heq | hmem
    · obtain ⟨rfl, rfl⟩ := Prod.mk.inj heq
      exact ⟨c.numIp, by simp, by simp⟩
    · obtain ⟨r, hr, hrb⟩ := h.listed i b hmem
      by_cases hij : i = j
      · subst hij
        have hlt : r < c.numIp := hr.trans_le (h.le i)
        exact ⟨r, by simpa using Nat.lt_succ_of_lt hlt, by simpa [Nat.ne_of_lt hlt] using hrb⟩
      · exact ⟨r, by rwa [enter_psi_of_ne _ _ _ _ hij], by rwa [enter_psi_of_ne _ _ _ _ hij]⟩
  le i := by
    by_cases hij : i = j
    · subst hij
      simp
    · rw [enter_psi_of_ne _ _ _ _ hij]
      exact (h.le i).trans (Nat.le_succ _)
  room := hroom

theorem Covered.hit {pre : List (ℕ × UInt32)} {c' : Counting} {j : ℕ} {a : UInt32}
    (h : ∃ W ⊆ pre.toFinset, Covered W c) (hstep : countHit c j a = .ok c') :
    ∃ W ⊆ (pre ++ [(j, a)]).toFinset, Covered W c' := by
  obtain ⟨W, hW, hcov⟩ := h
  have hsub : pre.toFinset ⊆ (pre ++ [(j, a)]).toFinset := toFinset_subset_append _ _
  rcases countHit_ok_cases (hcov.numIp_le j) hstep with ⟨k, -, -, rfl⟩ | ⟨hall, hroom, rfl⟩
  · exact ⟨W, hW.trans hsub, hcov.bump j k⟩
  · exact ⟨insert (j, a) W, Finset.insert_subset (by simp) (hW.trans hsub), hcov.enter hall hroom⟩

theorem countQueue_covered {pol : PolicyTable} {q : List PktMeta} {stack : ℕ → PolicyStatsIp}
    (h : countQueue pol (Counting.init stack) q = .ok c) :
    ∃ W ⊆ (hits pol q).toFinset, Covered W c := by
  rw [countQueue_eq] at h
  refine foldlM_processed (fun pre c ↦ ∃ W ⊆ pre.toFinset, Covered W c) ?_
    ⟨∅, by simp, Covered.init stack⟩ h
  rintro pre ⟨j, a⟩ post b b' - hcov hstep
  exact Covered.hit hcov hstep

theorem countQueue_rows {pol : PolicyTable} {q : List PktMeta} {stack : ℕ → PolicyStatsIp}
    (h : countQueue pol (Counting.init stack) q = .ok c) (j k : ℕ) :
    (c.psi j).ip0 k = (stack j).ip0 k ∨ (j, (c.psi j).ip0 k) ∈ hits pol q := by
  rw [countQueue_eq] at h
  suffices hall : (∃ W ⊆ (hits pol q).toFinset, Covered W c) ∧
      ∀ i r, (c.psi i).ip0 r = (stack i).ip0 r ∨ (i, (c.psi i).ip0 r) ∈ hits pol q from hall.2 j k
  refine foldlM_processed (fun pre c ↦ (∃ W ⊆ pre.toFinset, Covered W c) ∧
    ∀ i r, (c.psi i).ip0 r = (stack i).ip0 r ∨ (i, (c.psi i).ip0 r) ∈ pre) ?_
    ⟨⟨∅, by simp, Covered.init stack⟩, fun _ _ ↦ Or.inl rfl⟩ h
  rintro pre ⟨j, a⟩ post b b' - ⟨hcovered, hrows⟩ hstep
  refine ⟨Covered.hit hcovered hstep, fun i r ↦ ?_⟩
  obtain ⟨W, -, hcov⟩ := hcovered
  have hold : ∀ i r, (b.psi i).ip0 r = (stack i).ip0 r ∨ (i, (b.psi i).ip0 r) ∈ pre ++ [(j, a)] :=
    fun i r ↦ (hrows i r).imp_right (List.mem_append_left _)
  rcases countHit_ok_cases (hcov.numIp_le j) hstep with ⟨k, -, -, rfl⟩ | ⟨hall, hroom, rfl⟩
  · by_cases hij : i = j
    · subst hij
      simpa using hold i r
    · rw [bump_psi_of_ne _ _ _ _ hij]
      exact hold i r
  · by_cases hij : i = j
    · subst hij
      by_cases hr : r = b.numIp
      · subst hr
        simp
      · simpa [hr] using hold i r
    · rw [enter_psi_of_ne _ _ _ _ hij]
      exact hold i r

/-- While the demand fits the table, no stack content drives the loop out of bounds. -/
theorem countQueue_total {pol : PolicyTable} {q : List PktMeta} (stack : ℕ → PolicyStatsIp)
    (hdemand : demand pol q ≤ psiRows) :
    ∃ c, countQueue pol (Counting.init stack) q = .ok c := by
  rw [countQueue_eq]
  suffices hrun : ∃ c, (hits pol q).foldlM (fun c h ↦ countHit c h.1 h.2)
      (Counting.init stack) = .ok c ∧ ∃ W ⊆ (hits pol q).toFinset, Covered W c from
    hrun.imp fun _ h ↦ h.1
  refine foldlM_total (fun pre c ↦ ∃ W ⊆ pre.toFinset, Covered W c) ?_
    ⟨∅, by simp, Covered.init stack⟩
  rintro pre ⟨j, a⟩ post b hsplit ⟨W, hW, hcov⟩
  have hpre : (pre ++ [(j, a)]).toFinset ⊆ (hits pol q).toFinset := by
    rw [hsplit, List.append_cons pre (j, a) post]
    exact toFinset_subset_append _ _
  have hsub : pre.toFinset ⊆ (pre ++ [(j, a)]).toFinset :=
    toFinset_subset_append _ _
  rcases countHit_cases b j a (hcov.numIp_le j) with ⟨k, -, -, hok⟩ | ⟨hall, hok⟩
  · exact ⟨b.bump j k, hok, W, hW.trans hsub, hcov.bump j k⟩
  · have hins : insert (j, a) W ⊆ (pre ++ [(j, a)]).toFinset :=
      Finset.insert_subset (by simp) (hW.trans hsub)
    -- The pair is new, so the opened rows and this one are distinct pairs of the window.
    have hroom : b.numIp < psiRows := by
      have hcard := (Finset.card_le_card (hins.trans hpre)).trans hdemand
      rwa [Finset.card_insert_of_notMem (hcov.not_mem hall), hcov.card] at hcard
    exact ⟨b.enter j a, by rw [hok, if_pos hroom], insert (j, a) W, hins, hcov.enter hall hroom⟩

end AntiDos
