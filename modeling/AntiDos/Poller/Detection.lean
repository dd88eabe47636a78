import AntiDos.Lib.Histogram
import AntiDos.Poller.FreshStack

/-!
# When the detection is sound

The table of a policy shows the rows below the shared index, also those opened for another policy,
which in this table hold whatever the stack held. So a window is judged correctly on every stack
exactly when at most one policy is hit in it, and no threshold is negative: the comparison of an
unsigned count with a negative threshold is never true.
-/

namespace AntiDos

open Faulting

/-! ## Bounds -/

/-- Every index with which `detect_attackers` accesses a table on this stack is in bounds. -/
def InBounds (pol : PolicyTable) (q : List PktMeta) (stack : ℕ → PolicyStatsIp) : Prop :=
  ∀ w s, w.stack = stack → s.queue = q → ∃ r, detectAttackers pol w s = .ok r

theorem inBounds_iff {pol : PolicyTable} {q : List PktMeta} {stack : ℕ → PolicyStatsIp} :
    InBounds pol q stack ↔ ∃ c, countQueue pol (Counting.init stack) q = .ok c := by
  constructor
  · intro h
    let w : Window := ⟨stack, fun _ _ ↦ 0, fun _ _ ↦ .granted⟩
    let s : Poller := { Poller.init ⟨∅, ∅, mapExpect⟩ with queue := q }
    exact (detectAttackers_ok_iff pol w s).mp (h w s rfl rfl)
  · rintro h w s rfl rfl
    exact (detectAttackers_ok_iff pol w s).mpr h

theorem demand_le_of_inBounds {pol : PolicyTable} {q : List PktMeta} {z : UInt32}
    (hz : ∀ m ∈ q, m.src ≠ z) (h : InBounds pol q (freshStack z)) : demand pol q ≤ psiRows := by
  obtain ⟨c, hc⟩ := inBounds_iff.mp h
  have hfresh := countQueue_fresh hz hc
  rw [demand, hfresh.card]
  exact hfresh.room

theorem exists_notSource {q : List PktMeta} (hq : q.length ≤ queueSlots) (l : List UInt32)
    (hl : l.length ≤ 1) : ∃ z, (∀ m ∈ q, m.src ≠ z) ∧ z ∉ l := by
  have hlen : (l ++ q.map (·.src)).length < 2 ^ 32 := by
    rw [List.length_append, List.length_map]
    unfold queueSlots at hq
    omega
  obtain ⟨z, hz⟩ := exists_notMem _ hlen
  rw [List.mem_append, not_or] at hz
  refine ⟨z, fun m hm heq ↦ hz.2 ?_, hz.1⟩
  exact List.mem_map.mpr ⟨m, hm, heq⟩

/-- The tables are indexed in bounds on every stack exactly when the window has at most 100 distinct
pairs of a policy and a source that sent to it. -/
theorem detectAttackers_inBounds_iff (pol : PolicyTable) (q : List PktMeta)
    (hq : q.length ≤ queueSlots) :
    (∀ stack, InBounds pol q stack) ↔ demand pol q ≤ psiRows := by
  constructor
  · intro h
    obtain ⟨z, hz, -⟩ := exists_notSource hq [] (by simp)
    exact demand_le_of_inBounds hz (h (freshStack z))
  · intro hdemand stack
    exact inBounds_iff.mpr (countQueue_total stack hdemand)

/-- The table that `policy/policy` describes: 100 packets per second to `10.10.10.10` and as many to
`10.10.30.1`. -/
def policyFile : PolicyTable := ⟨[⟨1, 0x0A0A0A0A, 100⟩, ⟨2, 0x011E0A0A, 100⟩], by decide⟩

def packet (src dst : UInt32) : PktMeta := { PktMeta.zero with src := src, dst := dst }

/-- Two windows, each with several sources and both policies. -/
def sampleWindows : List PktMeta × List PktMeta :=
  ([packet 7 0x0A0A0A0A, packet 8 0x0A0A0A0A, packet 7 0x011E0A0A, packet 7 0x0A0A0A0A],
    [packet 8 0x011E0A0A, packet 9 0x0A0A0A0A, packet 8 0x0A0A0A0A])

theorem inBounds_two_windows : InBounds policyFile sampleWindows.1 (freshStack 0) ∧
    InBounds policyFile sampleWindows.2 (freshStack 7) :=
  ⟨(detectAttackers_inBounds_iff policyFile sampleWindows.1 (by decide)).mpr (by decide) _,
    (detectAttackers_inBounds_iff policyFile sampleWindows.2 (by decide)).mpr (by decide) _⟩

def flood : List PktMeta :=
  (List.range 101).map fun i ↦ packet (UInt32.ofNat (i + 1)) 0x0A0A0A0A

theorem demand_flood : demand policyFile flood = 101 := by
  have hhits : hits policyFile flood =
      (List.range 101).map fun i ↦ (0, UInt32.ofNat (i + 1)) := by
    decide
  have hinj : ∀ i ∈ List.range 101, ∀ j ∈ List.range 101,
      (0, UInt32.ofNat (i + 1)) = ((0, UInt32.ofNat (j + 1)) : ℕ × UInt32) → i = j := by
    intro i hi j hj heq
    have htoNat := congrArg (fun p : ℕ × UInt32 ↦ p.2.toNat) heq
    simp only [UInt32.toNat_ofNat'] at htoNat
    have hi' := List.mem_range.mp hi
    have hj' := List.mem_range.mp hj
    omega
  rw [demand, hhits, List.toFinset_card_of_nodup (List.nodup_range.map_on hinj),
    List.length_map, List.length_range]

theorem flood_not_inBounds : ¬ InBounds policyFile flood (freshStack 0) := by
  intro h
  have hle : demand policyFile flood ≤ psiRows := demand_le_of_inBounds (by decide) h
  rw [demand_flood] at hle
  exact absurd hle (by decide)

/-! ## Exactness -/

/-- Every execution on this stack that stays in bounds blocks an address exactly when, for some
policy, it sent more packets to the policy's address than the threshold. -/
def Exact (pol : PolicyTable) (q : List PktMeta) (stack : ℕ → PolicyStatsIp) : Prop :=
  ∀ w s r, w.stack = stack → s.queue = q → detectAttackers pol w s = .ok r →
    ∀ a, Blocked r.2 a ↔ ∃ p ∈ pol.policies, p.threshold.toInt < (sentTo q a p.ip : ℤ)

/-- At most one policy is hit in the window, and no threshold is negative. -/
structure Unshared (pol : PolicyTable) (q : List PktMeta) : Prop where
  threshold_nonneg : ∀ p ∈ pol.policies, 0 ≤ p.threshold.toInt
  one_policy : ∀ i j a b, (i, a) ∈ hits pol q → (j, b) ∈ hits pol q → i = j

variable {pol : PolicyTable} {q : List PktMeta} {c : Counting}

theorem exact_of_violates {stack : ℕ → PolicyStatsIp}
    (h : ∀ c, countQueue pol (Counting.init stack) q = .ok c → ∀ a,
      (∃ i p, pol.policies[i]? = some p ∧ Violates c p i a) ↔
        ∃ p ∈ pol.policies, p.threshold.toInt < (sentTo q a p.ip : ℤ)) :
    Exact pol q stack := by
  rintro w s r rfl rfl hr a
  obtain ⟨c, hc, hblocked⟩ := detectAttackers_blocked hr
  exact (hblocked a).trans (h c hc a)

theorem Exact.violates {stack : ℕ → PolicyStatsIp} (h : Exact pol q stack)
    (hc : countQueue pol (Counting.init stack) q = .ok c) (a : UInt32) :
    (∃ i p, pol.policies[i]? = some p ∧ Violates c p i a) ↔
      ∃ p ∈ pol.policies, p.threshold.toInt < (sentTo q a p.ip : ℤ) := by
  let w : Window := ⟨stack, fun _ _ ↦ 0, fun _ _ ↦ .granted⟩
  let s : Poller := { Poller.init ⟨∅, ∅, mapExpect⟩ with queue := q }
  obtain ⟨r, hr⟩ := (detectAttackers_ok_iff pol w s).mpr ⟨c, hc⟩
  obtain ⟨c', hc', hblocked⟩ := detectAttackers_blocked hr
  obtain rfl : c' = c := by simpa [w, s, hc] using hc'.symm
  exact (hblocked a).symm.trans (h w s r rfl rfl hr a)

theorem threshold_lt_iff {t : Int32} (ht : 0 ≤ t.toInt) (x : UInt32) :
    t.toUInt32 < x ↔ t.toInt < (x.toNat : ℤ) := by
  have hnat : t.toUInt32.toNat = t.toInt.toNat := by
    rw [Int32.toNat_toUInt32_of_le (Int32.le_iff_toInt_le.mpr (by simpa using ht))]
    rfl
  rw [UInt32.lt_iff_toNat_lt, hnat]
  omega

/-! ### One policy -/

/-- The tables after the hits `xs`, all of them on policy `j`. -/
structure Solo (j : ℕ) (xs : List (ℕ × UInt32)) (c : Counting) : Prop where
  others : ∀ i, i ≠ j → (c.psi i).numIp = 0
  own : (c.psi j).numIp = c.numIp
  room : c.numIp ≤ psiRows
  rows : Histogram.Holds c.numIp (fun k ↦ (j, (c.psi j).ip0 k)) (fun k ↦ ((c.psi j).ip1 k).toNat) xs

theorem Solo.init (j : ℕ) (stack : ℕ → PolicyStatsIp) : Solo j [] (Counting.init stack) where
  others _ _ := rfl
  own := rfl
  room := Nat.zero_le _
  rows := Histogram.Holds.empty _ _

theorem Solo.bump {j k : ℕ} {a : UInt32} {xs : List (ℕ × UInt32)} (h : Solo j xs c)
    (hk : k < (c.psi j).numIp) (hka : (c.psi j).ip0 k = a)
    (hcount : xs.count (j, a) + 1 < 2 ^ 32) : Solo j (xs ++ [(j, a)]) (c.bump j k) where
  others i hi := by
    rw [bump_psi_of_ne _ _ _ _ hi]
    exact h.others i hi
  own := by simp
  room := h.room
  rows := by
    rw [h.own] at hk
    have hcnt : ((c.psi j).ip1 k).toNat = xs.count (j, a) := by
      rw [h.rows.count k hk, hka]
    have hsucc : ((c.psi j).ip1 k + 1).toNat = ((c.psi j).ip1 k).toNat + 1 := by
      rw [UInt32.toNat_add, hcnt]
      exact Nat.mod_eq_of_lt hcount
    have hrows := h.rows.bump hk
    subst hka
    convert hrows using 1
    · simp
    · simp
    · funext i
      by_cases hi : i = k
      · subst hi
        simp [hsucc]
      · simp [hi]

theorem Solo.enter {j : ℕ} {a : UInt32} {xs : List (ℕ × UInt32)} (h : Solo j xs c)
    (ha : ∀ k < (c.psi j).numIp, (c.psi j).ip0 k ≠ a) (hroom : c.numIp < psiRows) :
    Solo j (xs ++ [(j, a)]) (c.enter j a) where
  others i hi := by
    rw [enter_psi_of_ne _ _ _ _ hi]
    exact h.others i hi
  own := by simp
  room := hroom
  rows := by
    have hnew : ∀ k < c.numIp, (j, (c.psi j).ip0 k) ≠ (j, a) :=
      fun k hk heq ↦ ha k (h.own ▸ hk) (Prod.mk.inj heq).2
    convert h.rows.insert hnew using 1
    · simp
    · funext i
      by_cases hi : i = c.numIp <;> simp [hi]
    · funext i
      by_cases hi : i = c.numIp <;> simp [hi]

/-- When all hits are on one policy, its table is the histogram of its sources. -/
theorem countQueue_solo {j : ℕ} {stack : ℕ → PolicyStatsIp}
    (hone : ∀ i a, (i, a) ∈ hits pol q → i = j)
    (hcount : ∀ a, (hits pol q).count (j, a) < 2 ^ 32)
    (h : countQueue pol (Counting.init stack) q = .ok c) : Solo j (hits pol q) c := by
  rw [countQueue_eq] at h
  refine foldlM_processed (fun pre c ↦ Solo j pre c) ?_ (Solo.init j stack) h
  rintro pre ⟨i, a⟩ post b b' hsplit hI hstep
  obtain rfl : i = j := hone i a (by rw [hsplit]; simp)
  have hpre : pre.count (i, a) + 1 < 2 ^ 32 := by
    refine lt_of_le_of_lt ?_ (hcount a)
    rw [hsplit, List.count_append, List.count_cons_self]
    omega
  have hle : (b.psi i).numIp ≤ psiRows := hI.own ▸ hI.room
  rcases countHit_ok_cases hle hstep with ⟨k, hk, hka, rfl⟩ | ⟨hall, hroom, rfl⟩
  · exact hI.bump hk hka hpre
  · exact hI.enter hall hroom

theorem sentTo_lt (hq : q.length ≤ queueSlots) (src dst : UInt32) : sentTo q src dst < 2 ^ 32 := by
  have hle : sentTo q src dst ≤ q.length := List.countP_le_length
  unfold queueSlots at hq
  omega

theorem Solo.violates_iff {i j : ℕ} {p : Policy} (h : Solo j (hits pol q) c)
    (hp : pol.policies[i]? = some p) (ht : 0 ≤ p.threshold.toInt) (a : UInt32) :
    Violates c p i a ↔ p.threshold.toInt < (sentTo q a p.ip : ℤ) := by
  have hnat : p.threshold.toInt < (sentTo q a p.ip : ℤ) ↔
      p.threshold.toInt.toNat < (hits pol q).count (i, a) := by
    rw [count_hits a hp]
    omega
  rw [hnat]
  by_cases hij : i = j
  · subst hij
    rw [← h.rows.exceeds_iff, Violates, h.own]
    simp only [threshold_lt_iff ht, Prod.mk.injEq, true_and]
    apply exists_congr
    intro k
    apply and_congr_right
    intro _
    rw [and_comm]
    apply and_congr_right
    intro _
    omega
  · have hnot : (i, a) ∉ hits pol q := fun hmem ↦ by
      obtain ⟨k, hk, heq⟩ := (h.rows.mem_iff (i, a)).mp hmem
      exact hij (Prod.mk.inj heq).1.symm
    simp [Violates, h.others i hij, List.count_eq_zero_of_not_mem hnot]

theorem exists_solo {stack : ℕ → PolicyStatsIp} (hq : q.length ≤ queueSlots)
    (hone : ∀ i j a b, (i, a) ∈ hits pol q → (j, b) ∈ hits pol q → i = j)
    (h : countQueue pol (Counting.init stack) q = .ok c) : ∃ j, Solo j (hits pol q) c := by
  obtain ⟨j, hj⟩ : ∃ j, ∀ i b, (i, b) ∈ hits pol q → i = j := by
    cases hhits : hits pol q with
    | nil => exact ⟨0, by simp⟩
    | cons hit l =>
        refine ⟨hit.1, fun i b hmem ↦ ?_⟩
        exact hone i hit.1 b hit.2 (hhits ▸ hmem) (by simp [hhits])
  refine ⟨j, countQueue_solo hj (fun b ↦ ?_) h⟩
  by_cases hmem : (j, b) ∈ hits pol q
  · obtain ⟨m, -, p, hp, -, -⟩ := mem_hits.mp hmem
    rw [count_hits b hp]
    exact sentTo_lt hq b p.ip
  · simp [List.count_eq_zero_of_not_mem hmem]

theorem Unshared.exact (h : Unshared pol q) (hq : q.length ≤ queueSlots)
    (stack : ℕ → PolicyStatsIp) : Exact pol q stack := by
  apply exact_of_violates
  intro c hc a
  obtain ⟨j, hsolo⟩ := exists_solo hq h.one_policy hc
  constructor
  · rintro ⟨i, p, hp, hviol⟩
    have hmem := List.mem_of_getElem? hp
    exact ⟨p, hmem, (hsolo.violates_iff hp (h.threshold_nonneg p hmem) a).mp hviol⟩
  · rintro ⟨p, hmem, hover⟩
    obtain ⟨i, hp⟩ := List.mem_iff_getElem?.mp hmem
    exact ⟨i, p, hp, (hsolo.violates_iff hp (h.threshold_nonneg p hmem) a).mpr hover⟩

/-! ### Several policies -/

/-- With a negative threshold every address is over it, but only addresses in a row are blocked. -/
theorem Fresh.threshold_nonneg {z z' : UInt32} (h : Fresh z (hits pol q).toFinset c)
    (hz' : ∀ m ∈ q, m.src ≠ z') (hne : z' ≠ z)
    (hexact : (∃ i p, pol.policies[i]? = some p ∧ Violates c p i z') ↔
      ∃ p ∈ pol.policies, p.threshold.toInt < (sentTo q z' p.ip : ℤ)) :
    ∀ p ∈ pol.policies, 0 ≤ p.threshold.toInt := by
  intro p hp
  by_contra hneg
  obtain ⟨i, r, -, k, -, -, hk⟩ := hexact.mpr ⟨p, hp, by omega⟩
  have hhit := h.mem_of_row hk hne
  obtain ⟨m, hm, _, -, -, hsrc⟩ := mem_hits.mp (List.mem_toFinset.mp hhit)
  exact hz' m hm hsrc

theorem Fresh.one_policy {z : UInt32} (h : Fresh z (hits pol q).toFinset c)
    (hz : ∀ m ∈ q, m.src ≠ z) (ht : ∀ p ∈ pol.policies, 0 ≤ p.threshold.toInt)
    (hexact : (∃ i p, pol.policies[i]? = some p ∧ Violates c p i z) ↔
      ∃ p ∈ pol.policies, p.threshold.toInt < (sentTo q z p.ip : ℤ)) :
    ∀ i j a b, (i, a) ∈ hits pol q → (j, b) ∈ hits pol q → i = j := by
  intro i j a b hi hj
  by_contra hij
  obtain ⟨r, d, hr, hvis, hstale⟩ :=
    h.stale_visible (List.mem_toFinset.mpr hi) (List.mem_toFinset.mpr hj) hij
  obtain ⟨_, -, p, hp, -, -⟩ := mem_hits.mp (List.mem_toFinset.mp hr)
  have hover : p.threshold.toUInt32 < (c.psi r).ip1 0 := by
    rw [threshold_lt_iff (ht p (List.mem_of_getElem? hp)), hstale.2]
    exact lt_of_le_of_lt (Int32.toInt_le p.threshold) (by decide)
  obtain ⟨p', hp', hsent⟩ := hexact.mp ⟨r, p, hp, 0, hvis, hover, hstale.1⟩
  have hzero : sentTo q z p'.ip = 0 := by
    rw [sentTo, List.countP_eq_zero]
    intro m hm
    simp [hz m hm]
  have := ht p' hp'
  omega

theorem unshared_of_exact (hq : q.length ≤ queueSlots) (hbounds : ∀ stack, InBounds pol q stack)
    (h : ∀ stack, Exact pol q stack) : Unshared pol q := by
  obtain ⟨z, hz, -⟩ := exists_notSource hq [] (by simp)
  obtain ⟨z', hz', hne⟩ := exists_notSource hq [z] (by simp)
  obtain ⟨c, hc⟩ := inBounds_iff.mp (hbounds (freshStack z))
  have hfresh := countQueue_fresh hz hc
  have hexact := (h (freshStack z)).violates hc
  have ht := hfresh.threshold_nonneg hz' (by simpa using hne) (hexact z')
  exact ⟨ht, hfresh.one_policy hz ht (hexact z)⟩

/-- The verdicts on a window are right on every stack when the window is unshared; and where the
tables are indexed in bounds, only then. -/
theorem detectAttackers_exact_iff (pol : PolicyTable) (q : List PktMeta)
    (hq : q.length ≤ queueSlots) :
    (Unshared pol q → ∀ stack, Exact pol q stack) ∧
      ((∀ stack, InBounds pol q stack) → ((∀ stack, Exact pol q stack) ↔ Unshared pol q)) :=
  ⟨fun h ↦ h.exact hq, fun hbounds ↦ ⟨unshared_of_exact hq hbounds, fun h ↦ h.exact hq⟩⟩

theorem exact_one_policy :
    Exact policyFile [packet 7 0x0A0A0A0A, packet 8 0x0A0A0A0A] (freshStack 9) :=
  (detectAttackers_exact_iff policyFile [packet 7 0x0A0A0A0A, packet 8 0x0A0A0A0A] (by decide)).1
    ⟨by decide, fun i j a b hi hj ↦ by
      simp [hits, packetHits, policyFile, packet] at hi hj
      omega⟩ (freshStack 9)

/-- One packet to each of the two policies, and a source that is not in the queue on the stack. -/
theorem two_policies_not_exact :
    ¬ Exact policyFile [packet 7 0x0A0A0A0A, packet 7 0x011E0A0A] (freshStack 9) := by
  intro h
  have hz : ∀ m ∈ [packet 7 0x0A0A0A0A, packet 7 0x011E0A0A], m.src ≠ 9 := by decide
  obtain ⟨c, hc⟩ : ∃ c, countQueue policyFile (Counting.init (freshStack 9))
      [packet 7 0x0A0A0A0A, packet 7 0x011E0A0A] = .ok c :=
    countQueue_total (freshStack 9) (by decide)
  have hone := (countQueue_fresh hz hc).one_policy hz (by decide) (h.violates hc 9)
  exact absurd (hone 0 1 7 7 (by decide) (by decide)) (by decide)

end AntiDos
