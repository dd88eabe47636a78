import AntiDos.Poller.Counting

/-!
# The reporting loops

When the counting loop stays in bounds, so do the reporting loops, and an address is blocked
exactly when some visible row of some policy holds it with a count over the threshold.
-/

namespace AntiDos

open Faulting

/-- `policy_change_black_list(a, BLOCK)` is among the events. -/
def Blocked (es : List Event) (a : UInt32) : Prop := ∃ time added, Event.block a time added ∈ es

/-- Some visible row of policy `i` holds `a` with a count over the threshold. -/
def Violates (c : Counting) (p : Policy) (i : ℕ) (a : UInt32) : Prop :=
  ∃ j < (c.psi i).numIp, p.threshold.toUInt32 < (c.psi i).ip1 j ∧ (c.psi i).ip0 j = a

@[simp] theorem not_blocked_nil (a : UInt32) : ¬ Blocked [] a := by
  simp [Blocked]

theorem blocked_append {es fs : List Event} {a : UInt32} :
    Blocked (es ++ fs) a ↔ Blocked es a ∨ Blocked fs a := by
  simp [Blocked, exists_or]

theorem sent_div_interval (x : UInt32) : x / interval.toUInt32 = x := by
  apply UInt32.toNat_inj.mp
  rw [UInt32.toNat_div]
  exact Nat.div_one _

theorem reportRow_eq (w : Window) (p : Policy) (i : ℕ) (t : PolicyStatsIp)
    (acc : Poller × List Event) {j : ℕ} (hj : j < psiRows) :
    reportRow w p i t acc j =
      .ok (if p.threshold.toUInt32 < t.ip1 j then reportSource w p i j (t.ip0 j) (t.ip1 j) acc
        else acc) := by
  simp only [reportRow, read_of_lt _ hj, ok_bind, sent_div_interval]
  split <;> rfl

theorem blocked_reportSource (w : Window) (p : Policy) (i j : ℕ) (addr sent : UInt32)
    (acc : Poller × List Event) (a : UInt32) :
    Blocked (reportSource w p i j addr sent acc).2 a ↔ Blocked acc.2 a ∨ addr = a := by
  simp only [reportSource, blocked_append]
  simp [Blocked, eq_comm]

theorem reportRows_total (w : Window) (p : Policy) (i : ℕ) (t : PolicyStatsIp)
    (acc : Poller × List Event) {n : ℕ} (hn : n ≤ psiRows) :
    ∃ r, (List.range n).foldlM (reportRow w p i t) acc = .ok r ∧
      ∀ a, Blocked r.2 a ↔
        Blocked acc.2 a ∨ ∃ j < n, p.threshold.toUInt32 < t.ip1 j ∧ t.ip0 j = a := by
  suffices hloop : ∃ r, (List.range n).foldlM (reportRow w p i t) acc = .ok r ∧
      ∀ a, Blocked r.2 a ↔ Blocked acc.2 a ∨
        ∃ j ∈ List.range n, p.threshold.toUInt32 < t.ip1 j ∧ t.ip0 j = a by
    simpa only [List.mem_range] using hloop
  refine foldlM_total (fun (pre : List ℕ) (r : Poller × List Event) ↦ ∀ a, Blocked r.2 a ↔
    Blocked acc.2 a ∨ ∃ j ∈ pre, p.threshold.toUInt32 < t.ip1 j ∧ t.ip0 j = a) ?_ (by simp)
  intro pre j post r hsplit hI
  have hj : j < n := List.mem_range.mp (by rw [hsplit]; simp)
  refine ⟨_, reportRow_eq w p i t r (hj.trans_le hn), fun a ↦ ?_⟩
  simp only [List.mem_append, List.mem_singleton, or_and_right, exists_or, exists_eq_left]
  rw [← or_assoc, ← hI]
  by_cases hover : p.threshold.toUInt32 < t.ip1 j
  · simp [hover, blocked_reportSource]
  · simp [hover]

theorem reportPolicies_total (pol : PolicyTable) (w : Window) (s : Poller) {c : Counting}
    (hc : ∀ i, (c.psi i).numIp ≤ psiRows) :
    ∃ r, reportPolicies pol w c s = .ok r ∧
      ∀ a, Blocked r.2 a ↔ ∃ i p, pol.policies[i]? = some p ∧ Violates c p i a := by
  have hloop : ∃ r, reportPolicies pol w c s = .ok r ∧
      ∀ a, Blocked r.2 a ↔ ∃ pi ∈ pol.policies.zipIdx, Violates c pi.1 pi.2 a := by
    refine foldlM_total (fun (pre : List (Policy × ℕ)) (r : Poller × List Event) ↦
      ∀ a, Blocked r.2 a ↔ ∃ pi ∈ pre, Violates c pi.1 pi.2 a) ?_ (by simp)
    rintro pre pi post r - hI
    obtain ⟨r', hok, hr'⟩ := reportRows_total w pi.1 pi.2 (c.psi pi.2) r (hc pi.2)
    refine ⟨r', hok, fun a ↦ ?_⟩
    rw [hr', hI]
    simp only [List.mem_append, List.mem_singleton, or_and_right, exists_or, exists_eq_left]
    exact Iff.rfl
  obtain ⟨r, hr, hblocked⟩ := hloop
  refine ⟨r, hr, fun a ↦ ?_⟩
  rw [hblocked]
  simp only [Prod.exists, List.mem_zipIdx_iff_getElem?]
  exact exists_comm

theorem detectAttackers_ok_iff (pol : PolicyTable) (w : Window) (s : Poller) :
    (∃ r, detectAttackers pol w s = .ok r) ↔
      ∃ c, countQueue pol (Counting.init w.stack) s.queue = .ok c := by
  constructor
  · rintro ⟨r, hr⟩
    obtain ⟨c, hc, -⟩ := bind_eq_ok_iff.mp hr
    exact ⟨c, hc⟩
  · rintro ⟨c, hc⟩
    obtain ⟨W, -, hcov⟩ := countQueue_covered hc
    obtain ⟨r, hr, -⟩ := reportPolicies_total pol w s hcov.numIp_le
    exact ⟨r, by simp [detectAttackers, hc, hr]⟩

/-- What `detect_attackers` blocks, read off the tables its counting loop leaves. -/
theorem detectAttackers_blocked {pol : PolicyTable} {w : Window} {s : Poller}
    {r : Poller × List Event} (h : detectAttackers pol w s = .ok r) :
    ∃ c, countQueue pol (Counting.init w.stack) s.queue = .ok c ∧
      ∀ a, Blocked r.2 a ↔ ∃ i p, pol.policies[i]? = some p ∧ Violates c p i a := by
  obtain ⟨c, hc, hrep⟩ := bind_eq_ok_iff.mp h
  obtain ⟨W, -, hcov⟩ := countQueue_covered hc
  obtain ⟨r', hr', hblocked⟩ := reportPolicies_total pol w s hcov.numIp_le
  obtain rfl : r' = r := by simpa [hrep] using hr'.symm
  exact ⟨c, hc, hblocked⟩

end AntiDos
