import AntiDos.Poller.Detection
import AntiDos.Poller.Iteration
import Mathlib.Data.List.Chain

/-!
# The two clock gates

The detection and the scan run when the clock reads exactly one second more than the stamp of their
last run. While every reading is at most one second after the one before, the stamps are the last
reading and no run is missed. After a longer step both stamps are too old for an equality, only a
run would renew them, and a clock that moves forward never reaches them again.
-/

namespace AntiDos

open Faulting

variable {pol : PolicyTable} {s s' t : Poller} {tick : Tick} {ticks : List Tick}
  {es log : List Event}

/-! ## The gates -/

theorem sub_eq_one_iff {a b : UInt64} (h : a ≤ b) : b - a = 1 ↔ b.toNat = a.toNat + 1 := by
  have hle : a.toNat ≤ b.toNat := UInt64.le_iff_toNat_le.mp h
  rw [← UInt64.toNat_inj, UInt64.toNat_sub_of_le b a h]
  change b.toNat - a.toNat = 1 ↔ _
  omega

@[simp] theorem interval_toNat : interval.toNat = 1 := rfl

def Due (s : Poller) (tick : Tick) : Prop :=
  (syncClock tick.now s).timeStart.toNat + interval.toNat ≤ tick.now.toNat

instance (s : Poller) (tick : Tick) : Decidable (Due s tick) := Nat.decLe _ _

/-- If a detection is due, the gate of the detection opens. -/
def OnTime (s : Poller) (tick : Tick) : Prop :=
  Due s tick → tick.now - (syncClock tick.now s).timeStart = interval

/-- A due detection runs on the queue, the queue is emptied, and the reading becomes the new start
of the window. -/
def DetectsWhenDue (pol : PolicyTable) (s : Poller) (tick : Tick) : Prop :=
  Due s tick → ∀ x, detectPhase pol tick (syncClock tick.now s) = .ok x →
    .detect s.queue ∈ x.2 ∧ x.1.queue = [] ∧ x.1.timeStart = tick.now

/-- No reading is more than one second after the one before. A reading of `0` is no stamp: the next
reading starts afresh. -/
def Smooth (readings : List UInt64) : Prop :=
  readings.IsChain fun r r' ↦ r = 0 ∨ r'.toNat ≤ r.toNat + 1

instance (readings : List UInt64) : Decidable (Smooth readings) :=
  inferInstanceAs (Decidable (List.IsChain _ _))

structure Synced (r : UInt64) (s : Poller) : Prop where
  timeStart : s.timeStart = r
  prevTime : s.prevTime = r
  queue : s.queue.length ≤ queueSlots

theorem Synced.init (map : BlackListMap) : Synced 0 (Poller.init map) := ⟨rfl, rfl, Nat.zero_le _⟩

theorem Synced.sync {r : UInt64} (h : Synced r s) (now : UInt64) :
    Synced (if r = 0 then now else r) (syncClock now s) := by
  unfold syncClock
  by_cases hr : r = 0
  · rw [if_pos hr, if_pos (Or.inl (h.timeStart.trans hr))]
    exact ⟨rfl, rfl, h.queue⟩
  · rw [if_neg hr, if_neg (by rwa [h.timeStart, h.prevTime, or_self])]
    exact h

theorem Synced.step {r : UInt64} (h : Synced r s) (hrun : iteration pol s tick = .ok (s', es)) :
    let start := if r = 0 then tick.now else r
    Synced (if tick.now - start = 1 then tick.now else start) s' := by
  have hsync := h.sync tick.now
  constructor
  · rw [iteration_timeStart h.queue hrun, hsync.timeStart]
  · rw [iteration_prevTime h.queue hrun, hsync.prevTime]
  · exact iteration_queue_length h.queue hrun

/-! ## Smooth readings -/

theorem Synced.onTime_iff {r : UInt64} (h : Synced r s) (hle : r ≤ tick.now) :
    OnTime s tick ↔ r = 0 ∨ tick.now.toNat ≤ r.toNat + 1 := by
  have hsync := (h.sync tick.now).timeStart
  simp only [OnTime, Due, hsync, interval_toNat]
  by_cases hr : r = 0
  · simp [hr]
  · rw [if_neg hr, sub_eq_one_iff hle, or_iff_right hr]
    omega

theorem Synced.next {r : UInt64} (h : Synced r s) (hle : r ≤ tick.now) (hon : OnTime s tick)
    (hrun : iteration pol s tick = .ok (s', es)) : Synced tick.now s' := by
  have hnext := h.step hrun
  dsimp only at hnext
  rcases (h.onTime_iff hle).mp hon with hr | hr
  · simpa [hr] using hnext
  · by_cases hzero : r = 0
    · simpa [hzero] using hnext
    · rw [if_neg hzero] at hnext
      by_cases hgate : tick.now - r = 1
      · simpa [hgate] using hnext
      · rw [if_neg hgate] at hnext
        rw [sub_eq_one_iff hle] at hgate
        have hnat : r.toNat ≤ tick.now.toNat := UInt64.le_iff_toNat_le.mp hle
        have heq : r = tick.now := UInt64.toNat_inj.mp (by omega)
        exact heq ▸ hnext

theorem Synced.along_onTime_iff {r : UInt64} (h : Synced r s)
    (hclock : (r :: ticks.map (·.now)).IsChain (· ≤ ·))
    (hrun : eventPoller pol s ticks = .ok (t, log)) :
    Transducer.Along (iteration pol) OnTime s ticks ↔
      Smooth (r :: ticks.map (·.now)) := by
  induction ticks generalizing r s log with
  | nil => simp [Smooth, Transducer.Along]
  | cons tick ticks ih =>
      obtain ⟨s', es, fs, hstep, hrest, -⟩ := Transducer.run_cons_eq_ok_iff.mp hrun
      rw [List.map_cons, List.isChain_cons_cons] at hclock
      rw [List.map_cons, Smooth, List.isChain_cons_cons, ← h.onTime_iff hclock.1,
        Transducer.Along]
      apply and_congr_right
      intro hon
      have hnext := ih (h.next hclock.1 hon hstep) hclock.2 hrest
      constructor
      · exact fun halong ↦ hnext.mp (halong s' es hstep)
      · intro hsmooth u us hu
        obtain ⟨rfl, -⟩ : s' = u ∧ es = us := by simpa [hstep] using hu
        exact hnext.mpr hsmooth

theorem along_onTime_iff {map : BlackListMap} (hclock : (ticks.map (·.now)).Pairwise (· ≤ ·))
    (hrun : eventPoller pol (Poller.init map) ticks = .ok (t, log)) :
    Transducer.Along (iteration pol) OnTime (Poller.init map) ticks ↔
      Smooth (ticks.map (·.now)) := by
  rw [(Synced.init map).along_onTime_iff _ hrun]
  · cases ticks with
    | nil => simp [Smooth]
    | cons tick ticks => simp [Smooth, List.isChain_cons_cons]
  · rw [List.isChain_iff_pairwise, List.pairwise_cons]
    exact ⟨fun _ _ ↦ UInt64.zero_le, hclock⟩

theorem detectsWhenDue_iff_onTime (hs : s.queue.length ≤ queueSlots)
    (h : iteration pol s tick = .ok (s', es)) : DetectsWhenDue pol s tick ↔ OnTime s tick := by
  obtain ⟨x, hx, -⟩ := (iteration_eq_ok_iff hs).mp h
  apply forall_congr'
  intro _
  constructor
  · intro hdetect
    rcases detectPhase_cases hx with ⟨hgate, -⟩ | ⟨-, hidle⟩
    · exact hgate
    · have hmem := (hdetect x hx).1
      simp [hidle] at hmem
  · intro hgate y hy
    rcases detectPhase_cases hy with ⟨-, r, -, rfl⟩ | ⟨hclosed, -⟩
    · exact ⟨by simp, rfl, rfl⟩
    · exact absurd hgate hclosed

/-- Along a run with a clock that moves forward, detection runs whenever it is due exactly when the
readings are smooth. -/
theorem detectsWhenDue_iff_smooth (pol : PolicyTable) (map : BlackListMap) (ticks : List Tick)
    (hclock : (ticks.map (·.now)).Pairwise (· ≤ ·))
    (hrun : eventPoller pol (Poller.init map) ticks = .ok (t, log)) :
    Transducer.Along (iteration pol) (DetectsWhenDue pol) (Poller.init map) ticks ↔
      Smooth (ticks.map (·.now)) := by
  rw [← along_onTime_iff hclock hrun]
  refine Transducer.along_congr (I := fun s ↦ s.queue.length ≤ queueSlots) ?_ ?_
    (Nat.zero_le _) hrun
  · exact fun s tick s' es hs h ↦ iteration_queue_length hs h
  · exact fun s tick _ s' es hs h ↦ detectsWhenDue_iff_onTime hs h

/-- An iteration at `now`: the clock stands still during the iteration, the map operations succeed,
and one ring holds the packets `l`. -/
def plainTick (now : UInt64) (l : List PktMeta) : Tick where
  now := now
  window := ⟨freshStack 0, fun _ _ ↦ now, fun _ _ ↦ .granted⟩
  reply := fun _ ↦ .granted
  buffers := [⟨true, l.map fun m ↦ ⟨perfRecordSample, m, true⟩⟩]

def emptyMap : BlackListMap := ⟨∅, ∅, mapExpect⟩

theorem detects_each_second :
    Transducer.Along (iteration policyFile) (DetectsWhenDue policyFile) (Poller.init emptyMap)
      [plainTick 100 [packet 7 0x0A0A0A0A], plainTick 101 []] :=
  (detectsWhenDue_iff_smooth policyFile emptyMap
    [plainTick 100 [packet 7 0x0A0A0A0A], plainTick 101 []] (by decide) rfl).mpr (by decide)

/-- The second iteration reads the clock two seconds after the first. -/
theorem late_iteration_misses :
    ¬ Transducer.Along (iteration policyFile) (DetectsWhenDue policyFile) (Poller.init emptyMap)
      [plainTick 100 [packet 7 0x0A0A0A0A], plainTick 102 []] := by
  intro h
  let s : Poller :=
    { Poller.init emptyMap with
      timeStart := 100, prevTime := 100, queue := [packet 7 0x0A0A0A0A] }
  have hmiss : DetectsWhenDue policyFile s (plainTick 102 []) := (h.2 s _ rfl).1
  have hidle : detectPhase policyFile (plainTick 102 []) (syncClock 102 s) = .ok (s, []) :=
    if_neg (by decide)
  exact absurd (hmiss (by decide) _ hidle).1 List.not_mem_nil

/-! ## Readings that jump -/

theorem Synced.stalled_step {r : UInt64} (h : Synced r s) (hr : r ≠ 0)
    (hlate : r.toNat + 1 < tick.now.toNat) (hrun : iteration pol s tick = .ok (s', es)) :
    Synced r s' ∧ s'.countDown = s.countDown ∧ s'.map = s.map ∧ ∀ e ∈ es, e.Idle := by
  have hle : r ≤ tick.now := UInt64.le_iff_toNat_le.mpr (by omega)
  have hclosed : tick.now - r ≠ 1 := by
    rw [Ne, sub_eq_one_iff hle]
    omega
  have hsync : syncClock tick.now s = s := by
    unfold syncClock
    rw [if_neg (by rwa [h.timeStart, h.prevTime, or_self])]
  have hnext := h.step hrun
  dsimp only at hnext
  rw [if_neg hr, if_neg hclosed] at hnext
  obtain ⟨x, hx, -, rfl, rfl⟩ := (iteration_eq_ok_iff h.queue).mp hrun
  rw [hsync] at hx
  rcases detectPhase_cases hx with ⟨hgate, -⟩ | ⟨-, rfl⟩
  · exact absurd (h.timeStart ▸ hgate) hclosed
  · rw [scanPhase_of_not_gate (h.prevTime.symm ▸ hclosed)] at hnext ⊢
    refine ⟨hnext, rfl, rfl, fun e he ↦ ?_⟩
    rw [List.append_nil, List.nil_append, List.mem_cons] at he
    rcases he with rfl | he
    · trivial
    · exact stores_idle he

/-- Once the clock is two seconds past the stamps, no run detects or releases anything again. -/
theorem Synced.stalled {r c : UInt64} (h : Synced r s) (hr : r ≠ 0) (hlate : r.toNat + 1 < c.toNat)
    (hticks : ∀ tick ∈ ticks, c ≤ tick.now) (hrun : eventPoller pol s ticks = .ok (t, log)) :
    t.countDown = s.countDown ∧ t.map = s.map ∧ ∀ e ∈ log, e.Idle := by
  induction ticks generalizing s log with
  | nil =>
      obtain ⟨rfl, rfl⟩ : s = t ∧ [] = log := by simpa [eventPoller] using hrun
      simp
  | cons tick ticks ih =>
      obtain ⟨s', es, fs, hstep, hrest, rfl⟩ := Transducer.run_cons_eq_ok_iff.mp hrun
      have hnow : c.toNat ≤ tick.now.toNat := UInt64.le_iff_toNat_le.mp (hticks tick (by simp))
      obtain ⟨hs', hcd, hmap, hes⟩ := h.stalled_step hr (by omega) hstep
      obtain ⟨hcd', hmap', hfs⟩ := ih hs' (fun u hu ↦ hticks u (by simp [hu])) hrest
      refine ⟨hcd'.trans hcd, hmap'.trans hmap, fun e he ↦ ?_⟩
      rcases List.mem_append.mp he with he | he
      · exact hes e he
      · exact hfs e he

end AntiDos
