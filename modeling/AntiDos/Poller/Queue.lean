import AntiDos.Poller.Clock

/-!
# The room in the packet queue

`policy_stats` appends without looking at the length. So the queue is written in bounds exactly when
each iteration finds room for all the samples it drains, after the detection has emptied the queue
or has not.
-/

namespace AntiDos

open Faulting Transducer

variable {pol : PolicyTable} {map : BlackListMap} {s s' t : Poller} {tick : Tick}
  {ticks : List Tick} {es log : List Event}

def Fits (s : Poller) (tick : Tick) : Prop :=
  (if tick.now - (syncClock tick.now s).timeStart = interval then 0 else s.queue.length) +
    (delivered tick.buffers).length ≤ queueSlots

/-! ## The faults of an iteration -/

/-- The accesses of `detect_attackers` are to the tables `psi`. -/
def Fault.InPsi : Fault → Prop
  | .psiRow _ => True
  | .queueSlot _ => False

theorem findRow_faultsIn (t : PolicyStatsIp) (src : UInt32) (k n : ℕ) :
    FaultsIn Fault.InPsi (findRow t src k n) := by
  induction n generalizing k with
  | zero => exact faultsIn_ok _
  | succ n ih =>
      refine (faultsIn_read _ fun _ ↦ trivial).bind fun addr ↦ ?_
      split
      · exact faultsIn_ok _
      · exact ih (k + 1)

theorem countHit_faultsIn (c : Counting) (j : ℕ) (src : UInt32) :
    FaultsIn Fault.InPsi (countHit c j src) := by
  apply (findRow_faultsIn _ _ _ _).bind
  intro found
  cases found with
  | none =>
      refine (faultsIn_write _ _ fun _ ↦ trivial).bind fun _ ↦ ?_
      exact (faultsIn_write _ _ fun _ ↦ trivial).bind fun _ ↦ faultsIn_ok _
  | some k =>
      refine (faultsIn_read _ fun _ ↦ trivial).bind fun _ ↦ ?_
      exact (faultsIn_write _ _ fun _ ↦ trivial).bind fun _ ↦ faultsIn_ok _

theorem reportRow_faultsIn (w : Window) (p : Policy) (i : ℕ) (t : PolicyStatsIp)
    (acc : Poller × List Event) (j : ℕ) : FaultsIn Fault.InPsi (reportRow w p i t acc j) := by
  refine (faultsIn_read _ fun _ ↦ trivial).bind fun sent ↦ ?_
  split
  · exact (faultsIn_read _ fun _ ↦ trivial).bind fun _ ↦ faultsIn_ok _
  · exact faultsIn_ok _

theorem detectAttackers_faultsIn (pol : PolicyTable) (w : Window) (s : Poller) :
    FaultsIn Fault.InPsi (detectAttackers pol w s) := by
  have hpacket : ∀ c m, FaultsIn Fault.InPsi (countPacket pol c m) := by
    intro c m
    refine FaultsIn.foldlM (fun c pj ↦ ?_) _ c
    split
    · exact countHit_faultsIn _ _ _
    · exact faultsIn_ok _
  apply (FaultsIn.foldlM hpacket s.queue _).bind
  intro c
  refine FaultsIn.foldlM (fun acc pi ↦ ?_) _ _
  exact FaultsIn.foldlM (fun acc j ↦ reportRow_faultsIn _ _ _ _ _ _) _ _

theorem detectPhase_faultsIn (pol : PolicyTable) (tick : Tick) (s : Poller) :
    FaultsIn Fault.InPsi (detectPhase pol tick s) := by
  unfold detectPhase
  split
  · exact (detectAttackers_faultsIn _ _ _).bind fun r ↦ faultsIn_ok _
  · exact faultsIn_ok _

theorem fits_iff {x : Poller × List Event}
    (hx : detectPhase pol tick (syncClock tick.now s) = .ok x) :
    Fits s tick ↔ x.1.queue.length + (delivered tick.buffers).length ≤ queueSlots := by
  rw [detectPhase_queue hx, syncClock_queue, Fits]
  split <;> simp

theorem iteration_fits (hs : s.queue.length ≤ queueSlots)
    (h : iteration pol s tick = .ok (s', es)) : Fits s tick := by
  obtain ⟨x, hx, hroom, -⟩ := (iteration_eq_ok_iff hs).mp h
  exact (fits_iff hx).mpr hroom

theorem Fits.faultsIn (h : Fits s tick) (hs : s.queue.length ≤ queueSlots) :
    FaultsIn Fault.InPsi (iteration pol s tick) := by
  cases hx : detectPhase pol tick (syncClock tick.now s) with
  | error e =>
      intro e' he'
      obtain rfl : e = e' := by simpa [iteration, hx] using he'
      exact detectPhase_faultsIn _ _ _ e hx
  | ok x =>
      have hok := (iteration_eq_ok_iff hs).mpr ⟨x, hx, (fits_iff hx).mp h, rfl, rfl⟩
      rw [hok]
      exact faultsIn_ok _

/-! ## Runs -/

/-- In every state of a run `packets_queue_len` is at most the length of the array, and every call
of `policy_stats` writes below it. -/
def QueueBounded (pol : PolicyTable) (map : BlackListMap) (ticks : List Tick) : Prop :=
  (∀ k, eventPoller pol (Poller.init map) ticks ≠ .error (.queueSlot k)) ∧
    ∀ pre post s log, ticks = pre ++ post → eventPoller pol (Poller.init map) pre = .ok (s, log) →
      s.queue.length ≤ queueSlots

theorem eventPoller_queue_length (h : eventPoller pol (Poller.init map) ticks = .ok (t, log)) :
    t.queue.length ≤ queueSlots :=
  run_invariant (I := fun s ↦ s.queue.length ≤ queueSlots)
    (fun _ _ _ _ hs hstep ↦ iteration_queue_length hs hstep) (Nat.zero_le _) h

theorem queueBounded_of_fits (h : Along (iteration pol) Fits (Poller.init map) ticks) :
    QueueBounded pol map ticks := by
  refine ⟨fun k hfault ↦ ?_, fun pre post s log _ hrun ↦ eventPoller_queue_length hrun⟩
  have hpsi : Fault.InPsi (.queueSlot k) :=
    Along.fault (I := fun s ↦ s.queue.length ≤ queueSlots)
      (fun _ _ _ _ hs hstep ↦ iteration_queue_length hs hstep)
      (fun _ _ e hs hfits he ↦ hfits.faultsIn hs e he) (Nat.zero_le _) h hfault
  exact hpsi

theorem along_fits_of_run_ok (h : eventPoller pol (Poller.init map) ticks = .ok (t, log)) :
    Along (iteration pol) Fits (Poller.init map) ticks :=
  along_of_run_ok (I := fun s ↦ s.queue.length ≤ queueSlots)
    (fun _ _ _ _ hs hstep ↦ iteration_queue_length hs hstep)
    (fun _ _ _ _ hs hstep ↦ iteration_fits hs hstep) (Nat.zero_le _) h

/-- The queue stays in bounds if every iteration has room for its samples, and, in runs in which the
detection stays in bounds, only then. -/
theorem queueBounded_iff_fits (pol : PolicyTable) (map : BlackListMap) (ticks : List Tick) :
    (Along (iteration pol) Fits (Poller.init map) ticks → QueueBounded pol map ticks) ∧
      ((∀ k, eventPoller pol (Poller.init map) ticks ≠ .error (.psiRow k)) →
        (QueueBounded pol map ticks ↔ Along (iteration pol) Fits (Poller.init map) ticks)) := by
  refine ⟨queueBounded_of_fits, fun hpsi ↦ ⟨fun h ↦ ?_, queueBounded_of_fits⟩⟩
  cases hrun : eventPoller pol (Poller.init map) ticks with
  | error e =>
      cases e with
      | psiRow k => exact absurd hrun (hpsi k)
      | queueSlot k => exact absurd hrun (h.1 k)
  | ok r =>
      obtain ⟨t, log⟩ := r
      exact along_fits_of_run_ok hrun

set_option maxRecDepth 4000 in
theorem two_windows_bounded :
    QueueBounded policyFile emptyMap [plainTick 100 sampleWindows.1, plainTick 101 sampleWindows.2,
      plainTick 101 [packet 9 0x0A0A0A0A], plainTick 102 []] :=
  (queueBounded_iff_fits policyFile emptyMap [plainTick 100 sampleWindows.1,
    plainTick 101 sampleWindows.2, plainTick 101 [packet 9 0x0A0A0A0A], plainTick 102 []]).1
      (along_fits_of_run_ok rfl)

/-! ## A flood within one second -/

theorem delivered_plainTick (now : UInt64) (l : List PktMeta) :
    delivered (plainTick now l).buffers = l := by
  have htake : ∀ l : List PktMeta, ringSamples (l.map fun m ↦ ⟨perfRecordSample, m, true⟩) = l := by
    intro l
    induction l with
    | nil => rfl
    | cons m l ih => rw [List.map_cons, ringSamples_cons, ih]; rfl
  simp [delivered, plainTick, htake]

theorem Synced.same_second {now : UInt64} (h : Synced now s) (hnow : now ≠ 0) (l : List PktMeta) :
    iteration pol s (plainTick now l) =
      if s.queue.length + l.length ≤ queueSlots then
        .ok ({ s with queue := s.queue ++ l }, .reading now :: stores s.queue.length l)
      else .error (.queueSlot queueSlots) := by
  have hsync : syncClock now s = s := by
    unfold syncClock
    rw [if_neg (by rwa [h.timeStart, h.prevTime, or_self])]
  have hdetect : detectPhase pol (plainTick now l) s = .ok (s, []) := by
    apply if_neg
    rw [h.timeStart, plainTick, UInt64.sub_self]
    decide
  have hscan : scanPhase (plainTick now l) s = (s, []) := by
    apply if_neg
    rw [h.prevTime, plainTick, UInt64.sub_self]
    decide
  have hdrain := drainBuffers_eq (plainTick now l).buffers h.queue
  rw [delivered_plainTick] at hdrain
  have hsync' : syncClock (plainTick now l).now s = s := hsync
  rw [iteration, hsync', hdetect, ok_bind]
  dsimp only
  rw [hscan, hdrain]
  split <;> rfl

/-- The records of one second overflow the queue when they are more than its slots. -/
theorem Synced.flood {now : UInt64} (h : Synced now s) (hnow : now ≠ 0) (l : List PktMeta) (n : ℕ)
    (hover : queueSlots < s.queue.length + n * l.length) :
    ∃ k, eventPoller pol s (List.replicate n (plainTick now l)) = .error (.queueSlot k) := by
  induction n generalizing s with
  | zero =>
      have := h.queue
      omega
  | succ n ih =>
      rw [List.replicate_succ, eventPoller]
      by_cases hroom : s.queue.length + l.length ≤ queueSlots
      · have hstep : iteration pol s (plainTick now l) = _ := h.same_second hnow l
        rw [if_pos hroom] at hstep
        have hnext : Synced now { s with queue := s.queue ++ l } :=
          ⟨h.timeStart, h.prevTime, by simpa using hroom⟩
        obtain ⟨k, hk⟩ := ih hnext (by
          rw [Nat.succ_mul] at hover
          simp only [List.length_append]
          omega)
        refine ⟨k, ?_⟩
        rw [eventPoller] at hk
        rw [run_cons_of_ok hstep, hk]
      · have hstep : iteration pol s (plainTick now l) = _ := h.same_second hnow l
        rw [if_neg hroom] at hstep
        exact ⟨queueSlots, run_cons_of_error hstep _⟩

/-- Six thousand and one times one ring with 500 records, all in the same second. -/
theorem queue_flood_not_bounded :
    ¬ QueueBounded policyFile emptyMap
      (List.replicate 6001 (plainTick 100 (List.replicate 500 (packet 7 0x0A0A0A0A)))) := by
  intro h
  let s : Poller := { Poller.init emptyMap with timeStart := 100, prevTime := 100 }
  have hsynced : Synced 100 s := ⟨rfl, rfl, Nat.zero_le _⟩
  obtain ⟨k, hk⟩ : ∃ k, eventPoller policyFile s (List.replicate 6001 (plainTick 100
      (List.replicate 500 (packet 7 0x0A0A0A0A)))) = .error (.queueSlot k) := by
    apply hsynced.flood (by decide)
    rw [List.length_replicate]
    decide
  -- The first iteration sets both stamps, so the run is the one from `s`.
  have hstep : ∀ tick, tick.now = 100 → iteration policyFile (Poller.init emptyMap) tick =
      iteration policyFile s tick := by
    rintro tick hnow
    have hsync : syncClock tick.now (Poller.init emptyMap) = syncClock tick.now s := by
      rw [hnow]
      rfl
    rw [iteration, iteration, hsync]
  refine h.1 k (Eq.trans ?_ hk)
  rw [List.replicate_succ, eventPoller, eventPoller, run, run, hstep _ rfl]

end AntiDos
