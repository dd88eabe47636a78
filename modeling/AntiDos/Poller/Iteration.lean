import AntiDos.Poller.EventPoller
import AntiDos.Poller.Reporting

/-!
# What one iteration does

The three parts of an iteration are taken apart once. The detection and the scan leave the clock
stamps and the queue to their gates, and the drain only appends to the queue.
-/

namespace AntiDos

open Faulting

variable {pol : PolicyTable} {s s' : Poller} {tick : Tick} {es : List Event}

/-! ## The detection -/

theorem reportPolicies_invariant (I : Poller × List Event → Prop) {w : Window} {c : Counting}
    (hI : ∀ p i j addr sent acc, I acc → I (reportSource w p i j addr sent acc))
    {r : Poller × List Event} (hs : I (s, [])) (h : reportPolicies pol w c s = .ok r) : I r := by
  refine foldlM_invariant I (fun acc pi _ acc' hacc hrows ↦ ?_) hs h
  refine foldlM_invariant I (fun acc j _ acc' hacc hrow ↦ ?_) hacc hrows
  obtain ⟨sent, -, hsent⟩ := bind_eq_ok_iff.mp hrow
  split at hsent
  · obtain ⟨addr, -, haddr⟩ := bind_eq_ok_iff.mp hsent
    obtain rfl := Except.ok.inj haddr
    exact hI _ _ _ _ _ acc hacc
  · obtain rfl := Except.ok.inj hsent
    exact hacc

theorem detectAttackers_invariant (I : Poller × List Event → Prop) {w : Window}
    (hI : ∀ p i j addr sent acc, I acc → I (reportSource w p i j addr sent acc))
    {r : Poller × List Event} (hs : I (s, [])) (h : detectAttackers pol w s = .ok r) : I r := by
  obtain ⟨c, -, hrep⟩ := bind_eq_ok_iff.mp h
  exact reportPolicies_invariant I hI hs hrep

/-- The globals that only the poll loop itself writes. -/
structure SameClock (s s' : Poller) : Prop where
  timeStart : s'.timeStart = s.timeStart
  prevTime : s'.prevTime = s.prevTime
  queue : s'.queue = s.queue

theorem detectAttackers_sameClock {w : Window} {r : Poller × List Event}
    (h : detectAttackers pol w s = .ok r) : SameClock s r.1 :=
  detectAttackers_invariant (fun acc ↦ SameClock s acc.1)
    (fun _ _ _ _ _ _ hacc ↦ ⟨hacc.timeStart, hacc.prevTime, hacc.queue⟩) ⟨rfl, rfl, rfl⟩ h

theorem detectPhase_cases {x : Poller × List Event} (h : detectPhase pol tick s = .ok x) :
    (tick.now - s.timeStart = interval ∧ ∃ r, detectAttackers pol tick.window s = .ok r ∧
      x = ({ r.1 with timeStart := tick.now, queue := [] }, .detect s.queue :: r.2)) ∨
      (tick.now - s.timeStart ≠ interval ∧ x = (s, [])) := by
  unfold detectPhase at h
  split at h
  · rename_i hgate
    obtain ⟨r, hr, hx⟩ := bind_eq_ok_iff.mp h
    exact Or.inl ⟨hgate, r, hr, (Except.ok.inj hx).symm⟩
  · rename_i hgate
    exact Or.inr ⟨hgate, (Except.ok.inj h).symm⟩

theorem detectPhase_prevTime {x : Poller × List Event} (h : detectPhase pol tick s = .ok x) :
    x.1.prevTime = s.prevTime := by
  rcases detectPhase_cases h with ⟨-, r, hr, rfl⟩ | ⟨-, rfl⟩
  · exact (detectAttackers_sameClock hr).prevTime
  · rfl

theorem detectPhase_timeStart {x : Poller × List Event} (h : detectPhase pol tick s = .ok x) :
    x.1.timeStart = if tick.now - s.timeStart = interval then tick.now else s.timeStart := by
  rcases detectPhase_cases h with ⟨hgate, r, -, rfl⟩ | ⟨hgate, rfl⟩
  · rw [if_pos hgate]
  · rw [if_neg hgate]

theorem detectPhase_queue {x : Poller × List Event} (h : detectPhase pol tick s = .ok x) :
    x.1.queue = if tick.now - s.timeStart = interval then [] else s.queue := by
  rcases detectPhase_cases h with ⟨hgate, r, -, rfl⟩ | ⟨hgate, rfl⟩
  · rw [if_pos hgate]
  · rw [if_neg hgate]

/-! ## The scan -/

/-- The address of slot `g` is unblocked and the slot is cleared. -/
def released (tick : Tick) (acc : Poller × List Event) (g : Fin ipDynamic) :
    Poller × List Event :=
  let slot := acc.1.countDown g
  let c := policyChangeBlackList slot.addr unblock (tick.reply g) acc.1.map
  ({ acc.1 with
      map := c.map
      countDown := Function.update acc.1.countDown g { slot with addr := 0 } },
    acc.2 ++ [.unblock g slot.addr tick.now c.done])

/-- The slot is released when it is occupied and its lock looks expired. -/
theorem releaseSlot_cases (tick : Tick) (acc : Poller × List Event) (g : Fin ipDynamic) :
    (((acc.1.countDown g).addr = 0 ∨
        tick.now - (acc.1.countDown g).stamp.toUInt64 < lockTime) ∧
      releaseSlot tick acc g = acc) ∨
    ((acc.1.countDown g).addr ≠ 0 ∧
      ¬ tick.now - (acc.1.countDown g).stamp.toUInt64 < lockTime ∧
      releaseSlot tick acc g = released tick acc g) := by
  unfold releaseSlot
  dsimp only
  split
  · rename_i haddr
    split
    · rename_i hfresh
      exact Or.inl ⟨Or.inr hfresh, rfl⟩
    · rename_i hexpired
      exact Or.inr ⟨haddr, hexpired, rfl⟩
  · rename_i hfree
    exact Or.inl ⟨Or.inl (not_not.mp hfree), rfl⟩

/-- What every release preserves, the scan preserves. -/
theorem scanSlots_invariant (I : Poller × List Event → Prop)
    (hI : ∀ acc g, I acc → (acc.1.countDown g).addr ≠ 0 →
      ¬ tick.now - (acc.1.countDown g).stamp.toUInt64 < lockTime → I (released tick acc g))
    (hs : I (s, [])) : I (scanSlots tick s) := by
  suffices hloop : ∀ (l : List (Fin ipDynamic)) acc, I acc → I (l.foldl (releaseSlot tick) acc) from
    hloop _ (s, []) hs
  intro l
  induction l with
  | nil => exact fun acc hacc ↦ hacc
  | cons g l ih =>
      intro acc hacc
      rw [List.foldl_cons]
      apply ih
      rcases releaseSlot_cases tick acc g with ⟨-, hkept⟩ | ⟨haddr, hexpired, hreleased⟩
      · rwa [hkept]
      · rw [hreleased]
        exact hI acc g hacc haddr hexpired

theorem scanPhase_of_gate (hgate : tick.now - s.prevTime = 1) :
    scanPhase tick s =
      ({ (scanSlots tick s).1 with prevTime := tick.now }, (scanSlots tick s).2) := if_pos hgate

theorem scanPhase_of_not_gate (hgate : tick.now - s.prevTime ≠ 1) :
    scanPhase tick s = (s, []) := if_neg hgate

/-- The same for the scan behind its gate, which stamps the time. -/
theorem scanPhase_invariant (I : Poller × List Event → Prop)
    (hI : ∀ acc g, I acc → (acc.1.countDown g).addr ≠ 0 →
      ¬ tick.now - (acc.1.countDown g).stamp.toUInt64 < lockTime → I (released tick acc g))
    (hstamp : ∀ acc, I acc → I ({ acc.1 with prevTime := tick.now }, acc.2)) (hs : I (s, [])) :
    I (scanPhase tick s) := by
  by_cases hgate : tick.now - s.prevTime = 1
  · rw [scanPhase_of_gate hgate]
    exact hstamp _ (scanSlots_invariant I hI hs)
  · rwa [scanPhase_of_not_gate hgate]

theorem scanPhase_timeStart (tick : Tick) (s : Poller) :
    (scanPhase tick s).1.timeStart = s.timeStart :=
  scanPhase_invariant (fun acc ↦ acc.1.timeStart = s.timeStart) (fun _ _ h _ _ ↦ h)
    (fun _ h ↦ h) rfl

theorem scanPhase_queue (tick : Tick) (s : Poller) : (scanPhase tick s).1.queue = s.queue :=
  scanPhase_invariant (fun acc ↦ acc.1.queue = s.queue) (fun _ _ h _ _ ↦ h) (fun _ h ↦ h) rfl

theorem scanPhase_prevTime (tick : Tick) (s : Poller) :
    (scanPhase tick s).1.prevTime = if tick.now - s.prevTime = 1 then tick.now else s.prevTime := by
  unfold scanPhase
  split <;> rfl

/-! ## The drain -/

/-- The samples of one ring that are handed to `policy_stats`. -/
def ringSamples (rs : List PerfRecord) : List PktMeta :=
  (rs.takeWhile (·.copied)).filterMap fun r ↦
    if r.type = perfRecordSample then some r.pktMeta else none

/-- The samples handed to `policy_stats` in one pass over the rings: a ring that is not read to its
end is the last one. -/
def delivered : List PerfBuffer → List PktMeta
  | [] => []
  | b :: bs =>
      if b.revents then
        ringSamples b.records ++ if b.records.all (·.copied) then delivered bs else []
      else delivered bs

def stores (k : ℕ) (l : List PktMeta) : List Event := (l.zipIdx k).map fun mi ↦ .store mi.2 mi.1

/-- Append a list of records to the queue, as far as it has room. -/
def storeAll {α : Type} (ret : α) (l : List PktMeta) (s : Poller) :
    Except Fault (α × Poller × List Event) :=
  if s.queue.length + l.length ≤ queueSlots then
    .ok (ret, { s with queue := s.queue ++ l }, stores s.queue.length l)
  else .error (.queueSlot queueSlots)

theorem ringSamples_cons (r : PerfRecord) (rs : List PerfRecord) :
    ringSamples (r :: rs) =
      if r.copied then
        (if r.type = perfRecordSample then [r.pktMeta] else []) ++ ringSamples rs
      else [] := by
  by_cases hcopied : r.copied
  · by_cases htype : r.type = perfRecordSample <;> simp [ringSamples, hcopied, htype]
  · simp [ringSamples, hcopied]

theorem stores_append (k : ℕ) (l l' : List PktMeta) :
    stores k (l ++ l') = stores k l ++ stores (k + l.length) l' := by
  simp [stores, List.zipIdx_append]

/-- Neither the detection nor the scan emits such an event. -/
def Event.Idle : Event → Prop
  | .reading _ => True
  | .store _ _ => True
  | _ => False

theorem stores_idle {e : Event} {k : ℕ} {l : List PktMeta} (h : e ∈ stores k l) : e.Idle := by
  obtain ⟨mi, -, rfl⟩ := List.mem_map.mp h
  trivial

theorem storeAll_nil {α : Type} (ret : α) (hs : s.queue.length ≤ queueSlots) :
    storeAll ret [] s = .ok (ret, s, []) := by
  simp [storeAll, stores, hs]

theorem storeAll_append {α β : Type} (a : α) (b : β) (l l' : List PktMeta) :
    (storeAll a l s >>= fun x ↦ storeAll b l' x.2.1 >>= fun y ↦
        .ok (y.1, y.2.1, x.2.2 ++ y.2.2)) = storeAll b (l ++ l') s := by
  by_cases hfst : s.queue.length + l.length ≤ queueSlots
  · by_cases hsnd : s.queue.length + (l.length + l'.length) ≤ queueSlots
    · have hsnd' : s.queue.length + l.length + l'.length ≤ queueSlots := by omega
      simp [storeAll, hfst, hsnd, hsnd', stores_append]
    · have hsnd' : ¬ s.queue.length + l.length + l'.length ≤ queueSlots := by omega
      simp [storeAll, hfst, hsnd, hsnd']
  · have hboth : ¬ s.queue.length + (l.length + l'.length) ≤ queueSlots := by omega
    simp [storeAll, hfst, hboth]

theorem storeAll_bind_congr {α β : Type} {ret : α} {l : List PktMeta}
    {k k' : α × Poller × List Event → Except Fault β}
    (h : ∀ t es, t.queue.length ≤ queueSlots → k (ret, t, es) = k' (ret, t, es)) :
    storeAll ret l s >>= k = storeAll ret l s >>= k' := by
  unfold storeAll
  split
  · rename_i hroom
    apply h
    rwa [List.length_append]
  · rfl

theorem eventReceived_eq (r : PerfRecord) (hs : s.queue.length ≤ queueSlots) :
    eventReceived r s =
      storeAll libbpfPerfEventCont (if r.type = perfRecordSample then [r.pktMeta] else []) s := by
  unfold eventReceived
  split
  · unfold policyStats
    split
    · rename_i hlt
      simp [storeAll, stores, Nat.succ_le_of_lt hlt]
    · rename_i hge
      have hfull : s.queue.length = queueSlots := by omega
      simp [storeAll, hfull]
  · rw [storeAll_nil _ hs]

theorem bpfPerfEventReadSimple_eq (rs : List PerfRecord) (hs : s.queue.length ≤ queueSlots) :
    bpfPerfEventReadSimple rs s =
      storeAll (if rs.all (·.copied) then libbpfPerfEventCont else libbpfPerfEventError)
        (ringSamples rs) s := by
  induction rs generalizing s with
  | nil => simp [bpfPerfEventReadSimple, ringSamples, storeAll_nil _ hs]
  | cons r rs ih =>
      rw [ringSamples_cons, bpfPerfEventReadSimple]
      by_cases hcopied : r.copied
      · rw [if_pos hcopied, if_pos hcopied, eventReceived_eq r hs,
          ← storeAll_append libbpfPerfEventCont]
        apply storeAll_bind_congr
        intro t es ht
        simp [ih ht, hcopied]
      · rw [if_neg hcopied, if_neg hcopied, storeAll_nil _ hs]
        simp [hcopied]

theorem drainBuffers_eq_storeAll (bs : List PerfBuffer) (hs : s.queue.length ≤ queueSlots) :
    drainBuffers bs s = storeAll () (delivered bs) s >>= fun x ↦ .ok x.2 := by
  induction bs generalizing s with
  | nil => simp [drainBuffers, delivered, storeAll_nil _ hs]
  | cons b bs ih =>
      rw [drainBuffers, delivered]
      by_cases hrevents : b.revents
      · rw [if_pos hrevents, if_pos hrevents, bpfPerfEventReadSimple_eq b.records hs]
        by_cases hall : b.records.all (·.copied)
        · rw [if_pos hall, if_pos hall, ← storeAll_append libbpfPerfEventCont (), bind_assoc]
          apply storeAll_bind_congr
          intro t es ht
          simp [ih ht]
        · rw [if_neg hall, if_neg hall, List.append_nil]
          unfold storeAll
          split
          · simp
          · rfl
      · rw [if_neg hrevents, if_neg hrevents, ih hs]

theorem drainBuffers_eq (bs : List PerfBuffer) (hs : s.queue.length ≤ queueSlots) :
    drainBuffers bs s =
      if s.queue.length + (delivered bs).length ≤ queueSlots then
        .ok ({ s with queue := s.queue ++ delivered bs },
          stores s.queue.length (delivered bs))
      else .error (.queueSlot queueSlots) := by
  rw [drainBuffers_eq_storeAll bs hs]
  unfold storeAll
  split <;> rfl

/-! ## The iteration -/

@[simp] theorem syncClock_queue (now : UInt64) (s : Poller) :
    (syncClock now s).queue = s.queue := by
  unfold syncClock
  split <;> rfl

@[simp] theorem syncClock_countDown (now : UInt64) (s : Poller) :
    (syncClock now s).countDown = s.countDown := by
  unfold syncClock
  split <;> rfl

@[simp] theorem syncClock_map (now : UInt64) (s : Poller) : (syncClock now s).map = s.map := by
  unfold syncClock
  split <;> rfl

theorem detectPhase_queue_length {x : Poller × List Event}
    (h : detectPhase pol tick (syncClock tick.now s) = .ok x) (hs : s.queue.length ≤ queueSlots) :
    x.1.queue.length ≤ queueSlots := by
  rw [detectPhase_queue h, syncClock_queue]
  split
  · exact Nat.zero_le _
  · exact hs

/-- An iteration runs to its end when the detection stays in bounds and the queue has room. -/
theorem iteration_eq_ok_iff (hs : s.queue.length ≤ queueSlots) :
    iteration pol s tick = .ok (s', es) ↔
      ∃ x, detectPhase pol tick (syncClock tick.now s) = .ok x ∧
        x.1.queue.length + (delivered tick.buffers).length ≤ queueSlots ∧
        s' = { (scanPhase tick x.1).1 with queue := x.1.queue ++ delivered tick.buffers } ∧
        es = .reading tick.now ::
          (x.2 ++ (scanPhase tick x.1).2 ++ stores x.1.queue.length (delivered tick.buffers)) := by
  unfold iteration
  rw [bind_eq_ok_iff]
  apply exists_congr
  intro x
  apply and_congr_right
  intro hx
  have hqueue : (scanPhase tick x.1).1.queue = x.1.queue := scanPhase_queue tick x.1
  dsimp only
  rw [drainBuffers_eq tick.buffers (hqueue ▸ detectPhase_queue_length hx hs), hqueue]
  split
  · rename_i hroom
    simp [hroom, eq_comm]
  · rename_i hfull
    simp [hfull]

section Frame

variable (hs : s.queue.length ≤ queueSlots) (h : iteration pol s tick = .ok (s', es))
include hs h

theorem iteration_timeStart : s'.timeStart =
    if tick.now - (syncClock tick.now s).timeStart = interval then tick.now
    else (syncClock tick.now s).timeStart := by
  obtain ⟨x, hx, -, rfl, -⟩ := (iteration_eq_ok_iff hs).mp h
  rw [← detectPhase_timeStart hx]
  exact scanPhase_timeStart tick x.1

theorem iteration_prevTime : s'.prevTime =
    if tick.now - (syncClock tick.now s).prevTime = 1 then tick.now
    else (syncClock tick.now s).prevTime := by
  obtain ⟨x, hx, -, rfl, -⟩ := (iteration_eq_ok_iff hs).mp h
  rw [← detectPhase_prevTime hx]
  exact scanPhase_prevTime tick x.1

theorem iteration_queue : s'.queue =
    (if tick.now - (syncClock tick.now s).timeStart = interval then [] else s.queue) ++
      delivered tick.buffers := by
  obtain ⟨x, hx, -, rfl, -⟩ := (iteration_eq_ok_iff hs).mp h
  rw [← syncClock_queue tick.now s, ← detectPhase_queue hx]

theorem iteration_queue_length : s'.queue.length ≤ queueSlots := by
  obtain ⟨x, -, hroom, rfl, -⟩ := (iteration_eq_ok_iff hs).mp h
  simpa using hroom

end Frame

end AntiDos
