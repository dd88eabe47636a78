import AntiDos.Poller.Clock

/-!
# Every sample is analysed once

A sample that reaches `policy_stats` is appended to the queue, and the queue is emptied only right
after `detect_attackers` has run on it. So the samples handed over so far are, in order, the queues
that have been analysed followed by the queue at hand.
-/

namespace AntiDos

open Faulting

variable {pol : PolicyTable} {s s' t : Poller} {tick : Tick} {ticks : List Tick}
  {es log : List Event}

/-! ## What is handed over and what is analysed -/

/-- The records of one pass over the rings for which `event_received` is called, of any type: a ring
is read up to the first record that cannot be copied, and is then the last one of the pass. -/
def received : List PerfBuffer → List PerfRecord
  | [] => []
  | b :: bs =>
      if b.revents then
        b.records.takeWhile (·.copied) ++ if b.records.all (·.copied) then received bs else []
      else received bs

def PerfRecord.sample (r : PerfRecord) : Option PktMeta :=
  if r.type = perfRecordSample then some r.pktMeta else none

/-- The samples of a run, in the order in which they are received. -/
def samples (ticks : List Tick) : List PktMeta :=
  ticks.flatMap fun tick ↦ (received tick.buffers).filterMap PerfRecord.sample

/-- The packets an event says that `detect_attackers` is run on. -/
def Event.analysed : Event → List PktMeta
  | .detect q => q
  | _ => []

def analysed (log : List Event) : List PktMeta := log.flatMap Event.analysed

def Event.stored : Event → List PktMeta
  | .store _ m => [m]
  | _ => []

def stored (log : List Event) : List PktMeta := log.flatMap Event.stored

theorem analysed_append (es fs : List Event) : analysed (es ++ fs) = analysed es ++ analysed fs :=
  List.flatMap_append

theorem stored_append (es fs : List Event) : stored (es ++ fs) = stored es ++ stored fs :=
  List.flatMap_append

theorem samples_cons (tick : Tick) (ticks : List Tick) :
    samples (tick :: ticks) = samples [tick] ++ samples ticks := by
  simp [samples]

theorem delivered_eq (bs : List PerfBuffer) :
    delivered bs = (received bs).filterMap PerfRecord.sample := by
  induction bs with
  | nil => rfl
  | cons b bs ih =>
      rw [delivered, received]
      split
      · rw [List.filterMap_append, ih]
        split
        · rfl
        · rfl
      · exact ih

theorem samples_singleton (tick : Tick) : samples [tick] = delivered tick.buffers := by
  simp [samples, delivered_eq]

@[simp] theorem stored_stores (k : ℕ) (l : List PktMeta) : stored (stores k l) = l := by
  induction l generalizing k with
  | nil => rfl
  | cons m l ih =>
      have hrest : stored (stores (k + 1) l) = l := ih (k + 1)
      simpa [stored, stores, Event.stored] using hrest

@[simp] theorem analysed_stores (k : ℕ) (l : List PktMeta) : analysed (stores k l) = [] := by
  simp [analysed, stores, Event.analysed, List.flatMap_map]

/-! ## The parts of an iteration -/

/-- Neither the reports nor the releases analyse or store anything. -/
def Aside (es : List Event) : Prop := analysed es = [] ∧ stored es = []

theorem aside_nil : Aside [] := ⟨rfl, rfl⟩

theorem Aside.append {fs : List Event} (hes : Aside es) (hfs : Aside fs) : Aside (es ++ fs) :=
  ⟨by rw [analysed_append, hes.1, hfs.1]; rfl, by rw [stored_append, hes.2, hfs.2]; rfl⟩

theorem detectAttackers_aside {w : Window} {r : Poller × List Event}
    (h : detectAttackers pol w s = .ok r) : Aside r.2 :=
  detectAttackers_invariant (fun acc ↦ Aside acc.2)
    (fun _ _ _ _ _ _ hacc ↦ hacc.append ⟨rfl, rfl⟩) aside_nil h

theorem scanPhase_aside (tick : Tick) (s : Poller) : Aside (scanPhase tick s).2 :=
  scanPhase_invariant (fun acc ↦ Aside acc.2) (fun _ _ hacc _ _ ↦ hacc.append ⟨rfl, rfl⟩)
    (fun _ hacc ↦ hacc) aside_nil

/-- The detection moves the queue, as a whole or not at all, to what has been analysed. -/
theorem detectPhase_moves {x : Poller × List Event} (h : detectPhase pol tick s = .ok x) :
    analysed x.2 ++ x.1.queue = s.queue ∧ stored x.2 = [] := by
  rcases detectPhase_cases h with ⟨-, r, hr, rfl⟩ | ⟨-, rfl⟩
  · obtain ⟨hanalysed, hstored⟩ := detectAttackers_aside hr
    constructor
    · change (s.queue ++ analysed r.2) ++ [] = s.queue
      rw [hanalysed, List.append_nil, List.append_nil]
    · exact hstored
  · exact ⟨rfl, rfl⟩

/-- One iteration analyses a first part of what was queued and is received, and queues the rest. -/
theorem iteration_samples (hs : s.queue.length ≤ queueSlots)
    (h : iteration pol s tick = .ok (s', es)) :
    s.queue ++ samples [tick] = analysed es ++ s'.queue ∧ stored es = samples [tick] := by
  obtain ⟨x, hx, -, rfl, rfl⟩ := (iteration_eq_ok_iff hs).mp h
  obtain ⟨hmoved, hnone⟩ := detectPhase_moves hx
  obtain ⟨hscan, hscan'⟩ := scanPhase_aside tick x.1
  rw [samples_singleton]
  constructor
  · change _ = analysed (x.2 ++ (scanPhase tick x.1).2 ++ stores _ _) ++ _
    rw [analysed_append, analysed_append, hscan, analysed_stores, List.append_nil, List.append_nil,
      ← List.append_assoc, hmoved, syncClock_queue]
  · change stored (x.2 ++ (scanPhase tick x.1).2 ++ stores _ _) = _
    rw [stored_append, stored_append, hnone, hscan', stored_stores]
    rfl

/-! ## Runs -/

theorem run_samples (hs : s.queue.length ≤ queueSlots)
    (h : eventPoller pol s ticks = .ok (t, log)) :
    s.queue ++ samples ticks = analysed log ++ t.queue ∧ stored log = samples ticks := by
  induction ticks generalizing s log with
  | nil =>
      obtain ⟨rfl, rfl⟩ : s = t ∧ [] = log := by simpa [eventPoller] using h
      exact ⟨List.append_nil _, rfl⟩
  | cons tick ticks ih =>
      obtain ⟨u, es, fs, hstep, hrest, rfl⟩ := Transducer.run_cons_eq_ok_iff.mp h
      obtain ⟨hone, hone'⟩ := iteration_samples hs hstep
      obtain ⟨htail, htail'⟩ := ih (iteration_queue_length hs hstep) hrest
      rw [samples_cons, stored_append, analysed_append]
      constructor
      · rw [← List.append_assoc, hone, List.append_assoc, htail, List.append_assoc]
      · rw [hone', htail']

/-- At every iteration boundary of a run, whatever comes after it, the samples received so far are
the queues analysed so far followed by the queue; and each of them has been stored once. -/
def SamplesAnalysedOnce (pol : PolicyTable) (map : BlackListMap) (ticks : List Tick) : Prop :=
  ∀ pre post t log, ticks = pre ++ post → eventPoller pol (Poller.init map) pre = .ok (t, log) →
    samples pre = analysed log ++ t.queue ∧ stored log = samples pre

theorem samples_analysed_once (pol : PolicyTable) (map : BlackListMap) (ticks : List Tick) :
    SamplesAnalysedOnce pol map ticks ∧
      ∀ w s r, detectAttackers pol w s = .ok r → r.1.queue = s.queue := by
  constructor
  · intro pre post t log _ hrun
    have hempty : (Poller.init map).queue.length ≤ queueSlots := Nat.zero_le _
    simpa [Poller.init] using run_samples hempty hrun
  · intro w s r hr
    exact (detectAttackers_sameClock hr).queue

/-- A record of another type between two samples, and a second in which nothing is received. -/
example :
    let lost : PerfRecord := ⟨2, packet 9 9, true⟩
    let first : PerfRecord := ⟨perfRecordSample, packet 7 0x0A0A0A0A, true⟩
    let second : PerfRecord := ⟨perfRecordSample, packet 8 0x0A0A0A0A, true⟩
    samples [{ plainTick 100 [] with buffers := [⟨true, [first, lost, second]⟩] },
        plainTick 101 []] = [packet 7 0x0A0A0A0A, packet 8 0x0A0A0A0A] := by
  decide

end AntiDos
