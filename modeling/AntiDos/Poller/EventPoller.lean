import AntiDos.Lib.Transducer
import AntiDos.Poller.Detect

/-!
# The poll loop

One iteration of `event_poller` reads the clock, runs the detection when exactly one interval has
passed since the last one, scans the locks when exactly one second has passed since the last scan,
and drains the perf rings into the queue.
-/

namespace AntiDos

open Faulting

/-! ## The clock-gated work -/

/-- The first clock reading sets both time stamps. -/
def syncClock (now : UInt64) (s : Poller) : Poller :=
  if s.timeStart = 0 ∨ s.prevTime = 0 then { s with timeStart := now, prevTime := now } else s

def detectPhase (pol : PolicyTable) (tick : Tick) (s : Poller) :
    Except Fault (Poller × List Event) :=
  if tick.now - s.timeStart = interval then do
    let r ← detectAttackers pol tick.window s
    .ok ({ r.1 with timeStart := tick.now, queue := [] }, .detect s.queue :: r.2)
  else .ok (s, [])

/-- The body of the scan over slot `g`. The stamp is subtracted after zero extension. -/
def releaseSlot (tick : Tick) (acc : Poller × List Event) (g : Fin ipDynamic) :
    Poller × List Event :=
  let slot := acc.1.countDown g
  if slot.addr ≠ 0 then
    if tick.now - slot.stamp.toUInt64 < lockTime then acc
    else
      let c := policyChangeBlackList slot.addr unblock (tick.reply g) acc.1.map
      ({ acc.1 with
          map := c.map
          countDown := Function.update acc.1.countDown g { slot with addr := 0 } },
        acc.2 ++ [.unblock g slot.addr tick.now c.done])
  else acc

def scanSlots (tick : Tick) (s : Poller) : Poller × List Event :=
  (List.finRange ipDynamic).foldl (releaseSlot tick) (s, [])

def scanPhase (tick : Tick) (s : Poller) : Poller × List Event :=
  if tick.now - s.prevTime = 1 then
    let r := scanSlots tick s
    ({ r.1 with prevTime := tick.now }, r.2)
  else (s, [])

/-! ## Draining the perf rings -/

abbrev libbpfPerfEventError : Int := -1

abbrev libbpfPerfEventCont : Int := -2

/-- `policy_stats`: append the record to the queue. -/
def policyStats (m : PktMeta) (s : Poller) : Except Fault (Int × Poller × List Event) :=
  if s.queue.length < queueSlots then
    .ok (libbpfPerfEventCont, { s with queue := s.queue ++ [m] }, [.store s.queue.length m])
  else .error (.queueSlot s.queue.length)

/-- `event_received`: only samples reach `policy_stats`. -/
def eventReceived (r : PerfRecord) (s : Poller) : Except Fault (Int × Poller × List Event) :=
  if r.type = perfRecordSample then policyStats r.pktMeta s
  else .ok (libbpfPerfEventCont, s, [])

/-- `bpf_perf_event_read_simple`: hand the records of one ring to `event_received`, up to the
first that cannot be copied or is not answered with `CONT`. -/
def bpfPerfEventReadSimple : List PerfRecord → Poller → Except Fault (Int × Poller × List Event)
  | [], s => .ok (libbpfPerfEventCont, s, [])
  | r :: rs, s =>
      if r.copied then do
        let x ← eventReceived r s
        if x.1 ≠ libbpfPerfEventCont then .ok x
        else
          let y ← bpfPerfEventReadSimple rs x.2.1
          .ok (y.1, y.2.1, x.2.2 ++ y.2.2)
      else .ok (libbpfPerfEventError, s, [])

/-- The loop over the CPUs; a ring that is not read to its end stops it. -/
def drainBuffers : List PerfBuffer → Poller → Except Fault (Poller × List Event)
  | [], s => .ok (s, [])
  | b :: bs, s =>
      if b.revents then do
        let x ← bpfPerfEventReadSimple b.records s
        if x.1 ≠ libbpfPerfEventCont then .ok x.2
        else
          let y ← drainBuffers bs x.2.1
          .ok (y.1, x.2.2 ++ y.2)
      else drainBuffers bs s

/-! ## The loop -/

def iteration (pol : PolicyTable) (s : Poller) (tick : Tick) :
    Except Fault (Poller × List Event) := do
  let x ← detectPhase pol tick (syncClock tick.now s)
  let y := scanPhase tick x.1
  let z ← drainBuffers tick.buffers y.1
  .ok (z.1, .reading tick.now :: (x.2 ++ y.2 ++ z.2))

/-- `event_poller`, for as many iterations as there are ticks. -/
def eventPoller (pol : PolicyTable) (s : Poller) (ticks : List Tick) :
    Except Fault (Poller × List Event) :=
  Transducer.run (iteration pol) s ticks

def Event.clock : Event → Option UInt64
  | .reading now => some now
  | .block _ time _ => some time
  | _ => none

def clockReadings (log : List Event) : List UInt64 := log.filterMap Event.clock

def ClockForward (log : List Event) : Prop := (clockReadings log).Pairwise (· ≤ ·)

instance (log : List Event) : Decidable (ClockForward log) :=
  inferInstanceAs (Decidable (List.Pairwise _ _))

end AntiDos
