import AntiDos.Filter.Reports
import AntiDos.Filter.Cpus
import AntiDos.Poller.Operator
import AntiDos.Poller.Samples

/-!
# The programs on one host

The filter runs on the CPUs, `start_policy` beside it, and the operator stores addresses with
`update_list`; each of them acts at any moment. They share the two lists, and the perf rings lead
from the filter to `start_policy`. Every verdict is the one that the rule prescribes on the lists as
the log tells them.
-/

namespace AntiDos

open Faulting Tasks Transducer

/-! ## Reading the rings -/

/-- What happens to one ring when the rings are read: whether `poll` reports it, how many of its
records lie before the `data_head` that is read, and which of them can be copied. -/
structure RingPoll where
  revents : Bool
  visible : ℕ
  copied : ℕ → Bool

def RingPoll.buffer (p : RingPoll) (ring : List PerfRecord) : PerfBuffer :=
  ⟨p.revents, (ring.take p.visible).mapIdx fun j r ↦ { r with copied := p.copied j }⟩

def readRings (polls : List RingPoll) (rings : List (List PerfRecord)) : List PerfBuffer :=
  List.zipWith RingPoll.buffer polls rings

/-- What is left in the rings; a ring that is not read to its end is the last one that is read. -/
def unreadRings : List RingPoll → List (List PerfRecord) → List (List PerfRecord)
  | p :: polls, ring :: rings =>
      if p.revents then
        let records := (p.buffer ring).records
        ring.drop (records.takeWhile (·.copied)).length ::
          if records.all (·.copied) then unreadRings polls rings else rings
      else ring :: unreadRings polls rings
  | _, rings => rings

/-! ## The gateway -/

/-- `whiteList` is a map of the same layout as `black_list`, which is the map of the poller. `rings`
are the unread records of each CPU. -/
structure Gateway (n : ℕ) where
  whiteList : BlackListMap
  kernel : Kernel n
  rings : List (List PerfRecord)
  machine : Machine

def Gateway.init (n : ℕ) (whiteList blackList : BlackListMap) : Gateway n :=
  ⟨whiteList, Kernel.init n, List.replicate n [], Machine.init blackList⟩

/-- A frame arrives, and the ring of the CPU has room for its record or not; the kernel puts a
`PERF_RECORD_LOST` into a ring; the poll loop goes on; or the operator stores an address. -/
inductive GatewayMove (n : ℕ) where
  | frame (cpu : Fin n) (frame : List UInt8) (room : Bool)
  | lost (cpu : Fin n)
  | advance (tick : Tick) (polls : List RingPoll)
  | storeWhite (addr : UInt32) (fd : Int) (reply : MapReply)
  | storeBlack (addr : UInt32) (fd : Int) (reply : MapReply)

/-- `report` is what a frame has put into a ring; `listed` says that `update_list` made the map
operation on `white_list`. -/
inductive GatewayEvent where
  | frame (frame : List UInt8) (action : UInt32) (report : Option PktMeta)
  | listed (addr : UInt32) (ok : Bool)
  | output (o : Output)

abbrev perfRecordLost : UInt32 := 2

def Gateway.arrival {n : ℕ} (s : Gateway n) (cpu : Fin n) (frame : List UInt8) : Arrival n :=
  ⟨cpu, frame, s.whiteList.entries, s.machine.state.map.entries⟩

/-- The tasks of the poll loop, of which the next one may read the rings, and the rings after it. -/
def pollTasks (polls : List RingPoll) (rings : List (List PerfRecord)) :
    List PollTask → List PollTask × List (List PerfRecord)
  | .drain _ :: ts => (.drain (readRings polls rings) :: ts, unreadRings polls rings)
  | ts => (ts, rings)

def gatewayStep {n : ℕ} (pol : PolicyTable) (s : Gateway n) :
    GatewayMove n → Except (FilterFault ⊕ Fault) (Gateway n × List GatewayEvent)
  | .frame cpu frame room =>
      match processFrame s.kernel (s.arrival cpu frame) with
      | .error e => .error (.inl e)
      | .ok (k, vs) =>
          let report := if room then k.perf[s.kernel.perf.length]?.map (·.pktMeta) else none
          let records := report.toList.map fun m ↦ ⟨perfRecordSample, m, true⟩
          .ok ({ s with kernel := k, rings := s.rings.modify cpu (· ++ records) },
            vs.map fun v ↦ .frame frame v.action report)
  | .lost cpu =>
      .ok ({ s with rings := s.rings.modify cpu (· ++ [⟨perfRecordLost, .zero, true⟩]) }, [])
  | .advance tick polls =>
      let tasks := pollTasks polls s.rings s.machine.todo
      match machineStep pol ⟨s.machine.state, tasks.1⟩ (.advance tick) with
      | .error e => .error (.inr e)
      | .ok (m, out) => .ok ({ s with rings := tasks.2, machine := m }, out.map .output)
  | .storeWhite addr fd reply =>
      let r := storeElem addr fd reply s.whiteList
      .ok ({ s with whiteList := r.2 }, [.listed addr (r.1 = 0)])
  | .storeBlack addr fd reply =>
      match machineStep pol s.machine (.store addr fd reply) with
      | .error e => .error (.inr e)
      | .ok (m, out) => .ok ({ s with machine := m }, out.map .output)

variable {n : ℕ} {pol : PolicyTable} {s s' t : Gateway n} {moves : List (GatewayMove n)}
  {log es : List GatewayEvent}

/-! ## A frame -/

/-- What the filter submits for a frame. -/
def Arrival.report (a : Arrival n) : Option PktMeta :=
  match a.inspected.1 with
  | .ret _ => none
  | .out action m => if action = xdpPass then some m else none

theorem Kernel.after_report (k : Kernel n) (a : Arrival n) :
    (k.after a).perf[k.perf.length]?.map (·.pktMeta) = a.report := by
  unfold Kernel.after Arrival.report
  cases a.inspected.1 with
  | ret action => simp [finish]
  | out action m =>
      by_cases hpass : action = xdpPass
      · simp [finish, hpass]
      · simp [finish, hpass]

theorem gatewayStep_frame (pol : PolicyTable) (s : Gateway n) (cpu : Fin n) (f : List UInt8)
    (room : Bool) :
    gatewayStep pol s (.frame cpu f room) =
      let a := s.arrival cpu f
      let report := if room then a.report else none
      .ok ({ s with
          kernel := s.kernel.after a
          rings := s.rings.modify cpu
            (· ++ report.toList.map fun m ↦ ⟨perfRecordSample, m, true⟩) },
        [.frame f (if Dropped f s.whiteList.entries s.machine.state.map.entries then xdpDrop
          else xdpPass) report]) := by
  have haction : (s.arrival cpu f).verdict.action =
      if Dropped f s.whiteList.entries s.machine.state.map.entries then xdpDrop else xdpPass :=
    inspect_action
  simp only [gatewayStep, processFrame_eq, Kernel.after_report, ← haction]
  rfl

theorem Arrival.inspected_of_report {a : Arrival n} {m : PktMeta} (h : a.report = some m) :
    a.inspected.1 = .out xdpPass m := by
  unfold Arrival.report at h
  split at h
  · cases h
  · rename_i action m' hend
    split at h
    · rename_i hpass
      exact hend.trans (congrArg₂ ProgramEnd.out hpass (Option.some.inj h))
    · cases h

/-- `m` is the report of a frame: the empty record of a frame that is not IPv4, or the record of a
packet of a source on no list, which is empty unless the filter classifies the packet. -/
def ReportOf (f : List UInt8) (white black : Finset UInt32) (m : PktMeta) : Prop :=
  (¬ EthIpv4 f ∧ m = .zero) ∨
    (EthIpv4 f ∧ Ipv4Valid f ∧ sourceAddr f ∉ white ∧ sourceAddr f ∉ black ∧
      ((Classified f ∧ m.src = sourceAddr f ∧ m.dst = destAddr f) ∨ (¬ Classified f ∧ m = .zero)))

theorem inspect_report {f : List UInt8} {white black : Finset UInt32} {m : PktMeta}
    (h : (inspect f white black).1 = .out xdpPass m) : ReportOf f white black m := by
  unfold inspect at h
  split_ifs at h with hlen heth hvalid hwhite hblack
  · exact absurd (ProgramEnd.out.inj h).1 xdpDrop_ne_xdpPass
  · have hpass : inspectTransport f = (.out xdpPass m, (inspectTransport f).2) := Prod.ext h rfl
    refine Or.inr ⟨heth, hvalid, hwhite, hblack, ?_⟩
    rcases inspectTransport_pass hpass with ⟨hclass, size, ports, seq, rfl⟩ | hzero
    · exact Or.inl ⟨hclass, rfl, rfl⟩
    · exact Or.inr hzero
  · exact absurd (ProgramEnd.out.inj h).1 xdpDrop_ne_xdpPass
  · exact Or.inl ⟨heth, (ProgramEnd.out.inj h).2.symm⟩

/-! ## The lists as the log tells them -/

structure Lists where
  white : Finset UInt32
  black : Ledger

namespace Lists

def next (l : Lists) : GatewayEvent → Lists
  | .frame _ _ _ => l
  | .listed addr ok => { l with white := if ok then insert addr l.white else l.white }
  | .output o => { l with black := l.black.step o }

/-- A frame gets the verdict of the rule, and is reported only if it passes. -/
def Prescribes (l : Lists) : GatewayEvent → Prop
  | .frame f action report =>
      action = (if Dropped f l.white l.black.entries then xdpDrop else xdpPass) ∧
        ∀ m, report = some m → action = xdpPass ∧ ReportOf f l.white l.black.entries m
  | .listed _ _ => True
  | .output o => l.black.Rightful o

structure Tracks (l : Lists) (s : Gateway n) : Prop where
  white : s.whiteList.entries = l.white
  black : l.black.Tracks s.machine.state

def init (white black : Finset UInt32) : Lists := ⟨white, ⟨black, ∅⟩⟩

theorem tracks_init (n : ℕ) (white black : BlackListMap) :
    (init white.entries black.entries).Tracks (Gateway.init n white black) :=
  ⟨rfl, rfl, fun _ hne ↦ absurd rfl hne⟩

variable {l : Lists}

theorem foldl_output (l : Lists) (out : List Output) :
    (out.map GatewayEvent.output).foldl next l =
      { l with black := out.foldl Ledger.step l.black } := by
  induction out generalizing l with
  | nil => rfl
  | cons o out ih => exact ih _

theorem prescribes_output {out : List Output}
    (h : EachEvent Ledger.step Ledger.Rightful l.black out) :
    EachEvent next Prescribes l (out.map .output) := by
  induction out generalizing l with
  | nil => trivial
  | cons o out ih => exact ⟨h.1, ih h.2⟩

/-- A step of the machine changes the black list as its outputs say. -/
theorem Tracks.machine (h : l.Tracks s) (rings : List (List PerfRecord)) {a : Action}
    {todo : List PollTask} {m : Machine} {out : List Output}
    (hstep : machineStep pol ⟨s.machine.state, todo⟩ a = .ok (m, out)) :
    EachEvent next Prescribes l (out.map .output) ∧
      ((out.map GatewayEvent.output).foldl next l).Tracks
        { s with rings := rings, machine := m } := by
  have hblack : EachEvent Ledger.step Ledger.Rightful l.black out ∧
      (out.foldl Ledger.step l.black).Tracks m.state := by
    rcases machineStep_effect hstep with heffect | ⟨addr, ok, rfl, -, hstate⟩
    · exact h.black.effect heffect
    · rw [hstate]
      exact ⟨⟨trivial, trivial⟩, h.black.store addr ok⟩
  rw [foldl_output]
  exact ⟨prescribes_output hblack.1, h.white, hblack.2⟩

theorem Tracks.step (h : l.Tracks s) {move : GatewayMove n}
    (hstep : gatewayStep pol s move = .ok (s', es)) :
    EachEvent next Prescribes l es ∧ (es.foldl next l).Tracks s' := by
  cases move with
  | frame cpu f room =>
      rw [gatewayStep_frame] at hstep
      obtain ⟨rfl, rfl⟩ := Prod.mk.inj (Except.ok.inj hstep)
      have hlists : s.machine.state.map.entries = l.black.entries := h.black.entries
      refine ⟨⟨⟨?_, ?_⟩, trivial⟩, h.white, h.black⟩
      · rw [h.white, hlists]
      · intro m hreport
        have hsome : (s.arrival cpu f).report = some m := by
          split at hreport
          · exact hreport
          · cases hreport
        have hpass := Arrival.inspected_of_report hsome
        have haction : (s.arrival cpu f).inspected.1.action = xdpPass := by rw [hpass]; rfl
        refine ⟨(inspect_action.symm.trans haction), ?_⟩
        have hreportOf := inspect_report hpass
        rwa [← h.white, ← hlists]
  | lost cpu =>
      obtain ⟨rfl, rfl⟩ := Prod.mk.inj (Except.ok.inj hstep)
      exact ⟨trivial, h.white, h.black⟩
  | advance tick polls =>
      dsimp only [gatewayStep] at hstep
      split at hstep
      · cases hstep
      · rename_i m out hmachine
        obtain ⟨rfl, rfl⟩ := Prod.mk.inj (Except.ok.inj hstep)
        exact h.machine _ hmachine
  | storeWhite addr fd reply =>
      obtain ⟨rfl, rfl⟩ := Prod.mk.inj (Except.ok.inj hstep)
      refine ⟨⟨trivial, trivial⟩, ?_, h.black⟩
      rw [storeElem_entries, h.white]
      simp [next]
  | storeBlack addr fd reply =>
      dsimp only [gatewayStep] at hstep
      split at hstep
      · cases hstep
      · rename_i m out hmachine
        obtain ⟨rfl, rfl⟩ := Prod.mk.inj (Except.ok.inj hstep)
        exact h.machine s.rings hmachine

end Lists

/-- However the frames, the poll loop and the operator take turns, every frame gets the verdict of
the rule on the lists as the log tells them. -/
theorem gateway_verdicts (pol : PolicyTable) (white black : BlackListMap)
    (moves : List (GatewayMove n))
    (hrun : run (gatewayStep pol) (Gateway.init n white black) moves = .ok (t, log)) :
    EachEvent Lists.next Lists.Prescribes (.init white.entries black.entries) log ∧
      (log.foldl Lists.next (.init white.entries black.entries)).Tracks t :=
  run_simulates (fun s l ↦ Lists.Tracks l s) (fun _ _ _ _ _ h hstep ↦ h.step hstep)
    (Lists.tracks_init n white black) hrun

/-! ## Listed sources -/

/-- The address is put on the black list, by the poller or by the operator. -/
inductive Adds (a : UInt32) : Output → Prop
  | block (time : UInt64) : Adds a (.event (.block a time true))
  | stored : Adds a (.stored a true)

def GatewayEvent.output? : GatewayEvent → Option Output
  | .output o => some o
  | _ => none

namespace Lists

variable {l : Lists} {a : UInt32}

theorem black_foldl (l : Lists) (es : List GatewayEvent) :
    (es.foldl next l).black = (es.filterMap GatewayEvent.output?).foldl Ledger.step l.black := by
  induction es generalizing l with
  | nil => rfl
  | cons e es ih =>
      cases e with
      | frame f action report => exact ih l
      | listed addr ok => exact ih _
      | output o => exact ih _

theorem mem_white_foldl : a ∈ (es.foldl next l).white ↔ a ∈ l.white ∨ .listed a true ∈ es := by
  induction es generalizing l with
  | nil => simp
  | cons e es ih =>
      rw [List.foldl_cons, ih]
      cases e with
      | frame f action report => simp [next]
      | listed addr ok => cases ok <;> simp [next, or_assoc, or_left_comm]
      | output o => simp [next]

theorem mem_black_foldl (l : Lists) (pre : List GatewayEvent) {mid : List GatewayEvent} {o : Output}
    (ho : Adds a o)
    (hmid : ∀ g now, .output (.event (.unblock g a now true)) ∉ mid) :
    a ∈ ((pre ++ .output o :: mid).foldl next l).black.entries := by
  rw [List.foldl_append, List.foldl_cons, black_foldl]
  apply Ledger.mem_foldl
  · cases ho <;> exact Finset.mem_insert_self a _
  · intro g now hmem
    obtain ⟨e, he, hsome⟩ := List.mem_filterMap.mp hmem
    cases e with
    | output o' => exact hmid g now (Option.some.inj hsome ▸ he)
    | frame f action report => cases hsome
    | listed addr ok => cases hsome

end Lists

theorem not_reportOf {f : List UInt8} {white black : Finset UInt32} {m : PktMeta}
    (heth : EthIpv4 f) (hlisted : sourceAddr f ∈ white ∨ sourceAddr f ∈ black) :
    ¬ ReportOf f white black m := by
  rintro (⟨hother, -⟩ | ⟨-, -, hwhite, hblack, -⟩)
  · exact hother heth
  · exact hlisted.elim hwhite hblack

theorem dropped_valid_iff {f : List UInt8} {white black : Finset UInt32} (heth : EthIpv4 f)
    (hvalid : Ipv4Valid f) : Dropped f white black ↔
      sourceAddr f ∉ white ∧ (sourceAddr f ∈ black ∨ TransportDropped f) := by
  have hlen : ¬ f.length < 14 := by
    have := hvalid.1
    omega
  rw [dropped_iff, or_iff_right hlen, or_iff_right fun h ↦ h.2 hvalid, and_iff_right heth,
    and_iff_right hvalid]

end AntiDos
