import AntiDos.Lib.Transducer
import AntiDos.Perf.ReadRing

/-!
# The kernel and the reader of a ring

The kernel puts records into a ring at any moment, also while `bpf_perf_event_read_simple` walks
through it: the walk goes up to the `data_head` it has read at its beginning, and `data_tail` is
written at its end. Which records the kernel puts there and how is its own affair, as long as it
keeps what has not been given back to it. Then the ring is a queue: records are handed over whole,
once, and in their order.
-/

namespace AntiDos

open Faulting Ring Transducer

/-! ## Moves -/

/-- The locals `data_head` and `data_tail` of a call in progress. -/
structure Walk where
  dataHead : UInt64
  dataTail : UInt64

structure PerfRing where
  mmap : PerfMmap
  copySize : UInt64
  walk : Option Walk

/-- The kernel puts a record into the ring, whose memory is `data` then, or it loses one, or the
reader takes a turn: it begins a call, goes through the body of the loop once, or ends the call.
`malloc` and `ret` are the answers of `malloc` and `fn`. -/
inductive RingMove where
  | output (data : ℕ → UInt8) (rec : List UInt8)
  | lose (rec : List UInt8)
  | turn (malloc : Bool) (ret : Int)

/-- `received` is a call of `fn`. -/
inductive RingEvent where
  | submitted (rec : List UInt8)
  | lost (rec : List UInt8)
  | received (rec : List UInt8)
  | returned (ret : Int)

/-- `ring_buffer_write_tail` at the end of a call. -/
def endWalk (r : PerfRing) (dataTail copySize : UInt64) : PerfRing :=
  ⟨{ r.mmap with dataTail := dataTail }, copySize, none⟩

/-- A turn of the loop in a call in progress. -/
def walkTurn (mmapSize : UInt64) (malloc : Bool) (ret : Int) (r : PerfRing) (w : Walk) :
    Except PerfFault (PerfRing × List RingEvent) :=
  if w.dataHead = w.dataTail then
    .ok (endWalk r w.dataTail r.copySize, [.returned libbpfPerfEventCont])
  else do
    let x ← fetchEvent mmapSize r.mmap.data w.dataTail r.copySize malloc
    match x.event with
    | none => .ok (endWalk r w.dataTail x.copySize, [.returned libbpfPerfEventError])
    | some event =>
        let dataTail := w.dataTail + x.size
        if ret ≠ libbpfPerfEventCont then
          .ok (endWalk r dataTail x.copySize, [.received event, .returned ret])
        else
          .ok (⟨r.mmap, x.copySize, some { w with dataTail := dataTail }⟩, [.received event])

def ringStep (mmapSize : UInt64) (r : PerfRing) :
    RingMove → Except PerfFault (PerfRing × List RingEvent)
  | .output data rec =>
      let dataHead := r.mmap.dataHead + UInt64.ofNat rec.length
      .ok ({ r with mmap := { r.mmap with data := data, dataHead := dataHead } }, [.submitted rec])
  | .lose rec => .ok (r, [.lost rec])
  | .turn malloc ret =>
      match r.walk with
      | none => .ok ({ r with walk := some ⟨r.mmap.dataHead, r.mmap.dataTail⟩ }, [])
      | some w => walkTurn mmapSize malloc ret r w

/-- What the kernel promises of a record that it puts into the ring: the record is whole and fits
beside what lies between `data_tail` and `data_head`, which stays as it is, and it stands at
`data_head`. -/
structure Written (mmapSize : UInt64) (m : PerfMmap) (data : ℕ → UInt8) (rec : List UInt8) :
    Prop where
  whole : IsRecord rec
  room : (m.dataHead - m.dataTail).toNat + rec.length ≤ mmapSize.toNat
  kept : span mmapSize.toNat data m.dataTail.toNat (m.dataHead - m.dataTail).toNat =
    span mmapSize.toNat m.data m.dataTail.toNat (m.dataHead - m.dataTail).toNat
  stored : span mmapSize.toNat data m.dataHead.toNat rec.length = rec

instance (mmapSize : UInt64) (m : PerfMmap) (data : ℕ → UInt8) (rec : List UInt8) :
    Decidable (Written mmapSize m data rec) :=
  decidable_of_iff (_ ∧ _ ∧ _ ∧ _)
    ⟨fun ⟨whole, room, kept, stored⟩ ↦ ⟨whole, room, kept, stored⟩,
      fun ⟨whole, room, kept, stored⟩ ↦ ⟨whole, room, kept, stored⟩⟩

def KernelKeeps (mmapSize : UInt64) (r : PerfRing) : RingMove → Prop
  | .output data rec => Written mmapSize r.mmap data rec
  | .lose _ => True
  | .turn _ _ => True

instance (mmapSize : UInt64) (r : PerfRing) : (move : RingMove) →
    Decidable (KernelKeeps mmapSize r move)
  | .output data rec => inferInstanceAs (Decidable (Written mmapSize r.mmap data rec))
  | .lose _ => inferInstanceAs (Decidable True)
  | .turn _ _ => inferInstanceAs (Decidable True)

/-! ## The queue -/

/-- The records a ring stands for: `held` are handed over and not yet given back to the kernel. -/
structure Fifo where
  held : List (List UInt8)
  unread : List (List UInt8)

def Fifo.next (q : Fifo) : RingEvent → Fifo
  | .submitted rec => { q with unread := q.unread ++ [rec] }
  | .lost _ => q
  | .received rec => ⟨q.held ++ [rec], q.unread.tail⟩
  | .returned _ => { q with held := [] }

def Fifo.bytes (q : Fifo) : ℕ := (q.held ++ q.unread).flatten.length

/-- What is handed over is the first unread record, and the records in the ring fit into it. -/
def Fifo.Allowed (mmapSize : UInt64) (q : Fifo) : RingEvent → Prop
  | .submitted rec => q.bytes + rec.length ≤ mmapSize.toNat
  | .lost _ => True
  | .received rec => q.unread.head? = some rec
  | .returned _ => True

/-- The call in progress has handed over what is held, and goes on to some of what is unread. -/
def WalkAt (pos : ℕ) (q : Fifo) : Option Walk → Prop
  | none => q.held = []
  | some w => w.dataTail = UInt64.ofNat (pos + q.held.flatten.length) ∧
      ∃ pre suf, q.unread = pre ++ suf ∧
        w.dataHead = UInt64.ofNat (pos + q.held.flatten.length + pre.flatten.length)

/-- The ring stands for the queue, with its oldest byte at position `pos`. -/
structure StandsFor (mmapSize : UInt64) (r : PerfRing) (q : Fifo) (pos : ℕ) : Prop where
  unread : Unread mmapSize r.mmap pos (q.held ++ q.unread)
  walk : WalkAt pos q r.walk

variable {mmapSize : UInt64} {r r' : PerfRing} {q : Fifo} {pos : ℕ} {es : List RingEvent}

/-! ## The kernel -/

theorem ofNat_sub {a b : ℕ} (hb : b < 2 ^ 64) :
    (UInt64.ofNat (a + b) - UInt64.ofNat a).toNat = b := by
  rw [← ofNat_add, UInt64.add_comm, UInt64.add_sub_cancel]
  exact UInt64.toNat_ofNat_of_lt' hb

theorem unread_nil (hpos : 8 ∣ pos) (data : ℕ → UInt8) :
    Unread mmapSize ⟨UInt64.ofNat pos, UInt64.ofNat pos, data⟩ pos [] :=
  ⟨⟨hpos, Nat.zero_le _, stored_nil _ _ _, fun _ h ↦ absurd h List.not_mem_nil⟩, rfl, rfl⟩

theorem Unread.used (hsize : PageSized mmapSize) {m : PerfMmap} {recs : List (List UInt8)}
    (h : Unread mmapSize m pos recs) : (m.dataHead - m.dataTail).toNat = recs.flatten.length := by
  have hle := hsize.le
  have hroom := h.holds.room
  rw [h.dataHead, h.dataTail]
  exact ofNat_sub (by omega)

theorem Unread.push (hsize : PageSized mmapSize) {m : PerfMmap} {recs : List (List UInt8)}
    {data : ℕ → UInt8} {rec : List UInt8} (h : Unread mmapSize m pos recs)
    (hwritten : Written mmapSize m data rec) :
    Unread mmapSize
      { m with
        data := data
        dataHead := m.dataHead + UInt64.ofNat rec.length } pos (recs ++ [rec]) := by
  obtain ⟨hrec, hroom, hkept, hstored⟩ := hwritten
  rw [h.used hsize] at hroom hkept
  have hlen : (recs ++ [rec]).flatten.length = recs.flatten.length + rec.length := by simp
  have hcell : ∀ p, (UInt64.ofNat p).toNat % mmapSize.toNat = p % mmapSize.toNat := by
    intro p
    rw [UInt64.toNat_ofNat', Nat.mod_mod_of_dvd _ hsize.dvd]
  refine ⟨⟨h.holds.aligned, hlen ▸ hroom, ?_, ?_⟩, h.dataTail, ?_⟩
  · rw [h.dataTail, span_congr (hcell pos), span_congr (hcell pos)] at hkept
    rw [h.dataHead, span_congr (hcell _)] at hstored
    exact h.holds.stored.push hkept hstored
  · intro rec' hmem
    rcases List.mem_append.mp hmem with hold | hnew
    · exact h.holds.records rec' hold
    · exact List.mem_singleton.mp hnew ▸ hrec
  · rw [h.dataHead, ofNat_add, hlen, Nat.add_assoc]

theorem WalkAt.push {walk : Option Walk} (h : WalkAt pos q walk) (rec : List UInt8) :
    WalkAt pos { q with unread := q.unread ++ [rec] } walk := by
  cases walk with
  | none => exact h
  | some w =>
      obtain ⟨htail, pre, suf, hsplit, hhead⟩ := h
      refine ⟨htail, pre, suf ++ [rec], ?_, hhead⟩
      rw [← List.append_assoc, ← hsplit]

theorem StandsFor.output (hsize : PageSized mmapSize) (h : StandsFor mmapSize r q pos)
    {data : ℕ → UInt8} {rec : List UInt8} (hwritten : Written mmapSize r.mmap data rec)
    (hstep : ringStep mmapSize r (.output data rec) = .ok (r', es)) :
    EachEvent Fifo.next (Fifo.Allowed mmapSize) q es ∧
      StandsFor mmapSize r' (es.foldl Fifo.next q) pos := by
  obtain ⟨rfl, rfl⟩ := Prod.mk.inj (Except.ok.inj hstep)
  have hused : (r.mmap.dataHead - r.mmap.dataTail).toNat = q.bytes := h.unread.used hsize
  have hallowed : q.bytes + rec.length ≤ mmapSize.toNat := hused ▸ hwritten.room
  refine ⟨⟨hallowed, trivial⟩, ?_, h.walk.push rec⟩
  have hpush := h.unread.push hsize hwritten
  rwa [List.append_assoc] at hpush

/-! ## The reader -/

theorem StandsFor.begin (h : StandsFor mmapSize r q pos) (hidle : r.walk = none) :
    StandsFor mmapSize { r with walk := some ⟨r.mmap.dataHead, r.mmap.dataTail⟩ } q pos := by
  have hheld : q.held = [] := by
    have hwalk := h.walk
    rwa [hidle] at hwalk
  refine ⟨h.unread, ?_, q.unread, [], (List.append_nil _).symm, ?_⟩
  · simpa [hheld] using h.unread.dataTail
  · simpa [hheld] using h.unread.dataHead

/-- At the end of a call what has been handed over is given back. -/
theorem StandsFor.finish (h : StandsFor mmapSize r q pos) {copySize : UInt64} :
    StandsFor mmapSize (endWalk r (UInt64.ofNat (pos + q.held.flatten.length)) copySize)
      { q with held := [] } (pos + q.held.flatten.length) := by
  refine ⟨⟨h.unread.holds.drop, rfl, ?_⟩, rfl⟩
  refine h.unread.dataHead.trans (congrArg UInt64.ofNat ?_)
  rw [List.flatten_append, List.length_append, Nat.add_assoc]
  rfl

/-- The first unread record is handed over. -/
theorem StandsFor.handOver {w : Walk} {rec : List UInt8} {pre suf : List (List UInt8)}
    (h : Unread mmapSize r.mmap pos (q.held ++ q.unread)) (hsplit : q.unread = rec :: pre ++ suf)
    (htail : w.dataTail = UInt64.ofNat (pos + q.held.flatten.length))
    (hhead : w.dataHead =
      UInt64.ofNat (pos + q.held.flatten.length + (rec :: pre).flatten.length))
    (copySize : UInt64) :
    StandsFor mmapSize
      ⟨r.mmap, copySize, some { w with dataTail := w.dataTail + UInt64.ofNat rec.length }⟩
      ⟨q.held ++ [rec], pre ++ suf⟩ pos := by
  have hheld : (q.held ++ [rec]).flatten.length = q.held.flatten.length + rec.length := by simp
  have hall : q.held ++ q.unread = (q.held ++ [rec]) ++ (pre ++ suf) := by simp [hsplit]
  refine ⟨hall ▸ h, ?_, pre, suf, rfl, ?_⟩
  · rw [htail, ofNat_add, hheld, Nat.add_assoc]
  · rw [hhead, hheld, List.flatten_cons, List.length_append]
    exact congrArg UInt64.ofNat (by omega)

theorem StandsFor.walkTurn (hsize : PageSized mmapSize) (h : StandsFor mmapSize r q pos)
    {w : Walk} (hw : r.walk = some w) (malloc : Bool) (ret : Int) :
    ∃ r' es, walkTurn mmapSize malloc ret r w = .ok (r', es) ∧
      EachEvent Fifo.next (Fifo.Allowed mmapSize) q es ∧
      ∃ pos', StandsFor mmapSize r' (es.foldl Fifo.next q) pos' := by
  obtain ⟨htail, pre, suf, hsplit, hhead⟩ : WalkAt pos q (some w) := hw ▸ h.walk
  unfold AntiDos.walkTurn
  cases pre with
  | nil =>
      have hend : w.dataHead = w.dataTail := hhead.trans htail.symm
      rw [if_pos hend, htail]
      exact ⟨_, _, rfl, ⟨trivial, trivial⟩, _, h.finish⟩
  | cons rec pre =>
      have hholds : Holds mmapSize r.mmap.data (pos + q.held.flatten.length)
          (rec :: (pre ++ suf)) := by
        have hdrop := h.unread.holds.drop
        rwa [hsplit] at hdrop
      obtain ⟨hrec, hspan, hroom⟩ := hholds.head
      have hmore : w.dataHead ≠ w.dataTail := by
        have hle := hsize.le
        have height := hrec.eight_le
        have hfit := hholds.room
        simp only [List.flatten_cons, List.flatten_append, List.length_append] at hfit
        rw [hhead, htail, List.flatten_cons, List.length_append]
        exact ofNat_ne (by omega) (by omega)
      rw [if_neg hmore, htail, fetchEvent_eq hsize hrec hholds.aligned hspan hroom, ok_bind]
      by_cases hfail : NeedsCopy mmapSize r.copySize (pos + q.held.flatten.length) rec ∧ ¬ malloc
      · rw [if_pos hfail]
        exact ⟨_, _, rfl, ⟨trivial, trivial⟩, _, h.finish⟩
      · rw [if_neg hfail]
        have hnext : q.next (.received rec) = ⟨q.held ++ [rec], pre ++ suf⟩ := by
          simp [Fifo.next, hsplit]
        have hallowed : q.Allowed mmapSize (.received rec) := by
          simp [Fifo.Allowed, hsplit]
        have hover := StandsFor.handOver h.unread hsplit htail hhead
          (copySizeAfter mmapSize r.copySize (pos + q.held.flatten.length) rec)
        by_cases hret : ret = libbpfPerfEventCont
        · refine ⟨_, _, if_neg (not_not_intro hret), ⟨hallowed, trivial⟩, pos, ?_⟩
          rw [List.foldl_cons, hnext, ← htail]
          exact hover
        · have hwalk : w.dataTail + UInt64.ofNat rec.length =
              UInt64.ofNat (pos + (q.held ++ [rec]).flatten.length) := by
            obtain ⟨hnow, -⟩ := hover.walk
            exact hnow
          refine ⟨_, _, if_pos hret, ⟨hallowed, trivial, trivial⟩,
            pos + (q.held ++ [rec]).flatten.length, ?_⟩
          rw [List.foldl_cons, List.foldl_cons, hnext, ← htail, hwalk]
          exact hover.finish

/-! ## Whole calls -/

/-- A callback that answers `f` and records what it was called with. -/
def recordCalls {σ : Type} (f : List UInt8 → σ → Int × σ) (rec : List UInt8) (s : σ) :
    Except PerfFault (Int × σ × List RingEvent) :=
  .ok ((f rec s).1, (f rec s).2, [.received rec])

def RingMove.ofTurn (turn : Bool × Int) : RingMove := .turn turn.1 turn.2

theorem run_turn {moves : List RingMove} {move : RingMove} {r₁ : PerfRing}
    {es log all : List RingEvent} (hstep : ringStep mmapSize r move = .ok (r₁, es))
    (hrest : run (ringStep mmapSize) r₁ moves = .ok (r', log)) (hall : all = es ++ log) :
    run (ringStep mmapSize) r (move :: moves) = .ok (r', all) :=
  run_cons_eq_ok_iff.mpr ⟨r₁, es, log, hstep, hrest, hall⟩

theorem run_one {move : RingMove} (hstep : ringStep mmapSize r move = .ok (r', es)) :
    run (ringStep mmapSize) r [move] = .ok (r', es) :=
  run_turn hstep (run_nil r') (List.append_nil es).symm

theorem readEvents_run {σ : Type} {f : List UInt8 → σ → Int × σ} {malloc : UInt64 → Bool}
    {mmap : PerfMmap} {dataHead dataTail copySize : UInt64} {fuel : ℕ} {s : σ}
    {x : ReadEnd σ RingEvent}
    (h : readEvents (recordCalls f) mmapSize dataHead mmap.data malloc fuel dataTail copySize s =
      .ok x) :
    ∃ turns : List (Bool × Int),
      run (ringStep mmapSize) ⟨mmap, copySize, some ⟨dataHead, dataTail⟩⟩ (turns.map .ofTurn) =
        .ok (⟨{ mmap with dataTail := x.dataTail }, x.copySize, none⟩,
          x.log ++ [.returned x.ret]) := by
  induction fuel generalizing dataTail copySize s x with
  | zero => cases h
  | succ fuel ih =>
      rw [readEvents] at h
      by_cases hend : dataHead = dataTail
      · rw [if_pos hend] at h
        obtain rfl := Except.ok.inj h
        refine ⟨[(true, 0)], run_one ?_⟩
        exact if_pos hend
      · rw [if_neg hend] at h
        obtain ⟨⟨event, size, copied⟩, hfetch, hrest⟩ := bind_eq_ok_iff.mp h
        have hturn : ∀ ret, walkTurn mmapSize (malloc dataTail) ret
            ⟨mmap, copySize, some ⟨dataHead, dataTail⟩⟩ ⟨dataHead, dataTail⟩ = _ :=
          fun ret ↦ (if_neg hend).trans (congrArg (· >>= _) hfetch)
        cases event with
        | none =>
            obtain rfl := Except.ok.inj hrest
            refine ⟨[(malloc dataTail, 0)], run_one ?_⟩
            exact hturn 0
        | some event =>
            have hone := hturn (f event s).1
            by_cases hret : (f event s).1 = libbpfPerfEventCont
            · simp only [recordCalls, ok_bind, if_neg (not_not_intro hret)] at hrest
              obtain ⟨z, hz, hlast⟩ := bind_eq_ok_iff.mp hrest
              obtain rfl := Except.ok.inj hlast
              obtain ⟨turns, hrun⟩ := ih hz
              refine ⟨(malloc dataTail, (f event s).1) :: turns, ?_⟩
              have hgoes := hone.trans (if_neg (not_not_intro hret))
              exact run_turn hgoes hrun (List.append_assoc _ _ _)
            · simp only [recordCalls, ok_bind, if_pos hret] at hrest
              obtain rfl := Except.ok.inj hrest
              refine ⟨[(malloc dataTail, (f event s).1)], run_one ?_⟩
              exact hone.trans (if_pos hret)

/-- A call of `bpf_perf_event_read_simple` is a run of turns that no output interrupts. -/
theorem perf_read_run {σ : Type} {f : List UInt8 → σ → Int × σ} {malloc : UInt64 → Bool}
    {mmap mmap' : PerfMmap} {copySize : UInt64} {fuel : ℕ} {s : σ} {x : ReadEnd σ RingEvent}
    (h : bpfPerfEventReadSimpleAt (recordCalls f) mmapSize malloc fuel mmap copySize s =
      .ok (x, mmap')) :
    ∃ turns : List (Bool × Int),
      run (ringStep mmapSize) ⟨mmap, copySize, none⟩ (turns.map .ofTurn) =
        .ok (⟨mmap', x.copySize, none⟩, x.log ++ [.returned x.ret]) := by
  obtain ⟨x', hread, hend⟩ := bind_eq_ok_iff.mp h
  obtain ⟨rfl, rfl⟩ := Prod.mk.inj (Except.ok.inj hend)
  obtain ⟨turns, hrun⟩ := readEvents_run hread
  have hbegin : ringStep mmapSize ⟨mmap, copySize, none⟩ (.turn true 0) =
      .ok (⟨mmap, copySize, some ⟨mmap.dataHead, mmap.dataTail⟩⟩, []) := rfl
  exact ⟨(true, 0) :: turns, run_turn hbegin hrun rfl⟩

/-! ## Runs -/

theorem StandsFor.step (hsize : PageSized mmapSize) (h : StandsFor mmapSize r q pos)
    {move : RingMove} (hmove : KernelKeeps mmapSize r move) :
    ∃ r' es, ringStep mmapSize r move = .ok (r', es) ∧
      EachEvent Fifo.next (Fifo.Allowed mmapSize) q es ∧
      ∃ pos', StandsFor mmapSize r' (es.foldl Fifo.next q) pos' := by
  cases move with
  | output data rec =>
      obtain ⟨hes, hnext⟩ := h.output hsize hmove rfl
      exact ⟨_, _, rfl, hes, pos, hnext⟩
  | lose rec => exact ⟨r, [.lost rec], rfl, ⟨trivial, trivial⟩, pos, h⟩
  | turn malloc ret =>
      cases hwalk : r.walk with
      | none =>
          refine ⟨{ r with walk := some ⟨r.mmap.dataHead, r.mmap.dataTail⟩ }, [], ?_, trivial,
            pos, h.begin hwalk⟩
          simp only [ringStep, hwalk]
      | some w =>
          obtain ⟨r', es, hturn, hrest⟩ := h.walkTurn hsize hwalk malloc ret
          refine ⟨r', es, ?_, hrest⟩
          simpa only [ringStep, hwalk] using hturn

/-- The ring at the start, whatever its memory holds. -/
def PerfRing.init (data : ℕ → UInt8) (copySize : UInt64) : PerfRing :=
  ⟨⟨0, 0, data⟩, copySize, none⟩

theorem standsFor_init (data : ℕ → UInt8) (copySize : UInt64) :
    StandsFor mmapSize (PerfRing.init data copySize) ⟨[], []⟩ 0 :=
  ⟨unread_nil (Nat.dvd_zero 8) data, rfl⟩

theorem StandsFor.run (hsize : PageSized mmapSize) (h : StandsFor mmapSize r q pos)
    {moves : List RingMove}
    (hkernel : Along (ringStep mmapSize) (KernelKeeps mmapSize) r moves) :
    ∃ r' log, Transducer.run (ringStep mmapSize) r moves = .ok (r', log) ∧
      EachEvent Fifo.next (Fifo.Allowed mmapSize) q log ∧
      ∃ pos', StandsFor mmapSize r' (log.foldl Fifo.next q) pos' := by
  induction moves generalizing r q pos with
  | nil => exact ⟨r, [], rfl, trivial, pos, h⟩
  | cons move moves ih =>
      obtain ⟨hmove, hrest⟩ := hkernel
      obtain ⟨r₁, es, hstep, hes, pos₁, h₁⟩ := h.step hsize hmove
      obtain ⟨r₂, log, hrun, hlog, pos₂, h₂⟩ := ih h₁ (hrest r₁ es hstep)
      refine ⟨r₂, es ++ log, ?_, eachEvent_append.mpr ⟨hes, hlog⟩, pos₂, ?_⟩
      · exact run_turn hstep hrun rfl
      · rwa [List.foldl_append]

/-- However the kernel and the reader take turns, the reader never faults, it hands over whole
records once and in the order in which the kernel has put them there, and the ring holds at the end
what has been put there and not yet handed over. -/
theorem ring_fifo (hsize : PageSized mmapSize) (data : ℕ → UInt8) (copySize : UInt64)
    (moves : List RingMove)
    (hkernel : Along (ringStep mmapSize) (KernelKeeps mmapSize) (.init data copySize) moves) :
    ∃ r log, run (ringStep mmapSize) (.init data copySize) moves = .ok (r, log) ∧
      EachEvent Fifo.next (Fifo.Allowed mmapSize) ⟨[], []⟩ log ∧
      ∃ pos, StandsFor mmapSize r (log.foldl Fifo.next ⟨[], []⟩) pos :=
  (standsFor_init data copySize).run hsize hkernel

/-- Three records of 48 bytes in a ring of 128 bytes: the third one is lost at first, and reaches
over the end of the ring after the others have been given back. -/
theorem ring_fifo_wraps :
    let x (src : UInt32) : Sample :=
      ⟨⟨0xffffffff, { PktMeta.zero with src := src }⟩, [], ⟨0, (0, 0), [0, 0, 0, 0]⟩⟩
    let turn : RingMove := .turn true libbpfPerfEventCont
    let d₁ := fill 128 (fun _ ↦ 0) 0 (x 1).record
    let d₂ := fill 128 d₁ 48 (x 2).record
    let d₃ := fill 128 d₂ 96 (x 3).record
    ∃ r log, run (ringStep 128) (.init (fun _ ↦ 0) 0)
        [.output d₁ (x 1).record, .output d₂ (x 2).record, .lose (x 3).record, turn, turn, turn,
          turn, .output d₃ (x 3).record, turn, turn] = .ok (r, log) ∧
      EachEvent Fifo.next (Fifo.Allowed 128) ⟨[], []⟩ log ∧
      ∃ pos, StandsFor 128 r (log.foldl Fifo.next ⟨[], []⟩) pos := by
  intro x turn d₁ d₂ d₃
  exact ring_fifo ⟨⟨7, rfl⟩, by decide⟩ _ _ _ (by decide +kernel)

end AntiDos
