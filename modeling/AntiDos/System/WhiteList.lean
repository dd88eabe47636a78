import AntiDos.Filter.Reports
import AntiDos.Filter.Cpus
import AntiDos.Poller.Locks

/-!
# White-listed sources and the detection

The filter and the poll loop meet in the perf rings only. A frame of a white-listed source is
decided before it could be reported, and the record of an unparsed frame is all zero, so no record
names a white-listed source other than `0.0.0.0`. The detection blocks sources that it has read in
records, unless it reads a row of a table that it never wrote. -/

namespace AntiDos

open Faulting Transducer

/-! ## The system -/

structure System (n : ℕ) where
  kernel : Kernel n
  poller : Poller

def System.init (n : ℕ) (map : BlackListMap) : System n := ⟨Kernel.init n, Poller.init map⟩

/-- A frame arrives, or the poll loop makes an iteration. The lists a frame meets are those at its
arrival, whoever has changed them. -/
inductive Input (n : ℕ) where
  | frame (a : Arrival n)
  | tick (tick : Tick)

inductive Seen where
  | verdict (v : Verdict)
  | event (e : Event)
  deriving DecidableEq

def systemStep {n : ℕ} (pol : PolicyTable) (s : System n) :
    Input n → Except (FilterFault ⊕ Fault) (System n × List Seen)
  | .frame a =>
      match processFrame s.kernel a with
      | .error e => .error (.inl e)
      | .ok (k, vs) => .ok (⟨k, s.poller⟩, vs.map .verdict)
  | .tick tick =>
      match iteration pol s.poller tick with
      | .error e => .error (.inr e)
      | .ok (p, es) => .ok (⟨s.kernel, p⟩, es.map .event)

variable {n : ℕ} {pol : PolicyTable} {w : UInt32} {s s' t : System n} {inputs : List (Input n)}
  {log : List Seen}

/-- Every sample the rings deliver was submitted by the filter; it may be late, lost or repeated. -/
def Genuine (s : System n) : Input n → Prop
  | .frame _ => True
  | .tick tick => ∀ b ∈ tick.buffers, ∀ r ∈ b.records, r.type = perfRecordSample →
      ∃ ev ∈ s.kernel.perf, ev.pktMeta = r.pktMeta

instance (s : System n) (i : Input n) : Decidable (Genuine s i) :=
  match i with
  | .frame _ => .isTrue trivial
  | .tick _ => inferInstanceAs (Decidable (∀ b ∈ _, ∀ r ∈ _, _ → ∃ ev ∈ _, _ = _))

/-! ## What the filter reports -/

/-- The record does not name `w`, or is the record of an unparsed frame. -/
def Unnamed (w : UInt32) (m : PktMeta) : Prop := m.src = w → w = 0 ∧ m.dst = 0

theorem unnamed_zero (w : UInt32) : Unnamed w .zero := fun h ↦ ⟨h.symm, rfl⟩

theorem inspected_unnamed {a : Arrival n} (hw : w ∈ a.whiteList) {m : PktMeta}
    (h : a.inspected.1 = .out xdpPass m) : Unnamed w m := by
  unfold Arrival.inspected inspect at h
  split at h
  · cases h
  · split at h
    · cases h
      exact unnamed_zero w
    · split at h
      · cases h
      · split at h
        · cases h
        · rename_i hwhite
          split at h
          · cases h
          · have hpass : inspectTransport a.frame =
                (.out xdpPass m, (inspectTransport a.frame).2) := Prod.ext h rfl
            rcases inspectTransport_pass hpass with ⟨-, size, ports, seq, rfl⟩ | ⟨-, rfl⟩
            · intro hsrc
              have hframe : sourceAddr a.frame = w := hsrc
              exact absurd (hframe ▸ hw) hwhite
            · exact unnamed_zero w

theorem Kernel.after_unnamed {k : Kernel n} {a : Arrival n} (hw : w ∈ a.whiteList)
    (h : ∀ ev ∈ k.perf, Unnamed w ev.pktMeta) : ∀ ev ∈ (k.after a).perf, Unnamed w ev.pktMeta := by
  unfold Kernel.after
  cases hend : a.inspected.1 with
  | ret action => exact h
  | out action m =>
      intro ev hev
      simp only [finish] at hev
      split at hev
      · rename_i hpass
        rcases List.mem_append.mp hev with hev | hev
        · exact h ev hev
        · obtain rfl := List.mem_singleton.mp hev
          exact inspected_unnamed hw (hpass ▸ hend)
      · exact h ev hev

/-! ## What the detection blocks -/

def OnePolicy (pol : PolicyTable) (q : List PktMeta) : Prop :=
  ∀ hit ∈ hits pol q, ∀ hit' ∈ hits pol q, hit.1 = hit'.1

/-- If a window closes, at most one policy is hit in it, or no row the stack leaves in the tables
holds `w`. -/
def NoStaleRow (pol : PolicyTable) (w : UInt32) (s : System n) : Input n → Prop
  | .frame _ => True
  | .tick tick =>
      tick.now - (syncClock tick.now s.poller).timeStart = interval →
        OnePolicy pol s.poller.queue ∨
          ∀ j < pol.policies.length, ∀ k < psiRows, (tick.window.stack j).ip0 k ≠ w

instance (pol : PolicyTable) (q : List PktMeta) : Decidable (OnePolicy pol q) :=
  inferInstanceAs (Decidable (∀ hit ∈ _, ∀ hit' ∈ _, _ = _))

instance (s : System n) (i : Input n) : Decidable (NoStaleRow pol w s i) :=
  match i with
  | .frame _ => .isTrue trivial
  | .tick _ => inferInstanceAs (Decidable (_ → _ ∨ ∀ j < _, ∀ k < _, _ ≠ _))

theorem blocked_mem_hits {c : Counting} {q : List PktMeta} {stack : ℕ → PolicyStatsIp}
    (hq : q.length ≤ queueSlots)
    (hc : countQueue pol (Counting.init stack) q = .ok c)
    (hrows : OnePolicy pol q ∨ ∀ j < pol.policies.length, ∀ k < psiRows, (stack j).ip0 k ≠ w)
    {i : ℕ} {p : Policy} (hp : pol.policies[i]? = some p) (hviol : Violates c p i w) :
    (i, w) ∈ hits pol q := by
  obtain ⟨k, hk, -, hkw⟩ := hviol
  rcases hrows with hone | hfree
  · obtain ⟨j, hsolo⟩ := exists_solo hq (fun i j a b hi hj ↦ hone _ hi _ hj) hc
    have hij : i = j := by
      by_contra hne
      rw [hsolo.others i hne] at hk
      exact Nat.not_lt_zero k hk
    subst hij
    rw [hsolo.own] at hk
    exact (hsolo.rows.mem_iff (i, w)).mpr ⟨k, hk, Prod.ext rfl hkw⟩
  · obtain ⟨W, -, hcov⟩ := countQueue_covered hc
    rcases countQueue_rows hc i k with hstale | hmem
    · obtain ⟨hi, -⟩ := List.getElem?_eq_some_iff.mp hp
      exact absurd (hstale.symm.trans hkw) (hfree i hi k (hk.trans_le (hcov.numIp_le i)))
    · rwa [hkw] at hmem

theorem detectPhase_not_blocked {p : Poller} {tick : Tick} {x : Poller × List Event}
    (hq : p.queue.length ≤ queueSlots) (hx : detectPhase pol tick p = .ok x)
    (hqueue : ∀ m ∈ p.queue, Unnamed w m) (hzero : w ≠ 0 ∨ ∀ r ∈ pol.policies, r.ip ≠ 0)
    (hrows : tick.now - p.timeStart = interval → OnePolicy pol p.queue ∨
      ∀ j < pol.policies.length, ∀ k < psiRows, (tick.window.stack j).ip0 k ≠ w) :
    ¬ Blocked x.2 w := by
  rcases detectPhase_cases hx with ⟨hgate, r, hr, rfl⟩ | ⟨-, rfl⟩
  · rintro ⟨time, added, hmem⟩
    have hblocked : Blocked r.2 w := ⟨time, added, by simpa using hmem⟩
    obtain ⟨c, hc, hiff⟩ := detectAttackers_blocked hr
    obtain ⟨i, pi, hp, hviol⟩ := (hiff w).mp hblocked
    obtain ⟨m, hm, p', hp', hdst, hsrc⟩ :=
      mem_hits.mp (blocked_mem_hits hq hc (hrows hgate) hp hviol)
    obtain ⟨hw, hm0⟩ := hqueue m hm hsrc
    rcases hzero with hne | hpolicies
    · exact hne hw
    · exact hpolicies p' (List.mem_of_getElem? hp') (hdst.symm.trans hm0)
  · exact not_blocked_nil w

/-! ## Runs -/

theorem mem_delivered {bs : List PerfBuffer} {m : PktMeta} (h : m ∈ delivered bs) :
    ∃ b ∈ bs, ∃ r ∈ b.records, r.type = perfRecordSample ∧ r.pktMeta = m := by
  induction bs with
  | nil => cases h
  | cons b bs ih =>
      have htail : m ∈ delivered bs → ∃ b' ∈ b :: bs, ∃ r ∈ b'.records,
          r.type = perfRecordSample ∧ r.pktMeta = m := by
        intro hm
        obtain ⟨b', hb', hr⟩ := ih hm
        exact ⟨b', List.mem_cons_of_mem b hb', hr⟩
      unfold delivered at h
      split at h
      · rcases List.mem_append.mp h with hring | hrest
        · obtain ⟨r, hr, hsome⟩ := List.mem_filterMap.mp hring
          obtain ⟨htype, rfl⟩ : r.type = perfRecordSample ∧ r.pktMeta = m := by simpa using hsome
          exact ⟨b, List.mem_cons_self, r, (List.takeWhile_prefix _).subset hr, htype, rfl⟩
        · split at hrest
          · exact htail hrest
          · cases hrest
      · exact htail h

/-- No record names `w`, in the rings or in the queue. -/
structure NeverNamed (w : UInt32) (s : System n) : Prop where
  emitted : ∀ ev ∈ s.kernel.perf, Unnamed w ev.pktMeta
  queued : ∀ m ∈ s.poller.queue, Unnamed w m
  room : s.poller.queue.length ≤ queueSlots

theorem NeverNamed.init (w : UInt32) (map : BlackListMap) : NeverNamed w (System.init n map) :=
  ⟨by simp [System.init, Kernel.init], by simp [System.init, Poller.init], Nat.zero_le _⟩

theorem scanPhase_not_blocked (tick : Tick) (p : Poller) (a : UInt32) :
    ¬ Blocked (scanPhase tick p).2 a := by
  refine scanPhase_invariant (fun acc ↦ ¬ Blocked acc.2 a) (fun acc g hacc _ _ ↦ ?_)
    (fun _ hacc ↦ hacc) (not_blocked_nil a)
  rw [released, blocked_append, not_or]
  exact ⟨hacc, by simp [Blocked]⟩

theorem iteration_blocked {p p' : Poller} {tick : Tick} {es : List Event} {a : UInt32}
    (hq : p.queue.length ≤ queueSlots) (h : iteration pol p tick = .ok (p', es))
    (hblocked : Blocked es a) :
    ∃ x, detectPhase pol tick (syncClock tick.now p) = .ok x ∧ Blocked x.2 a := by
  obtain ⟨x, hx, -, -, rfl⟩ := (iteration_eq_ok_iff hq).mp h
  have hstores : ¬ Blocked (stores x.1.queue.length (delivered tick.buffers)) a := by
    rintro ⟨time, added, hmem⟩
    exact stores_idle hmem
  refine ⟨x, hx, ?_⟩
  rw [← List.singleton_append, blocked_append, blocked_append, blocked_append] at hblocked
  rcases hblocked with hreading | (hdetect | hscan) | hstore
  · simp [Blocked] at hreading
  · exact hdetect
  · exact absurd hscan (scanPhase_not_blocked tick x.1 a)
  · exact absurd hstore hstores

theorem NeverNamed.frame (h : NeverNamed w s) {a : Arrival n} {es : List Seen}
    (hw : w ∈ a.whiteList) (hstep : systemStep pol s (.frame a) = .ok (s', es)) :
    NeverNamed w s' ∧ ∀ time added, .event (.block w time added) ∉ es := by
  simp only [systemStep, processFrame_eq] at hstep
  obtain ⟨rfl, rfl⟩ := Prod.mk.inj (Except.ok.inj hstep)
  exact ⟨⟨s.kernel.after_unnamed hw h.emitted, h.queued, h.room⟩, by simp⟩

theorem NeverNamed.tick (h : NeverNamed w s) {tick : Tick} {es : List Seen}
    (hgenuine : Genuine s (.tick tick)) (hzero : w ≠ 0 ∨ ∀ p ∈ pol.policies, p.ip ≠ 0)
    (hrows : NoStaleRow pol w s (.tick tick))
    (hstep : systemStep pol s (.tick tick) = .ok (s', es)) :
    NeverNamed w s' ∧ ∀ time added, .event (.block w time added) ∉ es := by
  unfold systemStep at hstep
  dsimp only at hstep
  split at hstep
  · cases hstep
  · rename_i p evs hiter
    obtain ⟨rfl, rfl⟩ := Prod.mk.inj (Except.ok.inj hstep)
    constructor
    · refine ⟨h.emitted, ?_, iteration_queue_length h.room hiter⟩
      intro m hm
      rw [iteration_queue h.room hiter] at hm
      rcases List.mem_append.mp hm with hm | hm
      · split at hm
        · cases hm
        · exact h.queued m hm
      · obtain ⟨b, hb, r, hr, htype, rfl⟩ := mem_delivered hm
        obtain ⟨ev, hev, heq⟩ := hgenuine b hb r hr htype
        exact heq ▸ h.emitted ev hev
    · intro time added hmem
      have hblocked : Blocked evs w := ⟨time, added, by simpa using hmem⟩
      obtain ⟨x, hx, hx'⟩ := iteration_blocked h.room hiter hblocked
      refine detectPhase_not_blocked ?_ hx ?_ hzero ?_ hx'
      · simpa using h.room
      · simpa using h.queued
      · rw [syncClock_queue]
        exact hrows

def NeverBlocked (w : UInt32) (log : List Seen) : Prop :=
  ∀ time added, .event (.block w time added) ∉ log

theorem NeverNamed.run (h : NeverNamed w s)
    (hlisted : ∀ a, .frame a ∈ inputs → w ∈ a.whiteList)
    (hgenuine : Along (systemStep pol) Genuine s inputs)
    (hzero : w ≠ 0 ∨ ∀ p ∈ pol.policies, p.ip ≠ 0)
    (hrows : Along (systemStep pol) (NoStaleRow pol w) s inputs)
    (hrun : run (systemStep pol) s inputs = .ok (t, log)) : NeverBlocked w log := by
  induction inputs generalizing s log with
  | nil =>
      obtain ⟨-, rfl⟩ : s = t ∧ [] = log := by simpa using hrun
      exact fun _ _ ↦ List.not_mem_nil
  | cons i inputs ih =>
      obtain ⟨s', es, fs, hstep, hrest, rfl⟩ := run_cons_eq_ok_iff.mp hrun
      have hone : NeverNamed w s' ∧ ∀ time added, .event (.block w time added) ∉ es := by
        cases i with
        | frame a => exact h.frame (hlisted a List.mem_cons_self) hstep
        | tick tick => exact h.tick hgenuine.1 hzero hrows.1 hstep
      have htail := ih hone.1 (fun a ha ↦ hlisted a (List.mem_cons_of_mem i ha))
        (hgenuine.2 s' es hstep) (hrows.2 s' es hstep) hrest
      intro time added hmem
      rcases List.mem_append.mp hmem with hmem | hmem
      · exact hone.2 time added hmem
      · exact htail time added hmem

/-- A run whose detections read no stale row with a white-listed address never blocks it, unless it
is `0.0.0.0` and a policy protects that address. -/
theorem white_listed_not_blocked (pol : PolicyTable) (map : BlackListMap) (w : UInt32)
    (inputs : List (Input n)) (hlisted : ∀ a, .frame a ∈ inputs → w ∈ a.whiteList)
    (hgenuine : Along (systemStep pol) Genuine (System.init n map) inputs)
    (hzero : w ≠ 0 ∨ ∀ p ∈ pol.policies, p.ip ≠ 0)
    (hrows : Along (systemStep pol) (NoStaleRow pol w) (System.init n map) inputs)
    (hrun : run (systemStep pol) (System.init n map) inputs = .ok (t, log)) :
    NeverBlocked w log :=
  (NeverNamed.init w map).run hlisted hgenuine hzero hrows hrun

def tcpMeta (f : List UInt8) : PktMeta := packetMeta f 20 (ports f) (sequenceNumber f)

def tcpFrameTo (dst : List UInt8) : List UInt8 :=
  ipv4Frame 6 0 [10, 0, 0, 7] dst
    ([0x30, 0x39, 0, 80, 0, 0, 0, 1, 0, 0, 0, 0, 0x50, 0x10] ++ List.replicate 6 0)

/-- A frame to each of the addresses `dsts`, with `w` white-listed, and the two iterations in which
they are queued and counted. -/
def windowInputs (w : UInt32) (dsts : List (List UInt8)) (stale : UInt32) : List (Input 1) :=
  dsts.map (fun dst ↦ .frame ⟨0, tcpFrameTo dst, {w}, ∅⟩) ++
    [.tick (plainTick 100 (dsts.map fun dst ↦ tcpMeta (tcpFrameTo dst))),
      .tick { plainTick 101 [] with
        window := ⟨freshStack stale, fun _ _ ↦ 101, fun _ _ ↦ .granted⟩ }]

/-- What is seen of these inputs, up to the detection in the second iteration. -/
def windowLog (dsts : List (List UInt8)) : List Seen :=
  let ms := dsts.map fun dst ↦ tcpMeta (tcpFrameTo dst)
  dsts.map (fun _ ↦ .verdict ⟨xdpPass, 54⟩) ++ .event (.reading 100) ::
    ((stores 0 ms).map .event ++ [.event (.reading 101), .event (.detect ms)])

/-- A frame of the address with the raw value `9`. -/
def listedFrame : List UInt8 :=
  ipv4Frame 6 0 [9, 0, 0, 0] [10, 10, 10, 10]
    ([0x30, 0x39, 0, 80, 0, 0, 0, 1, 0, 0, 0, 0, 0x50, 0x10] ++ List.replicate 6 0)

set_option maxRecDepth 4000 in
/-- The white-listed address sends before the window of another one is counted. -/
theorem one_policy_not_blocked :
    NeverBlocked 9 (.verdict ⟨xdpPass, 54⟩ :: windowLog [[10, 10, 10, 10]]) := by
  refine white_listed_not_blocked policyFile emptyMap 9
    (.frame ⟨0, listedFrame, {9}, ∅⟩ :: windowInputs 9 [[10, 10, 10, 10]] 9)
    ?_ (by decide) (Or.inl (by decide)) (by decide) rfl
  simp [windowInputs]

set_option maxRecDepth 4000 in
/-- One packet to each of the two policies, and the white-listed address in the rows of the stack.
-/
theorem white_listed_blocked :
    ∃ t log, run (systemStep policyFile) (System.init 1 emptyMap)
        (windowInputs 9 [[10, 10, 10, 10], [10, 10, 30, 1]] 9) = .ok (t, log) ∧
      (∀ a, .frame a ∈ windowInputs 9 [[10, 10, 10, 10], [10, 10, 30, 1]] 9 → 9 ∈ a.whiteList) ∧
      Along (systemStep policyFile) Genuine (System.init 1 emptyMap)
        (windowInputs 9 [[10, 10, 10, 10], [10, 10, 30, 1]] 9) ∧
      ¬ NeverBlocked 9 log := by
  refine ⟨_, windowLog [[10, 10, 10, 10], [10, 10, 30, 1]] ++
    [.event (.detected ⟨2, 0x011E0A0A, 100⟩ 9 0xFFFFFFFF), .event (.block 9 101 true)], rfl,
    by simp [windowInputs], by decide, fun h ↦ h 101 true (by simp)⟩

end AntiDos
