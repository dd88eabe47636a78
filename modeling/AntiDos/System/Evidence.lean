import AntiDos.Poller.Detection
import AntiDos.System.Gateway
import AntiDos.System.WhiteList
import Mathlib.Data.List.Perm.Subperm

/-!
# The evidence for a block

A sample is in a ring, then in the queue, and is then analysed; on the way it may be lost, but it is
never repeated and never made up. So an address is blocked only after more packets of it have been
let through than the threshold of the policy, if each detection meets the packets of one policy.
-/

namespace AntiDos

open Faulting Tasks Transducer

variable {n : ℕ} {pol : PolicyTable} {s s' t : Gateway n} {moves : List (GatewayMove n)}
  {log es : List GatewayEvent}

/-! ## The rings -/

def samplesOf (rs : List PerfRecord) : List PktMeta := rs.filterMap PerfRecord.sample

@[simp] theorem samplesOf_append (rs rs' : List PerfRecord) :
    samplesOf (rs ++ rs') = samplesOf rs ++ samplesOf rs' := List.filterMap_append

/-- Whether a record can be copied does not matter for what it holds. -/
theorem samplesOf_take_mapIdx (copied : ℕ → Bool) (rs : List PerfRecord) (k : ℕ) :
    samplesOf ((rs.mapIdx fun j r ↦ { r with copied := copied j }).take k) =
      samplesOf (rs.take k) := by
  induction rs generalizing copied k with
  | nil => simp
  | cons r rs ih =>
      cases k with
      | zero => rfl
      | succ k =>
          rw [List.mapIdx_cons]
          have hrest := ih (fun j ↦ copied (j + 1)) k
          simp only [samplesOf, List.take_succ_cons, List.filterMap_cons, PerfRecord.sample]
            at hrest ⊢
          rw [hrest]

/-- What a record holds that is put into a ring is added to what the rings hold. -/
theorem samplesOf_modify (rings : List (List PerfRecord)) (k : ℕ) (rs : List PerfRecord) :
    (samplesOf (rings.modify k (· ++ rs)).flatten).Subperm
      (samplesOf rings.flatten ++ samplesOf rs) := by
  induction rings generalizing k with
  | nil =>
      rw [List.modify_nil]
      exact (List.nil_sublist _).subperm
  | cons ring rings ih =>
      cases k with
      | zero =>
          rw [List.modify_zero_cons, List.flatten_cons, List.flatten_cons, samplesOf_append,
            samplesOf_append, samplesOf_append, List.append_assoc, List.append_assoc]
          exact (List.perm_append_comm.append_left (samplesOf ring)).subperm
      | succ k =>
          rw [List.modify_succ_cons, List.flatten_cons, List.flatten_cons, samplesOf_append,
            samplesOf_append, List.append_assoc]
          exact (List.subperm_append_left (samplesOf ring)).mpr (ih k)

/-- What is taken from a ring are the samples of its first records. -/
theorem ringSamples_buffer (p : RingPoll) (ring : List PerfRecord) :
    ringSamples (p.buffer ring).records =
      samplesOf (ring.take ((p.buffer ring).records.takeWhile (·.copied)).length) := by
  have hfirst : (p.buffer ring).records.takeWhile (·.copied) =
      (p.buffer ring).records.take ((p.buffer ring).records.takeWhile (·.copied)).length :=
    List.prefix_iff_eq_take.mp (List.takeWhile_prefix _)
  have hvisible : ((p.buffer ring).records.takeWhile (·.copied)).length ≤ p.visible := by
    refine (List.takeWhile_prefix _).length_le.trans ?_
    simp [RingPoll.buffer]
  change samplesOf ((p.buffer ring).records.takeWhile (·.copied)) = _
  generalize ((p.buffer ring).records.takeWhile (·.copied)).length = k at hfirst hvisible
  rw [hfirst, RingPoll.buffer, samplesOf_take_mapIdx, List.take_take, Nat.min_eq_left hvisible]

/-- What is taken from the rings and what is left in them is what was in them. -/
theorem samplesOf_unreadRings (polls : List RingPoll) (rings : List (List PerfRecord)) :
    (delivered (readRings polls rings) ++ samplesOf (unreadRings polls rings).flatten).Perm
      (samplesOf rings.flatten) := by
  induction polls generalizing rings with
  | nil => exact List.Perm.refl _
  | cons p polls ih =>
      cases rings with
      | nil => exact List.Perm.refl _
      | cons ring rings =>
          have hread : readRings (p :: polls) (ring :: rings) =
              p.buffer ring :: readRings polls rings := rfl
          have hring := List.take_append_drop ((p.buffer ring).records.takeWhile (·.copied)).length
            ring
          rw [hread, delivered, unreadRings, ringSamples_buffer]
          dsimp only
          generalize ((p.buffer ring).records.takeWhile (·.copied)).length = k at hring
          have hsplit : samplesOf (ring :: rings).flatten =
              samplesOf (ring.take k) ++ (samplesOf (ring.drop k) ++ samplesOf rings.flatten) := by
            rw [← List.append_assoc, ← samplesOf_append, hring, List.flatten_cons, samplesOf_append]
          have hrevents : (p.buffer ring).revents = p.revents := rfl
          have hrest := ih rings
          rw [hrevents]
          by_cases hpolled : p.revents
          · rw [if_pos hpolled, if_pos hpolled, hsplit, List.flatten_cons, samplesOf_append]
            by_cases hall : (p.buffer ring).records.all (·.copied)
            · rw [if_pos hall, if_pos hall, List.append_assoc]
              refine List.Perm.append_left _ ?_
              exact (List.perm_append_comm_assoc _ _ _).trans (hrest.append_left _)
            · rw [if_neg hall, if_neg hall, List.append_nil]
          · rw [if_neg hpolled, if_neg hpolled, List.flatten_cons, List.flatten_cons,
              samplesOf_append, samplesOf_append]
            exact (List.perm_append_comm_assoc _ _ _).trans (hrest.append_left _)

/-! ## The tasks of an iteration -/

/-- The tasks behind the detection. -/
def PollTask.Late : PollTask → Prop
  | .scan _ => True
  | .release _ _ => True
  | .closeScan _ => True
  | .drain _ => True
  | _ => False

/-- The task reports a row of the tables `c`. -/
def PollTask.ReportsOn (pol : PolicyTable) (c : Counting) (t : PollTask) : Prop :=
  ∃ w p i j, t = .report w p i (c.psi i) j ∧ pol.policies[i]? = some p ∧ j < (c.psi i).numIp

/-- Where in an iteration the machine is, with the queue `q`, the queue `window` that was analysed
last, and the part of `q` that is not analysed yet. -/
inductive Phase (pol : PolicyTable) (window q : List PktMeta) : List PollTask → List PktMeta → Prop
  | late {ts : List PollTask} (hlate : ∀ t ∈ ts, t.Late) : Phase pol window q ts q
  | start {tick : Tick} {ts : List PollTask} (hlate : ∀ t ∈ ts, t.Late) :
      Phase pol window q (.detect tick :: ts) q
  | reporting {c : Counting} {stack : ℕ → PolicyStatsIp} {now : UInt64} {rs ts : List PollTask}
      (hcount : countQueue pol (Counting.init stack) window = .ok c)
      (hreports : ∀ t ∈ rs, t.ReportsOn pol c) (hlate : ∀ t ∈ ts, t.Late) :
      Phase pol window q (rs ++ .closeWindow now :: ts) []

/-- The output neither analyses the queue nor blocks an address. -/
def Output.Passive : Output → Prop
  | .event (.detect _) => False
  | .event (.block _ _ _) => False
  | _ => True

theorem reportsOn_reports {w : Window} {c : Counting} :
    ∀ t ∈ reports pol w c, t.ReportsOn pol c := by
  intro t ht
  obtain ⟨⟨p, i⟩, hp, hrow⟩ := List.mem_flatMap.mp ht
  obtain ⟨j, hj, htask⟩ := List.mem_flatMap.mp hrow
  exact ⟨w, p, i, j, List.mem_singleton.mp htask, List.mk_mem_zipIdx_iff_getElem?.mp hp,
    List.mem_range.mp hj⟩

section Tasks

variable {p p' : Poller} {task : PollTask} {out : List Output} {new : List PollTask}

/-- What a task behind the detection takes from the rings. -/
def PollTask.taken : PollTask → List PktMeta
  | .drain buffers => delivered buffers
  | _ => []

theorem exec_late (hlate : task.Late) (hroom : p.queue.length ≤ queueSlots)
    (h : exec pol task p = .ok (p', out, new)) :
    p'.queue = p.queue ++ task.taken ∧ p'.queue.length ≤ queueSlots ∧ (∀ o ∈ out, o.Passive) ∧
      (∀ t ∈ new, t.Late) := by
  have hnone : p.queue = p.queue ++ [] := (List.append_nil _).symm
  cases task with
  | scan tick =>
      simp only [exec] at h
      split at h
      · obtain ⟨rfl, rfl, rfl⟩ : p = p' ∧ [] = out ∧ _ = new := by simpa using h
        refine ⟨hnone, hroom, fun _ ho ↦ absurd ho List.not_mem_nil, ?_⟩
        intro t ht
        rcases List.mem_append.mp ht with ht | ht
        · obtain ⟨g, -, hrelease⟩ := List.mem_flatMap.mp ht
          exact List.mem_singleton.mp hrelease ▸ trivial
        · exact List.mem_singleton.mp ht ▸ trivial
      · obtain ⟨rfl, rfl, rfl⟩ : p = p' ∧ [] = out ∧ [] = new := by simpa using h
        exact ⟨hnone, hroom, fun _ ho ↦ absurd ho List.not_mem_nil,
          fun _ ht ↦ absurd ht List.not_mem_nil⟩
  | release tick g =>
      obtain ⟨rfl, rfl, rfl⟩ : (releaseSlot tick (p, []) g).1 = p' ∧
          observe (tick.reply g) (releaseSlot tick (p, []) g).2 = out ∧ [] = new := by
        simpa [exec] using h
      rcases releaseSlot_cases tick (p, []) g with ⟨-, hkept⟩ | ⟨-, -, hreleased⟩
      · rw [hkept]
        exact ⟨hnone, hroom, fun _ ho ↦ absurd ho List.not_mem_nil,
          fun _ ht ↦ absurd ht List.not_mem_nil⟩
      · rw [hreleased]
        refine ⟨hnone, hroom, ?_, fun _ ht ↦ absurd ht List.not_mem_nil⟩
        simp [observe, released, callOf, Output.Passive]
  | closeScan now =>
      obtain ⟨rfl, rfl, rfl⟩ : _ = p' ∧ [] = out ∧ [] = new := by simpa [exec] using h
      exact ⟨hnone, hroom, fun _ ho ↦ absurd ho List.not_mem_nil,
        fun _ ht ↦ absurd ht List.not_mem_nil⟩
  | drain buffers =>
      obtain ⟨r, hr, hok⟩ := bind_eq_ok_iff.mp h
      obtain ⟨rfl, rfl, rfl⟩ : r.1 = p' ∧ r.2.map .event = out ∧ [] = new := by simpa using hok
      rw [drainBuffers_eq buffers hroom] at hr
      split at hr
      · rename_i hfits
        obtain rfl := Except.ok.inj hr
        refine ⟨rfl, by simpa using hfits, ?_, fun _ ht ↦ absurd ht List.not_mem_nil⟩
        intro o ho
        obtain ⟨e, he, rfl⟩ := List.mem_map.mp ho
        obtain ⟨mi, -, rfl⟩ := List.mem_map.mp he
        trivial
      · cases hr
  | detect tick => exact hlate.elim
  | report w q i t j => exact hlate.elim
  | closeWindow now => exact hlate.elim

theorem exec_detect {tick : Tick} (h : exec pol (.detect tick) p = .ok (p', out, new)) :
    p' = p ∧ ((out = [] ∧ new = []) ∨
      ∃ c, countQueue pol (Counting.init tick.window.stack) p.queue = .ok c ∧
        out = [.event (.detect p.queue)] ∧
          new = reports pol tick.window c ++ [.closeWindow tick.now]) := by
  simp only [exec] at h
  split at h
  · obtain ⟨c, hc, hok⟩ := bind_eq_ok_iff.mp h
    obtain ⟨rfl, rfl, rfl⟩ : p = p' ∧ [Output.event (.detect p.queue)] = out ∧ _ = new := by
      simpa using hok
    exact ⟨rfl, Or.inr ⟨c, hc, rfl, rfl⟩⟩
  · obtain ⟨rfl, rfl, rfl⟩ : p = p' ∧ [] = out ∧ [] = new := by simpa using h
    exact ⟨rfl, Or.inl ⟨rfl, rfl⟩⟩

theorem exec_report {c : Counting} (hreports : task.ReportsOn pol c)
    (hrows : ∀ i, (c.psi i).numIp ≤ psiRows) (h : exec pol task p = .ok (p', out, new)) :
    p'.queue = p.queue ∧ new = [] ∧ (out = [] ∨
      ∃ i q sent call addr time done, pol.policies[i]? = some q ∧ Violates c q i addr ∧
        out = [.event (.detected q addr sent), .call call, .event (.block addr time done)]) := by
  obtain ⟨w, q, i, j, rfl, hq, hj⟩ := hreports
  obtain ⟨r, hr, hok⟩ := bind_eq_ok_iff.mp h
  obtain ⟨rfl, rfl, rfl⟩ : r.1 = p' ∧ observe (w.reply i j) r.2 = out ∧ [] = new := by
    simpa using hok
  rw [reportRow_eq w q i (c.psi i) (p, []) (hj.trans_le (hrows i))] at hr
  obtain rfl := Except.ok.inj hr
  split
  · rename_i hover
    exact ⟨rfl, rfl, Or.inr ⟨i, q, _, _, _, _, _, hq, ⟨j, hj, hover, rfl⟩, rfl⟩⟩
  · exact ⟨rfl, rfl, Or.inl rfl⟩

end Tasks

/-! ## What the log tells of the samples -/

/-- The samples that frames have put into a ring, those that have been analysed, and those that were
analysed last. -/
structure Flow where
  reported : List PktMeta
  analysed : List PktMeta
  window : List PktMeta

namespace Flow

def next (f : Flow) : GatewayEvent → Flow
  | .frame _ _ report => { f with reported := f.reported ++ report.toList }
  | .output (.event (.detect q)) => { f with analysed := f.analysed ++ q, window := q }
  | _ => f

/-- What is analysed was reported and has not been analysed before, and a block follows from what
was analysed last. -/
def Founded (pol : PolicyTable) (f : Flow) : GatewayEvent → Prop
  | .output (.event (.detect q)) => (f.analysed ++ q).Subperm f.reported
  | .output (.event (.block a _ _)) =>
      f.window.Subperm f.reported ∧ f.window.length ≤ queueSlots ∧
        ∃ stack c i p, countQueue pol (Counting.init stack) f.window = .ok c ∧
          pol.policies[i]? = some p ∧ Violates c p i a
  | _ => True

structure Tracks (pol : PolicyTable) (f : Flow) (s : Gateway n) : Prop where
  room : s.machine.state.queue.length ≤ queueSlots
  short : f.window.length ≤ queueSlots
  window : f.window.Subperm f.reported
  phase : ∃ fresh, Phase pol f.window s.machine.state.queue s.machine.todo fresh ∧
    (f.analysed ++ (fresh ++ samplesOf s.rings.flatten)).Subperm f.reported

theorem tracks_init (pol : PolicyTable) (n : ℕ) (white black : BlackListMap) :
    Tracks pol ⟨[], [], []⟩ (Gateway.init n white black) := by
  refine ⟨Nat.zero_le _, Nat.zero_le _, List.Subperm.refl _, [], .late ?_, ?_⟩
  · exact fun _ h ↦ absurd h List.not_mem_nil
  · have hempty : (Gateway.init n white black).rings.flatten = [] := List.flatten_replicate_nil
    rw [hempty]
    exact List.Subperm.refl _

variable {f : Flow}

theorem foldl_passive (pol : PolicyTable) (f : Flow) {out : List Output}
    (h : ∀ o ∈ out, o.Passive) :
    EachEvent next (Founded pol) f (out.map .output) ∧
      (out.map GatewayEvent.output).foldl next f = f := by
  induction out with
  | nil => exact ⟨trivial, rfl⟩
  | cons o out ih =>
      obtain ⟨hhead, hrest⟩ := List.forall_mem_cons.mp h
      have hsame : f.next (.output o) = f := by
        cases o with
        | event e => cases e <;> first | rfl | exact hhead.elim
        | call c => rfl
        | stored addr ok => rfl
      have hfounded : Founded pol f (.output o) := by
        cases o with
        | event e => cases e <;> trivial
        | call c => trivial
        | stored addr ok => trivial
      rw [List.map_cons, List.foldl_cons, EachEvent, hsame]
      exact ⟨⟨hfounded, (ih hrest).1⟩, (ih hrest).2⟩

/-- The samples in the rings after a record is put into one of them. -/
theorem Tracks.push (h : f.Tracks pol s) (k : ℕ) (records : List PerfRecord)
    (kernel : Kernel n) :
    Tracks pol { f with reported := f.reported ++ samplesOf records }
      { s with kernel := kernel, rings := s.rings.modify k (· ++ records) } := by
  obtain ⟨fresh, hphase, hflow⟩ := h.phase
  refine ⟨h.room, h.short, h.window.trans (List.sublist_append_left _ _).subperm, fresh, hphase, ?_⟩
  have hrings := samplesOf_modify s.rings k records
  have hall : (f.analysed ++ (fresh ++ samplesOf (s.rings.modify k (· ++ records)).flatten)).Subperm
      (f.analysed ++ (fresh ++ (samplesOf s.rings.flatten ++ samplesOf records))) :=
    (List.subperm_append_left _).mpr ((List.subperm_append_left _).mpr hrings)
  refine hall.trans ?_
  rw [← List.append_assoc fresh, ← List.append_assoc f.analysed]
  exact (List.subperm_append_right _).mpr hflow

/-- Before a task behind the detection is executed, the rings are read if that is the task. -/
theorem pollTasks_late {t : PollTask} (hlate : t.Late) (polls : List RingPoll)
    (rings : List (List PerfRecord)) (ts : List PollTask) :
    ∃ t' rings', pollTasks polls rings (t :: ts) = (t' :: ts, rings') ∧ t'.Late ∧
      (t'.taken ++ samplesOf rings'.flatten).Perm (samplesOf rings.flatten) := by
  cases t with
  | drain bs => exact ⟨_, _, rfl, trivial, samplesOf_unreadRings polls rings⟩
  | scan tick => exact ⟨_, _, rfl, trivial, .refl _⟩
  | release tick g => exact ⟨_, _, rfl, trivial, .refl _⟩
  | closeScan now => exact ⟨_, _, rfl, trivial, .refl _⟩
  | detect tick => exact hlate.elim
  | report w p i t j => exact hlate.elim
  | closeWindow now => exact hlate.elim

section Advance

variable {polls : List RingPoll} {tick : Tick} {m : Machine} {out : List Output} {t : PollTask}
  {ts : List PollTask}

theorem advance_late (h : f.Tracks pol s) (hlate : ∀ u ∈ t :: ts, u.Late)
    (hflow : (f.analysed ++
      (s.machine.state.queue ++ samplesOf s.rings.flatten)).Subperm f.reported)
    (hstep : machineStep pol ⟨s.machine.state, (pollTasks polls s.rings (t :: ts)).1⟩
      (.advance tick) = .ok (m, out)) :
    EachEvent next (Founded pol) f (out.map .output) ∧
      Tracks pol ((out.map GatewayEvent.output).foldl next f)
        { s with rings := (pollTasks polls s.rings (t :: ts)).2, machine := m } := by
  obtain ⟨hhead, htail⟩ := List.forall_mem_cons.mp hlate
  obtain ⟨t', rings', hpoll, hlate', hperm⟩ := pollTasks_late hhead polls s.rings ts
  rw [hpoll] at hstep ⊢
  obtain ⟨p', out', new, hexec, heq⟩ := next_eq_ok_iff.mp hstep
  obtain ⟨rfl, rfl⟩ := Prod.mk.inj heq
  obtain ⟨hqueue, hroom, hpassive, hnew⟩ := exec_late hlate' h.room hexec
  obtain ⟨hfounded, hsame⟩ := foldl_passive pol f hpassive
  rw [hsame]
  refine ⟨hfounded, hroom, h.short, h.window, p'.queue, .late ?_, ?_⟩
  · intro u hu
    exact (List.mem_append.mp hu).elim (hnew u) (htail u)
  · rw [hqueue, List.append_assoc]
    exact ((hperm.append_left _).append_left _).subperm.trans hflow

theorem advance_start (h : f.Tracks pol s) {tick' : Tick} (hlate : ∀ u ∈ ts, u.Late)
    (hflow : (f.analysed ++
      (s.machine.state.queue ++ samplesOf s.rings.flatten)).Subperm f.reported)
    (hstep : machineStep pol ⟨s.machine.state, .detect tick' :: ts⟩ (.advance tick) =
      .ok (m, out)) :
    EachEvent next (Founded pol) f (out.map .output) ∧
      Tracks pol ((out.map GatewayEvent.output).foldl next f) { s with machine := m } := by
  obtain ⟨p', out', new, hexec, heq⟩ := next_eq_ok_iff.mp hstep
  obtain ⟨rfl, rfl⟩ := Prod.mk.inj heq
  obtain ⟨rfl, ⟨rfl, rfl⟩ | ⟨c, hcount, rfl, rfl⟩⟩ := exec_detect hexec
  · exact ⟨trivial, h.room, h.short, h.window, _, .late hlate, hflow⟩
  · have hqueue : (f.analysed ++ s.machine.state.queue).Subperm f.reported := by
      refine List.Subperm.trans ?_ hflow
      rw [← List.append_assoc]
      exact (List.sublist_append_left _ _).subperm
    refine ⟨⟨hqueue, trivial⟩, h.room, h.room, ?_, [], ?_, ?_⟩
    · exact (List.sublist_append_right _ _).subperm.trans hqueue
    · rw [List.append_assoc]
      exact .reporting hcount reportsOn_reports hlate
    · change (f.analysed ++ s.machine.state.queue ++ ([] ++ samplesOf s.rings.flatten)).Subperm _
      rwa [List.nil_append, List.append_assoc]

theorem advance_report (h : f.Tracks pol s) {c : Counting} {stack : ℕ → PolicyStatsIp}
    {now : UInt64} (hcount : countQueue pol (Counting.init stack) f.window = .ok c)
    (hreports : ∀ u ∈ t :: ts, u.ReportsOn pol c) {late : List PollTask}
    (hlate : ∀ u ∈ late, u.Late)
    (hflow : (f.analysed ++ ([] ++ samplesOf s.rings.flatten)).Subperm f.reported)
    (hstep : machineStep pol ⟨s.machine.state, t :: (ts ++ .closeWindow now :: late)⟩
      (.advance tick) = .ok (m, out)) :
    EachEvent next (Founded pol) f (out.map .output) ∧
      Tracks pol ((out.map GatewayEvent.output).foldl next f) { s with machine := m } := by
  obtain ⟨hhead, htail⟩ := List.forall_mem_cons.mp hreports
  obtain ⟨p', out', new, hexec, heq⟩ := next_eq_ok_iff.mp hstep
  obtain ⟨rfl, rfl⟩ := Prod.mk.inj heq
  obtain ⟨W, -, hcov⟩ := countQueue_covered hcount
  obtain ⟨hqueue, rfl, hout⟩ := exec_report hhead hcov.numIp_le hexec
  have hsame : Tracks pol f { s with machine := ⟨p', [] ++ (ts ++ .closeWindow now :: late)⟩ } :=
    ⟨hqueue ▸ h.room, h.short, h.window, [], .reporting hcount htail hlate, hflow⟩
  rcases hout with rfl | ⟨i, q, sent, call, addr, time, done, hq, hviol, rfl⟩
  · exact ⟨trivial, hsame⟩
  · refine ⟨⟨trivial, trivial, ⟨h.window, h.short, stack, c, i, q, hcount, hq, hviol⟩, trivial⟩, ?_⟩
    exact hsame

theorem Tracks.advance (h : f.Tracks pol s)
    (hstep : machineStep pol ⟨s.machine.state, (pollTasks polls s.rings s.machine.todo).1⟩
      (.advance tick) = .ok (m, out)) :
    EachEvent next (Founded pol) f (out.map .output) ∧
      Tracks pol ((out.map GatewayEvent.output).foldl next f)
        { s with rings := (pollTasks polls s.rings s.machine.todo).2, machine := m } := by
  obtain ⟨fresh, hphase, hflow⟩ := h.phase
  generalize htodo : s.machine.todo = todo at hphase hstep
  cases hphase with
  | late hlate =>
      cases todo with
      | nil =>
          obtain ⟨rfl, rfl⟩ := Prod.mk.inj (Except.ok.inj hstep)
          refine ⟨⟨trivial, trivial⟩, ?_, h.short, h.window, s.machine.state.queue, ?_, hflow⟩
          · rw [syncClock_queue]
            exact h.room
          · rw [syncClock_queue]
            refine .start ?_
            simp [PollTask.Late]
      | cons t ts => exact advance_late h hlate hflow hstep
  | start hlate => exact advance_start h hlate hflow hstep
  | reporting hcount hreports hlate =>
      rename_i c stack now rs ts
      cases rs with
      | nil =>
          obtain ⟨rfl, rfl⟩ := Prod.mk.inj (Except.ok.inj hstep)
          exact ⟨trivial, Nat.zero_le _, h.short, h.window, [], .late hlate, hflow⟩
      | cons t rs =>
          have hpoll : pollTasks polls s.rings (t :: rs ++ .closeWindow now :: ts) =
              (t :: (rs ++ .closeWindow now :: ts), s.rings) := by
            obtain ⟨w, p, i, j, rfl, -, -⟩ := hreports t List.mem_cons_self
            rfl
          rw [hpoll] at hstep ⊢
          exact advance_report h hcount hreports hlate hflow hstep

end Advance

theorem Tracks.step (h : f.Tracks pol s) {move : GatewayMove n}
    (hstep : gatewayStep pol s move = .ok (s', es)) :
    EachEvent next (Founded pol) f es ∧ Tracks pol (es.foldl next f) s' := by
  cases move with
  | frame cpu frame room =>
      rw [gatewayStep_frame] at hstep
      obtain ⟨rfl, rfl⟩ := Prod.mk.inj (Except.ok.inj hstep)
      generalize (if room then (s.arrival cpu frame).report else none) = report
      have hpush := h.push cpu (report.toList.map fun m ↦ ⟨perfRecordSample, m, true⟩)
        (s.kernel.after (s.arrival cpu frame))
      have hsamples : samplesOf (report.toList.map fun m ↦ ⟨perfRecordSample, m, true⟩) =
          report.toList := by cases report <;> rfl
      rw [hsamples] at hpush
      exact ⟨⟨trivial, trivial⟩, hpush⟩
  | lost cpu =>
      obtain ⟨rfl, rfl⟩ := Prod.mk.inj (Except.ok.inj hstep)
      have hpush := h.push cpu [⟨perfRecordLost, .zero, true⟩] s.kernel
      have hnone : samplesOf [⟨perfRecordLost, .zero, true⟩] = [] := rfl
      rw [hnone, List.append_nil] at hpush
      exact ⟨trivial, hpush⟩
  | advance tick polls =>
      dsimp only [gatewayStep] at hstep
      split at hstep
      · cases hstep
      · rename_i m out hmachine
        obtain ⟨rfl, rfl⟩ := Prod.mk.inj (Except.ok.inj hstep)
        exact h.advance hmachine
  | storeWhite addr fd reply =>
      obtain ⟨rfl, rfl⟩ := Prod.mk.inj (Except.ok.inj hstep)
      exact ⟨⟨trivial, trivial⟩, h.room, h.short, h.window, h.phase⟩
  | storeBlack addr fd reply =>
      obtain ⟨rfl, rfl⟩ := Prod.mk.inj (Except.ok.inj hstep)
      exact ⟨⟨trivial, trivial⟩, h.room, h.short, h.window, h.phase⟩

end Flow

theorem gateway_founded (pol : PolicyTable) (white black : BlackListMap)
    (moves : List (GatewayMove n))
    (hrun : run (gatewayStep pol) (Gateway.init n white black) moves = .ok (t, log)) :
    EachEvent Flow.next (Flow.Founded pol) ⟨[], [], []⟩ log ∧
      (log.foldl Flow.next ⟨[], [], []⟩).Tracks pol t :=
  run_simulates (fun s f ↦ Flow.Tracks pol f s) (fun _ _ _ _ _ h hstep ↦ h.step hstep)
    (Flow.tracks_init pol n white black) hrun

/-! ## The packets behind a block -/

namespace GatewayEvent

def reports : GatewayEvent → List PktMeta
  | .frame _ _ report => report.toList
  | _ => []

def analysed : GatewayEvent → List PktMeta
  | .output (.event (.detect q)) => q
  | _ => []

/-- A packet from `a` to `d` has passed and was put into a ring. -/
def LetThrough (a d : UInt32) : GatewayEvent → Bool
  | .frame f action report =>
      action = xdpPass ∧ report.isSome ∧ EthIpv4 f ∧ Ipv4Valid f ∧ sourceAddr f = a ∧ destAddr f = d
  | _ => false

end GatewayEvent

namespace Flow

variable {f : Flow}

theorem next_reported (f : Flow) (e : GatewayEvent) :
    (f.next e).reported = f.reported ++ e.reports := by
  have hnone : f.reported = f.reported ++ [] := (List.append_nil _).symm
  cases e with
  | frame f' action report => rfl
  | listed addr ok => exact hnone
  | output o =>
      cases o with
      | event e => cases e <;> exact hnone
      | call c => exact hnone
      | stored addr ok => exact hnone

theorem next_analysed (f : Flow) (e : GatewayEvent) :
    ((f.next e).analysed = f.analysed ++ e.analysed ∧ (f.next e).window = f.window) ∨
      ∃ q, e = .output (.event (.detect q)) ∧ f.next e = ⟨f.reported, f.analysed ++ q, q⟩ := by
  have hnone : f.analysed = f.analysed ++ [] := (List.append_nil _).symm
  cases e with
  | frame f' action report => exact Or.inl ⟨hnone, rfl⟩
  | listed addr ok => exact Or.inl ⟨hnone, rfl⟩
  | output o =>
      cases o with
      | event e =>
          cases e with
          | detect q => exact Or.inr ⟨q, rfl, rfl⟩
          | _ => exact Or.inl ⟨hnone, rfl⟩
      | call c => exact Or.inl ⟨hnone, rfl⟩
      | stored addr ok => exact Or.inl ⟨hnone, rfl⟩

theorem reported_foldl (f : Flow) (es : List GatewayEvent) :
    (es.foldl next f).reported = f.reported ++ es.flatMap GatewayEvent.reports := by
  induction es generalizing f with
  | nil => exact (List.append_nil _).symm
  | cons e es ih => rw [List.foldl_cons, ih, next_reported, List.flatMap_cons, List.append_assoc]

theorem analysed_foldl (f : Flow) (es : List GatewayEvent) :
    (es.foldl next f).analysed = f.analysed ++ es.flatMap GatewayEvent.analysed := by
  induction es generalizing f with
  | nil => exact (List.append_nil _).symm
  | cons e es ih =>
      rw [List.foldl_cons, ih, List.flatMap_cons, ← List.append_assoc]
      rcases f.next_analysed e with ⟨hone, -⟩ | ⟨q, rfl, hone⟩
      · rw [hone]
      · rw [hone]
        rfl

/-- The last window is one that the log tells of. -/
theorem window_foldl (f : Flow) (es : List GatewayEvent) :
    (es.foldl next f).window = f.window ∨
      .output (.event (.detect (es.foldl next f).window)) ∈ es := by
  induction es generalizing f with
  | nil => exact Or.inl rfl
  | cons e es ih =>
      rw [List.foldl_cons]
      rcases ih (f.next e) with hlast | hmem
      · rcases f.next_analysed e with ⟨-, hsame⟩ | ⟨q, rfl, hone⟩
        · exact Or.inl (hlast.trans hsame)
        · rw [hlast, hone]
          exact Or.inr List.mem_cons_self
      · exact Or.inr (List.mem_cons_of_mem e hmem)

end Flow

/-- The report of a frame that names an address other than `0.0.0.0` is the report of a packet. -/
theorem letThrough_of_reportOf {f : List UInt8} {white black : Finset UInt32} {m : PktMeta}
    (h : ReportOf f white black m) (hd : m.dst ≠ 0) :
    GatewayEvent.LetThrough m.src m.dst (.frame f xdpPass (some m)) := by
  rcases h with ⟨-, rfl⟩ | ⟨heth, hvalid, -, -, ⟨-, hsrc, hdst⟩ | ⟨-, rfl⟩⟩
  · exact absurd rfl hd
  · simp [GatewayEvent.LetThrough, heth, hvalid, hsrc, hdst]
  · exact absurd rfl hd

theorem countP_reports_le {l : Lists} {a d : UInt32} (hd : d ≠ 0)
    (h : EachEvent Lists.next Lists.Prescribes l es) :
    (es.flatMap GatewayEvent.reports).countP (fun m ↦ m.src = a ∧ m.dst = d) ≤
      es.countP (GatewayEvent.LetThrough a d) := by
  induction es generalizing l with
  | nil => exact Nat.le_refl 0
  | cons e es ih =>
      have hrest := ih h.2
      rw [List.flatMap_cons, List.countP_append, List.countP_cons, Nat.add_comm]
      refine Nat.add_le_add hrest ?_
      cases e with
      | listed addr ok => exact Nat.zero_le _
      | output o => exact Nat.zero_le _
      | frame f action report =>
          cases report with
          | none => exact Nat.zero_le _
          | some m =>
              obtain ⟨rfl, hreport⟩ := h.1.2 m rfl
              by_cases hm : m.src = a ∧ m.dst = d
              · obtain ⟨rfl, rfl⟩ := hm
                rw [if_pos (letThrough_of_reportOf hreport hd)]
                exact List.countP_le_length
              · simp [GatewayEvent.reports, hm]

/-- Every sample that is analysed was reported for a frame of its own. And if every detection meets
the packets of one policy at most, then every block of an address was made for a policy of which
more packets from this address were let through than its threshold. -/
theorem blocks_justified (pol : PolicyTable) (white black : BlackListMap)
    (moves : List (GatewayMove n))
    (hpol : ∀ p ∈ pol.policies, p.ip ≠ 0)
    (hrun : run (gatewayStep pol) (Gateway.init n white black) moves = .ok (t, log)) :
    (log.flatMap GatewayEvent.analysed).Subperm (log.flatMap GatewayEvent.reports) ∧
      ((∀ q, .output (.event (.detect q)) ∈ log → OnePolicy pol q) →
        ∀ pre post a time added, log = pre ++ .output (.event (.block a time added)) :: post →
          ∃ p ∈ pol.policies,
            p.threshold.toInt < (pre.countP (GatewayEvent.LetThrough a p.ip) : ℤ)) := by
  obtain ⟨hfounded, htracks⟩ := gateway_founded pol white black moves hrun
  constructor
  · obtain ⟨fresh, -, hflow⟩ := htracks.phase
    rw [Flow.analysed_foldl, Flow.reported_foldl] at hflow
    exact (List.sublist_append_left _ _).subperm.trans hflow
  · rintro hone pre post a time added rfl
    obtain ⟨hall, -⟩ := gateway_verdicts pol white black moves hrun
    obtain ⟨hwindow, hshort, stack, c, i, p, hcount, hp, hviol⟩ :=
      (eachEvent_append.mp hfounded).2.1
    have honePolicy : OnePolicy pol (pre.foldl Flow.next ⟨[], [], []⟩).window := by
      rcases Flow.window_foldl ⟨[], [], []⟩ pre with hnone | hmem
      · rw [hnone]
        exact fun hit hmem ↦ absurd hmem List.not_mem_nil
      · exact hone _ (List.mem_append_left _ hmem)
    have hmem : p ∈ pol.policies := List.mem_of_getElem? hp
    obtain ⟨j, hsolo⟩ := exists_solo hshort (fun i j a b hi hj ↦ honePolicy _ hi _ hj) hcount
    refine ⟨p, hmem, ?_⟩
    by_cases hnonneg : 0 ≤ p.threshold.toInt
    swap
    · -- any number of packets is more than a negative threshold
      exact lt_of_lt_of_le (not_le.mp hnonneg) (Int.natCast_nonneg _)
    have hover := (hsolo.violates_iff hp hnonneg a).mp hviol
    refine lt_of_lt_of_le hover (Int.ofNat_le.mpr ?_)
    rw [Flow.reported_foldl] at hwindow
    calc sentTo (pre.foldl Flow.next ⟨[], [], []⟩).window a p.ip
        ≤ (pre.flatMap GatewayEvent.reports).countP (fun m ↦ m.src = a ∧ m.dst = p.ip) :=
          hwindow.countP_le _
      _ ≤ pre.countP (GatewayEvent.LetThrough a p.ip) :=
          countP_reports_le (hpol p hmem) (eachEvent_append.mp hall).1

/-- A packet to the address of a policy, and the two iterations in which its sample is queued and
counted. -/
def packetMoves : List (GatewayMove 1) :=
  .frame (Fin.last 0) tcpFrame true ::
    List.replicate 4 (.advance (plainTick 100 []) [⟨true, 1, fun _ ↦ true⟩]) ++
    List.replicate 3 (.advance (plainTick 101 []) [])

def packetEvents : List GatewayEvent :=
  [.frame tcpFrame xdpPass (some (tcpMeta tcpFrame)), .output (.event (.reading 100)),
    .output (.event (.store 0 (tcpMeta tcpFrame))), .output (.event (.reading 101)),
    .output (.event (.detect [tcpMeta tcpFrame])),
    .output (.event (.detected strictPolicy (sourceAddr tcpFrame) 1)),
    .output (.call ⟨sourceAddr tcpFrame, block, .granted⟩)]

set_option maxRecDepth 4000 in
theorem packet_block_justified :
    ∃ t log, log = packetEvents ++ [.output (.event (.block (sourceAddr tcpFrame) 101 true))] ∧
      run (gatewayStep strictTable) (Gateway.init 1 emptyMap emptyMap) packetMoves = .ok (t, log) ∧
      (log.flatMap GatewayEvent.analysed).Subperm (log.flatMap GatewayEvent.reports) ∧
      ∃ p ∈ strictTable.policies, p.threshold.toInt <
        (packetEvents.countP (GatewayEvent.LetThrough (sourceAddr tcpFrame) p.ip) : ℤ) := by
  obtain ⟨t, hrun⟩ : ∃ t,
      run (gatewayStep strictTable) (Gateway.init 1 emptyMap emptyMap) packetMoves =
        .ok (t, packetEvents ++ [.output (.event (.block (sourceAddr tcpFrame) 101 true))]) :=
    ⟨_, rfl⟩
  have hjustified := blocks_justified strictTable emptyMap emptyMap packetMoves (by decide) hrun
  refine ⟨t, _, rfl, hrun, hjustified.1, hjustified.2 ?_ packetEvents [] _ _ _ rfl⟩
  intro q hq
  obtain rfl : q = [tcpMeta tcpFrame] := by simpa [packetEvents] using hq
  decide

end AntiDos
