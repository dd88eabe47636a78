import AntiDos.Lib.Tasks
import AntiDos.Poller.Iteration

/-!
# The policy engine and the operator

`update_list` runs beside `start_policy` and stores addresses in the same map, at any moment. Here
an iteration of the poll loop is cut into tasks between which the operator may act; each task makes
at most one change of the black list. Left alone, the tasks do what the iteration does. -/

namespace AntiDos

open Faulting Tasks Transducer

/-! ## Calls and outputs -/

/-- One call of `policy_change_black_list`, with the answers of the kernel. -/
structure Call where
  ip : UInt32
  action : Int
  reply : MapReply

def Call.perform (m : BlackListMap) (c : Call) : BlackListMap :=
  (policyChangeBlackList c.ip c.action c.reply m).map

/-- `stored` says that `update_list` made the map operation for an address. -/
inductive Output where
  | event (e : Event)
  | call (c : Call)
  | stored (addr : UInt32) (ok : Bool)

/-- The call that an event reports. -/
def callOf (reply : MapReply) : Event → Option Call
  | .block addr _ _ => some ⟨addr, block, reply⟩
  | .unblock _ addr _ _ => some ⟨addr, unblock, reply⟩
  | _ => none

def observe (reply : MapReply) (es : List Event) : List Output :=
  es.flatMap fun e ↦ ((callOf reply e).map .call).toList ++ [.event e]

def Output.event? : Output → Option Event
  | .event e => some e
  | _ => none

def eventsOf (out : List Output) : List Event := out.filterMap Output.event?

/-! ## The tasks of an iteration -/

inductive PollTask where
  | detect (tick : Tick)
  | report (w : Window) (p : Policy) (i : ℕ) (t : PolicyStatsIp) (j : ℕ)
  | closeWindow (now : UInt64)
  | scan (tick : Tick)
  | release (tick : Tick) (g : Fin ipDynamic)
  | closeScan (now : UInt64)
  | drain (buffers : List PerfBuffer)

def reports (pol : PolicyTable) (w : Window) (c : Counting) : List PollTask :=
  pol.policies.zipIdx.flatMap fun pi ↦
    (List.range (c.psi pi.2).numIp).flatMap fun j ↦ [.report w pi.1 pi.2 (c.psi pi.2) j]

def exec (pol : PolicyTable) :
    PollTask → Poller → Except Fault (Poller × List Output × List PollTask)
  | .detect tick, s =>
      if tick.now - s.timeStart = interval then do
        let c ← countQueue pol (Counting.init tick.window.stack) s.queue
        .ok (s, [.event (.detect s.queue)], reports pol tick.window c ++ [.closeWindow tick.now])
      else .ok (s, [], [])
  | .report w p i t j, s => do
      let r ← reportRow w p i t (s, []) j
      .ok (r.1, observe (w.reply i j) r.2, [])
  | .closeWindow now, s => .ok ({ s with timeStart := now, queue := [] }, [], [])
  | .scan tick, s =>
      if tick.now - s.prevTime = 1 then
        .ok (s, [],
          (List.finRange ipDynamic).flatMap (fun g ↦ [.release tick g]) ++ [.closeScan tick.now])
      else .ok (s, [], [])
  | .release tick g, s =>
      let r := releaseSlot tick (s, []) g
      .ok (r.1, observe (tick.reply g) r.2, [])
  | .closeScan now, s => .ok ({ s with prevTime := now }, [], [])
  | .drain buffers, s => do
      let r ← drainBuffers buffers s
      .ok (r.1, r.2.map .event, [])

/-! ## The machine -/

abbrev Machine := Running Poller PollTask

def Machine.init (map : BlackListMap) : Machine := ⟨Poller.init map, []⟩

/-- What may happen next: the poll loop goes on, or `update_list` stores an address through a
descriptor of its own. A tick is read where an iteration begins. -/
inductive Action where
  | advance (tick : Tick)
  | store (addr : UInt32) (fd : Int) (reply : MapReply)

/-- `bpf_map_update_elem` of `update_list`. -/
def storeElem (addr : UInt32) (fd : Int) (reply : MapReply) (m : BlackListMap) :
    Int × BlackListMap :=
  let r := bpfMapUpdateElem reply fd addr { m with fds := {fd} }
  (r.1, { m with entries := r.2.entries })

theorem storeElem_entries (addr : UInt32) (fd : Int) (reply : MapReply) (m : BlackListMap) :
    (storeElem addr fd reply m).2.entries =
      if (storeElem addr fd reply m).1 = 0 then insert addr m.entries else m.entries :=
  bpfMapUpdateElem_entries reply fd addr { m with fds := {fd} }

def machineStep (pol : PolicyTable) (s : Machine) :
    Action → Except Fault (Machine × List Output)
  | .advance tick =>
      match s.todo with
      | [] =>
          .ok (⟨syncClock tick.now s.state, [.detect tick, .scan tick, .drain tick.buffers]⟩,
            [.event (.reading tick.now)])
      | t :: ts => next (exec pol) s.state t ts
  | .store addr fd reply =>
      let r := storeElem addr fd reply s.state.map
      .ok (⟨{ s.state with map := r.2 }, s.todo⟩, [.stored addr (r.1 = 0)])

/-! ## The tasks left alone -/

variable {pol : PolicyTable} {s s' : Poller} {tick : Tick} {es : List Event}

@[simp] theorem eventsOf_append (out out' : List Output) :
    eventsOf (out ++ out') = eventsOf out ++ eventsOf out' := List.filterMap_append

@[simp] theorem eventsOf_observe (reply : MapReply) (es : List Event) :
    eventsOf (observe reply es) = es := by
  induction es with
  | nil => rfl
  | cons e es ih =>
      have hhead : eventsOf (((callOf reply e).map Output.call).toList ++ [.event e]) = [e] := by
        cases e <;> rfl
      rw [observe, List.flatMap_cons, eventsOf_append, hhead]
      exact congrArg (e :: ·) ih

@[simp] theorem eventsOf_map (es : List Event) : eventsOf (es.map .event) = es := by
  rw [eventsOf, List.filterMap_map]
  exact List.filterMap_some

/-- The tasks lead from `s` to the state of `r`, and what is seen of them are the events of `r`. -/
def Emits (pol : PolicyTable) (ts : List PollTask) (s : Poller) (r : Poller × List Event) : Prop :=
  ∃ out, Completes (exec pol) ts s r.1 out ∧ eventsOf out = r.2

theorem Emits.append {ts us : List PollTask} {r r' : Poller × List Event} (h : Emits pol ts s r)
    (h' : Emits pol us r.1 r') : Emits pol (ts ++ us) s (r'.1, r.2 ++ r'.2) := by
  obtain ⟨out, hout, hes⟩ := h
  obtain ⟨out', hout', hes'⟩ := h'
  exact ⟨out ++ out', hout.append hout', by rw [eventsOf_append, hes, hes']⟩

theorem Emits.of_exec {t : PollTask} {new : List PollTask} {out : List Output}
    {r : Poller × List Event}
    (hexec : exec pol t s = .ok (s', out, new)) (h : Emits pol new s' r) :
    Emits pol [t] s (r.1, eventsOf out ++ r.2) := by
  obtain ⟨out', hout', hes'⟩ := h
  exact ⟨out ++ out', .of_exec hexec hout', by rw [eventsOf_append, hes']⟩

theorem Emits.nil (s : Poller) : Emits pol [] s (s, []) := ⟨[], .nil s, rfl⟩

theorem Emits.single {t : PollTask} {out : List Output}
    (hexec : exec pol t s = .ok (s', out, [])) : Emits pol [t] s (s', eventsOf out) := by
  simpa using Emits.of_exec hexec (Emits.nil s')

theorem Emits.loop {α : Type} {task : α → List PollTask}
    {f : Poller × List Event → α → Except Fault (Poller × List Event)} {xs : List α}
    (hf : ∀ s es a r, f (s, es) a = .ok r → ∃ fs, r.2 = es ++ fs ∧ Emits pol (task a) s (r.1, fs))
    {r : Poller × List Event} (h : xs.foldlM f (s, es) = .ok r) :
    ∃ fs, r.2 = es ++ fs ∧ Emits pol (xs.flatMap task) s (r.1, fs) := by
  induction xs generalizing s es with
  | nil =>
      obtain rfl : (s, es) = r := by simpa using h
      exact ⟨[], (List.append_nil es).symm, Emits.nil s⟩
  | cons a xs ih =>
      rw [List.foldlM_cons] at h
      obtain ⟨⟨s₁, es₁⟩, hone, hrest⟩ := bind_eq_ok_iff.mp h
      obtain ⟨fs, rfl, htask⟩ := hf s es a _ hone
      obtain ⟨gs, hgs, htasks⟩ := ih hrest
      exact ⟨fs ++ gs, by rw [hgs, List.append_assoc], htask.append htasks⟩

theorem reportRow_append {w : Window} {p : Policy} {i j : ℕ} {t : PolicyStatsIp}
    {r : Poller × List Event} (h : reportRow w p i t (s, es) j = .ok r) :
    ∃ r', reportRow w p i t (s, []) j = .ok r' ∧ r = (r'.1, es ++ r'.2) := by
  obtain ⟨sent, hsent, hrest⟩ := bind_eq_ok_iff.mp h
  simp only [reportRow, hsent, ok_bind]
  split at hrest
  · rename_i hover
    obtain ⟨addr, haddr, hr⟩ := bind_eq_ok_iff.mp hrest
    rw [if_pos hover, haddr]
    exact ⟨_, rfl, (Except.ok.inj hr).symm⟩
  · rename_i hover
    rw [if_neg hover]
    exact ⟨_, rfl, by simpa using (Except.ok.inj hrest).symm⟩

theorem releaseSlot_append (tick : Tick) (s : Poller) (es : List Event) (g : Fin ipDynamic) :
    releaseSlot tick (s, es) g =
      ((releaseSlot tick (s, []) g).1, es ++ (releaseSlot tick (s, []) g).2) := by
  unfold releaseSlot
  dsimp only
  split
  · split
    · simp
    · simp
  · simp

theorem emits_detect {x : Poller × List Event} (h : detectPhase pol tick s = .ok x) :
    Emits pol [.detect tick] s x := by
  rcases detectPhase_cases h with ⟨hgate, r, hr, rfl⟩ | ⟨hgate, rfl⟩
  · obtain ⟨c, hc, hrep⟩ := bind_eq_ok_iff.mp hr
    have hexec : exec pol (.detect tick) s = .ok (s, [.event (.detect s.queue)],
        reports pol tick.window c ++ [.closeWindow tick.now]) := by
      simp only [exec, if_pos hgate, hc, ok_bind]
    obtain ⟨fs, hfs, hreports⟩ : ∃ fs, r.2 = [] ++ fs ∧
        Emits pol (reports pol tick.window c) s (r.1, fs) := by
      refine Emits.loop (fun s es pi r hrows ↦ ?_) hrep
      refine Emits.loop (fun s es j r hrow ↦ ?_) hrows
      obtain ⟨r', hr', rfl⟩ := reportRow_append hrow
      refine ⟨r'.2, rfl, ?_⟩
      have hone : exec pol (.report tick.window pi.1 pi.2 (c.psi pi.2) j) s =
          .ok (r'.1, observe (tick.window.reply pi.2 j) r'.2, []) := by
        simp only [exec, hr', ok_bind]
      simpa using Emits.single hone
    have hclose : Emits pol [.closeWindow tick.now] r.1
        ({ r.1 with timeStart := tick.now, queue := [] }, []) :=
      ⟨[], .single rfl, rfl⟩
    have hall := Emits.of_exec hexec (hreports.append hclose)
    simpa [eventsOf, Output.event?, hfs] using hall
  · exact ⟨[], .single (if_neg hgate), rfl⟩

theorem emits_slots (tick : Tick) (s : Poller) :
    Emits pol ((List.finRange ipDynamic).flatMap fun g ↦ [.release tick g]) s
      (scanSlots tick s) := by
  have hfold : (List.finRange ipDynamic).foldlM
      (fun acc g ↦ (Except.ok (releaseSlot tick acc g) : Except Fault _)) (s, []) =
        .ok (scanSlots tick s) := List.foldlM_pure
  generalize scanSlots tick s = r at hfold
  obtain ⟨fs, hfs, hslots⟩ : ∃ fs, r.2 = [] ++ fs ∧
      Emits pol ((List.finRange ipDynamic).flatMap fun g ↦ [.release tick g]) s (r.1, fs) := by
    refine Emits.loop (fun s es g r hslot ↦ ?_) hfold
    obtain rfl := Except.ok.inj hslot
    rw [releaseSlot_append]
    refine ⟨(releaseSlot tick (s, []) g).2, rfl, ?_⟩
    have hone : exec pol (.release tick g) s =
        .ok ((releaseSlot tick (s, []) g).1,
          observe (tick.reply g) (releaseSlot tick (s, []) g).2, []) := rfl
    simpa using Emits.single hone
  obtain rfl : r.2 = fs := hfs
  exact hslots

theorem emits_scan (tick : Tick) (s : Poller) : Emits pol [.scan tick] s (scanPhase tick s) := by
  unfold scanPhase
  split
  · rename_i hgate
    have hslots : Emits pol ((List.finRange ipDynamic).flatMap fun g ↦ [.release tick g]) s
        (scanSlots tick s) := emits_slots tick s
    have hexec : exec pol (.scan tick) s = .ok (s, [],
        (List.finRange ipDynamic).flatMap (fun g ↦ [.release tick g]) ++
          [.closeScan tick.now]) := by
      simp only [exec, if_pos hgate]
    generalize (List.finRange ipDynamic).flatMap (fun g ↦ [PollTask.release tick g]) = ts
      at hslots hexec
    generalize scanSlots tick s = r at hslots
    have hclose : Emits pol [.closeScan tick.now] r.1 ({ r.1 with prevTime := tick.now }, []) :=
      ⟨[], .single rfl, rfl⟩
    simpa [eventsOf] using Emits.of_exec hexec (hslots.append hclose)
  · rename_i hgate
    exact ⟨[], .single (if_neg hgate), rfl⟩

/-- Left alone, the tasks of an iteration do what the iteration does. -/
theorem emits_iteration (h : iteration pol s tick = .ok (s', es)) :
    Emits pol [.detect tick, .scan tick, .drain tick.buffers] (syncClock tick.now s)
      (s', es.tail) := by
  obtain ⟨x, hx, hrest⟩ := bind_eq_ok_iff.mp h
  obtain ⟨z, hz, hok⟩ := bind_eq_ok_iff.mp hrest
  obtain ⟨rfl, rfl⟩ := Prod.mk.inj (Except.ok.inj hok)
  have hdrain : Emits pol [.drain tick.buffers] (scanPhase tick x.1).1 z := by
    have hone : exec pol (.drain tick.buffers) (scanPhase tick x.1).1 =
        .ok (z.1, z.2.map .event, []) := by
      simp only [exec, hz, ok_bind]
    simpa using Emits.single hone
  simpa using ((emits_detect hx).append (emits_scan tick x.1)).append hdrain

theorem iteration_steps (h : iteration pol s tick = .ok (s', es)) :
    ∃ m out, run (machineStep pol) ⟨s, []⟩ (List.replicate m (.advance tick)) =
      .ok (⟨s', []⟩, out) ∧ eventsOf out = es := by
  obtain ⟨out, hout, hes⟩ := emits_iteration h
  have hnext : ∀ s t ts, machineStep pol ⟨s, t :: ts⟩ (.advance tick) = next (exec pol) s t ts :=
    fun _ _ _ ↦ rfl
  obtain ⟨m, hm⟩ := hout.run hnext
  refine ⟨m + 1, _, run_cons_eq_ok_iff.mpr ⟨_, _, _, rfl, hm, rfl⟩, ?_⟩
  obtain ⟨x, -, hrest⟩ := bind_eq_ok_iff.mp h
  obtain ⟨z, -, hok⟩ := bind_eq_ok_iff.mp hrest
  obtain ⟨-, rfl⟩ := Prod.mk.inj (Except.ok.inj hok)
  exact congrArg (Event.reading tick.now :: ·) hes

/-- Every run of the poll loop is a run of the machine without the operator. -/
theorem eventPoller_steps {ticks : List Tick} {t : Poller} {log : List Event}
    (h : eventPoller pol s ticks = .ok (t, log)) :
    ∃ (ticks' : List Tick) (out : List Output),
      run (machineStep pol) ⟨s, []⟩ (ticks'.map .advance) = .ok (⟨t, []⟩, out) ∧
        eventsOf out = log ∧ ∀ tick ∈ ticks', tick ∈ ticks := by
  induction ticks generalizing s log with
  | nil =>
      obtain ⟨rfl, rfl⟩ : s = t ∧ [] = log := by simpa [eventPoller] using h
      exact ⟨[], [], rfl, rfl, fun _ h ↦ h⟩
  | cons tick ticks ih =>
      obtain ⟨s', es, fs, hone, hrest, rfl⟩ := run_cons_eq_ok_iff.mp h
      obtain ⟨m, out, hrun, rfl⟩ := iteration_steps hone
      obtain ⟨ticks', out', hrun', rfl, hticks⟩ := ih hrest
      refine ⟨List.replicate m tick ++ ticks', out ++ out', ?_, eventsOf_append out out', ?_⟩
      · rw [List.map_append, List.map_replicate]
        exact run_append hrun hrun'
      · intro u hu
        rcases List.mem_append.mp hu with hu | hu
        · exact List.mem_cons.mpr (Or.inl (List.eq_of_mem_replicate hu))
        · exact List.mem_cons_of_mem tick (hticks u hu)

/-! ## What a task can do -/

/-- The event reports no change of the black list. -/
def Event.Quiet : Event → Prop
  | .block _ _ _ => False
  | .unblock _ _ _ _ => False
  | _ => True

/-- What one task changes: nothing of the locks and the map, or it blocks an address and enters it,
or it releases the address of a slot. -/
inductive Effect (s s' : Poller) : List Output → Prop
  | quiet (es : List Event) (hes : ∀ e ∈ es, e.Quiet) (hmap : s'.map = s.map)
      (hslots : s'.countDown = s.countDown) : Effect s s' (es.map .event)
  | blocked (p : Policy) (addr sent : UInt32) (now : UInt64) (r : MapReply)
      (hmap : s'.map = (policyChangeBlackList addr block r s.map).map)
      (hslots : s'.countDown = enterSlot s.countDown addr now.toUInt32) :
      Effect s s' [.event (.detected p addr sent), .call ⟨addr, block, r⟩,
        .event (.block addr now (policyChangeBlackList addr block r s.map).done)]
  | released (g : Fin ipDynamic) (addr : UInt32) (now : UInt64) (r : MapReply)
      (hg : (s.countDown g).addr = addr) (hne : addr ≠ 0)
      (hmap : s'.map = (policyChangeBlackList addr unblock r s.map).map)
      (hslots : s'.countDown = Function.update s.countDown g { s.countDown g with addr := 0 }) :
      Effect s s' [.call ⟨addr, unblock, r⟩,
        .event (.unblock g addr now (policyChangeBlackList addr unblock r s.map).done)]

theorem Effect.idle (s : Poller) : Effect s s [] := .quiet [] (by simp) rfl rfl

structure Stored (s : Poller) (r : Poller × List Event) : Prop where
  map : r.1.map = s.map
  slots : r.1.countDown = s.countDown
  quiet : ∀ e ∈ r.2, e.Quiet

theorem Stored.refl (s : Poller) : Stored s (s, []) := ⟨rfl, rfl, by simp⟩

theorem Stored.trans {r r' : Poller × List Event} (h : Stored s r) (h' : Stored r.1 r') :
    Stored s (r'.1, r.2 ++ r'.2) where
  map := h'.map.trans h.map
  slots := h'.slots.trans h.slots
  quiet e he := (List.mem_append.mp he).elim (h.quiet e) (h'.quiet e)

theorem eventReceived_stored {r : PerfRecord} {x : Int × Poller × List Event}
    (h : eventReceived r s = .ok x) : Stored s x.2 := by
  unfold eventReceived policyStats at h
  split at h
  · split at h
    · obtain rfl := Except.ok.inj h
      exact ⟨rfl, rfl, by simp [Event.Quiet]⟩
    · cases h
  · obtain rfl := Except.ok.inj h
    exact .refl s

theorem bpfPerfEventReadSimple_stored {rs : List PerfRecord} {x : Int × Poller × List Event}
    (h : bpfPerfEventReadSimple rs s = .ok x) : Stored s x.2 := by
  induction rs generalizing s x with
  | nil =>
      obtain rfl := Except.ok.inj h
      exact .refl s
  | cons r rs ih =>
      unfold bpfPerfEventReadSimple at h
      split at h
      · obtain ⟨y, hy, hrest⟩ := bind_eq_ok_iff.mp h
        split at hrest
        · obtain rfl := Except.ok.inj hrest
          exact eventReceived_stored hy
        · obtain ⟨z, hz, hok⟩ := bind_eq_ok_iff.mp hrest
          obtain rfl := Except.ok.inj hok
          exact (eventReceived_stored hy).trans (ih hz)
      · obtain rfl := Except.ok.inj h
        exact .refl s

theorem drainBuffers_stored {bs : List PerfBuffer} {r : Poller × List Event}
    (h : drainBuffers bs s = .ok r) : Stored s r := by
  induction bs generalizing s r with
  | nil =>
      obtain rfl := Except.ok.inj h
      exact .refl s
  | cons b bs ih =>
      unfold drainBuffers at h
      split at h
      · obtain ⟨y, hy, hrest⟩ := bind_eq_ok_iff.mp h
        split at hrest
        · obtain rfl := Except.ok.inj hrest
          exact bpfPerfEventReadSimple_stored hy
        · obtain ⟨z, hz, hok⟩ := bind_eq_ok_iff.mp hrest
          obtain rfl := Except.ok.inj hok
          exact (bpfPerfEventReadSimple_stored hy).trans (ih hz)
      · exact ih h

theorem exec_effect {t : PollTask} {out : List Output} {new : List PollTask}
    (h : exec pol t s = .ok (s', out, new)) : Effect s s' out := by
  cases t with
  | detect tick =>
      simp only [exec] at h
      split at h
      · obtain ⟨c, -, hok⟩ := bind_eq_ok_iff.mp h
        obtain ⟨rfl, rfl, -⟩ : s = s' ∧ [Output.event (.detect s.queue)] = out ∧ _ := by
          simpa using hok
        exact .quiet [.detect s.queue] (by simp [Event.Quiet]) rfl rfl
      · obtain ⟨rfl, rfl, -⟩ : s = s' ∧ [] = out ∧ _ := by simpa using h
        exact .idle s
  | report w p i t j =>
      obtain ⟨r, hr, hok⟩ := bind_eq_ok_iff.mp h
      obtain ⟨rfl, rfl, -⟩ : r.1 = s' ∧ observe (w.reply i j) r.2 = out ∧ _ := by simpa using hok
      obtain ⟨sent, -, hrest⟩ := bind_eq_ok_iff.mp hr
      split at hrest
      · obtain ⟨addr, -, haddr⟩ := bind_eq_ok_iff.mp hrest
        obtain rfl := Except.ok.inj haddr
        exact .blocked p addr _ (w.clock i j) (w.reply i j) rfl rfl
      · obtain rfl := Except.ok.inj hrest
        exact .idle s
  | closeWindow now =>
      obtain ⟨rfl, rfl, -⟩ : _ = s' ∧ [] = out ∧ _ := by simpa [exec] using h
      exact .quiet [] (by simp) rfl rfl
  | scan tick =>
      simp only [exec] at h
      split at h
      · obtain ⟨rfl, rfl, -⟩ : s = s' ∧ [] = out ∧ _ := by simpa using h
        exact .idle s
      · obtain ⟨rfl, rfl, -⟩ : s = s' ∧ [] = out ∧ _ := by simpa using h
        exact .idle s
  | release tick g =>
      obtain ⟨rfl, rfl, -⟩ : (releaseSlot tick (s, []) g).1 = s' ∧
          observe (tick.reply g) (releaseSlot tick (s, []) g).2 = out ∧ _ := by
        simpa [exec] using h
      rcases releaseSlot_cases tick (s, []) g with ⟨-, hkept⟩ | ⟨hne, -, hreleased⟩
      · rw [hkept]
        exact .idle s
      · rw [hreleased]
        exact .released g _ tick.now (tick.reply g) rfl hne rfl rfl
  | closeScan now =>
      obtain ⟨rfl, rfl, -⟩ : _ = s' ∧ [] = out ∧ _ := by simpa [exec] using h
      exact .quiet [] (by simp) rfl rfl
  | drain buffers =>
      obtain ⟨r, hr, hok⟩ := bind_eq_ok_iff.mp h
      obtain ⟨rfl, rfl, -⟩ : r.1 = s' ∧ r.2.map .event = out ∧ _ := by simpa using hok
      have hstored := drainBuffers_stored hr
      exact .quiet r.2 hstored.quiet hstored.map hstored.slots

end AntiDos
