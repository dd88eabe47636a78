import AntiDos.Poller.Locks
import AntiDos.Poller.Machine

/-!
# The descriptors of the policy engine

Every call of `policy_change_black_list` opens the pinned map, and no path of it closes the
descriptor. So each call that finds the map leaves one more descriptor behind, until the process has
as many as it may have; from then on no call changes the map.
-/

namespace AntiDos

open Faulting Tasks Transducer

variable {pol : PolicyTable} {map m : BlackListMap} {s t : Machine} {actions : List Action}
  {log : List Output}

/-! ## The map along a run -/

/-- The map after what an output reports. -/
def BlackListMap.apply (m : BlackListMap) : Output → BlackListMap
  | .event _ => m
  | .call c => c.perform m
  | .stored addr ok => if ok then { m with entries := insert addr m.entries } else m

theorem storeElem_eq (addr : UInt32) (fd : Int) (reply : MapReply) (m : BlackListMap) :
    (storeElem addr fd reply m).2 = m.apply (.stored addr ((storeElem addr fd reply m).1 = 0)) := by
  simp only [storeElem, BlackListMap.apply, bpfMapUpdateElem_entries, decide_eq_true_eq]
  split <;> rfl

theorem apply_events (m : BlackListMap) (es : List Event) :
    (es.map Output.event).foldl BlackListMap.apply m = m := by
  induction es with
  | nil => rfl
  | cons e es ih => exact ih

theorem Effect.map_eq {s s' : Poller} {out : List Output} (h : Effect s s' out) :
    s'.map = out.foldl BlackListMap.apply s.map := by
  cases h with
  | quiet es hes hmap hslots => rw [apply_events, hmap]
  | blocked p addr sent now r hmap hslots => exact hmap
  | released g addr now r hg hne hmap hslots => exact hmap

theorem machineStep_effect {s s' : Machine} {a : Action} {out : List Output}
    (h : machineStep pol s a = .ok (s', out)) :
    Effect s.state s'.state out ∨
      ∃ addr ok, out = [.stored addr ok] ∧ s'.todo = s.todo ∧
        s'.state = { s.state with map := s.state.map.apply (.stored addr ok) } := by
  cases a with
  | advance tick =>
      refine Or.inl ?_
      unfold machineStep at h
      dsimp only at h
      split at h
      · obtain ⟨rfl, rfl⟩ := Prod.mk.inj (Except.ok.inj h)
        exact .quiet [.reading tick.now] (by simp [Event.Quiet]) (syncClock_map _ _)
          (syncClock_countDown _ _)
      · obtain ⟨u, out', new, hexec, heq⟩ := next_eq_ok_iff.mp h
        obtain ⟨rfl, rfl⟩ := Prod.mk.inj heq
        exact exec_effect hexec
  | store addr fd reply =>
      refine Or.inr ⟨addr, (storeElem addr fd reply s.state.map).1 = 0, ?_⟩
      obtain ⟨rfl, rfl⟩ := Prod.mk.inj (Except.ok.inj h)
      refine ⟨rfl, rfl, ?_⟩
      dsimp only
      rw [storeElem_eq]

theorem machineStep_map {s s' : Machine} {a : Action} {out : List Output}
    (h : machineStep pol s a = .ok (s', out)) :
    s'.state.map = out.foldl BlackListMap.apply s.state.map := by
  rcases machineStep_effect h with heffect | ⟨addr, ok, rfl, -, hstate⟩
  · exact heffect.map_eq
  · rw [hstate]
    rfl

theorem run_map (hrun : run (machineStep pol) s actions = .ok (t, log)) :
    t.state.map = log.foldl BlackListMap.apply s.state.map := by
  have hstep : ∀ (s : Machine) (a : Action) (s' : Machine) (es : List Output) (m : BlackListMap),
      s.state.map = m → machineStep pol s a = .ok (s', es) →
      EachEvent BlackListMap.apply (fun _ _ ↦ True) m es ∧
        s'.state.map = es.foldl BlackListMap.apply m := by
    rintro s a s' es m rfl hstep
    exact ⟨eachEvent_forall.mpr fun _ _ ↦ trivial, machineStep_map hstep⟩
  exact (run_simulates (fun s m ↦ s.state.map = m) hstep rfl hrun).2

/-! ## Descriptors -/

@[simp] theorem openBpfMapFile_fds (r : MapReply) (m : BlackListMap) :
    (openBpfMapFile r m).2.fds = if r.objGet < 0 then m.fds else insert r.objGet m.fds := by
  unfold openBpfMapFile
  split
  · rfl
  · dsimp only
    split <;> rfl

@[simp] theorem bpfMapUpdateElem_fds (r : MapReply) (fd : Int) (key : UInt32) (m : BlackListMap) :
    (bpfMapUpdateElem r fd key m).2.fds = m.fds := by
  unfold bpfMapUpdateElem
  split_ifs <;> rfl

@[simp] theorem bpfMapDeleteElem_fds (r : MapReply) (fd : Int) (key : UInt32) (m : BlackListMap) :
    (bpfMapDeleteElem r fd key m).2.fds = m.fds := by
  unfold bpfMapDeleteElem
  split_ifs <;> rfl

theorem Call.perform_fds (c : Call) (m : BlackListMap) :
    (c.perform m).fds = if c.reply.objGet < 0 then m.fds else insert c.reply.objGet m.fds := by
  unfold Call.perform policyChangeBlackList
  dsimp only
  split_ifs <;> simp [*]

/-- The process holds the same descriptors after a call as before it. -/
def Balanced (m : BlackListMap) : Output → Prop
  | .call c => (c.perform m).fds = m.fds
  | _ => True

/-- `bpf_obj_get` returns a descriptor that the process does not hold. -/
def FreshDescriptor (m : BlackListMap) : Output → Prop
  | .call c => 0 ≤ c.reply.objGet → c.reply.objGet ∉ m.fds
  | _ => True

def Unopened : Output → Prop
  | .call c => c.reply.objGet < 0
  | _ => True

theorem balanced_iff (m : BlackListMap) (o : Output) (h : FreshDescriptor m o) :
    Balanced m o ↔ Unopened o := by
  cases o with
  | event e => exact Iff.rfl
  | stored addr ok => exact Iff.rfl
  | call c =>
      simp only [Balanced, Unopened, Call.perform_fds]
      by_cases hopen : c.reply.objGet < 0
      · simp [hopen]
      · simpa [hopen] using h (Int.not_lt.mp hopen)

/-- Along a run, every call leaves the descriptors as they were exactly when no call opens the map.
-/
theorem descriptors_balanced_iff (pol : PolicyTable) (map : BlackListMap) (actions : List Action)
    (hrun : run (machineStep pol) (Machine.init map) actions = .ok (t, log))
    (hfresh : EachEvent BlackListMap.apply FreshDescriptor map log) :
    t.state.map = log.foldl BlackListMap.apply map ∧
      (EachEvent BlackListMap.apply Balanced map log ↔ ∀ o ∈ log, Unopened o) := by
  refine ⟨run_map hrun, ?_⟩
  rw [eachEvent_congr balanced_iff hfresh, eachEvent_forall]

instance (m : BlackListMap) (o : Output) : Decidable (Balanced m o) :=
  match o with
  | .call _ => inferInstanceAs (Decidable (_ = _))
  | .event _ => .isTrue trivial
  | .stored _ _ => .isTrue trivial

instance (m : BlackListMap) (o : Output) : Decidable (FreshDescriptor m o) :=
  match o with
  | .call _ => inferInstanceAs (Decidable (_ → _ ∉ _))
  | .event _ => .isTrue trivial
  | .stored _ _ => .isTrue trivial

instance (o : Output) : Decidable (Unopened o) :=
  match o with
  | .call _ => inferInstanceAs (Decidable (_ < _))
  | .event _ => .isTrue trivial
  | .stored _ _ => .isTrue trivial

/-- An iteration that queues a packet, and the next one up to the block of its source. -/
def blockActions (reply : MapReply) : List Action :=
  List.replicate 4 (.advance (plainTick 100 [packet 7 0x0A0A0A0A])) ++
    List.replicate 3
      (.advance { plainTick 101 [] with window := ⟨freshStack 0, fun _ _ ↦ 101, fun _ _ ↦ reply⟩ })

def blockLog (reply : MapReply) (added : Bool) : List Output :=
  [.event (.reading 100), .event (.store 0 (packet 7 0x0A0A0A0A)), .event (.reading 101),
    .event (.detect [packet 7 0x0A0A0A0A]), .event (.detected strictPolicy 7 1),
    .call ⟨7, block, reply⟩, .event (.block 7 101 added)]

def refused : MapReply := { MapReply.granted with objGet := -1 }

theorem refused_block_balanced :
    EachEvent BlackListMap.apply Balanced emptyMap (blockLog refused false) :=
  (descriptors_balanced_iff strictTable emptyMap (blockActions refused) rfl (by decide)).2.mpr
    (by decide)

theorem block_keeps_descriptor :
    ∃ t log, run (machineStep strictTable) (Machine.init emptyMap) (blockActions .granted) =
        .ok (t, log) ∧
      EachEvent BlackListMap.apply FreshDescriptor emptyMap log ∧
      ¬ EachEvent BlackListMap.apply Balanced emptyMap log :=
  ⟨_, blockLog .granted true, rfl, by decide, by decide⟩

/-! ## A limit on the descriptors -/

/-- `bpf_obj_get` fails exactly for lack of descriptors. -/
def Limited (limit : ℕ) (m : BlackListMap) : Output → Prop
  | .call c => c.reply.objGet < 0 ↔ limit ≤ m.fds.card
  | _ => True

def Output.isCall : Output → Bool
  | .call _ => true
  | _ => false

theorem apply_card {limit : ℕ} {o : Output} (hfresh : FreshDescriptor m o)
    (hlimit : Limited limit m o) (hle : m.fds.card ≤ limit) :
    (m.apply o).fds.card = min limit (m.fds.card + if o.isCall then 1 else 0) := by
  cases o with
  | event e => simpa [BlackListMap.apply, Output.isCall] using hle
  | stored addr ok =>
      have hfds : (m.apply (.stored addr ok)).fds = m.fds := by
        simp only [BlackListMap.apply]
        split <;> rfl
      simpa [hfds, Output.isCall] using hle
  | call c =>
      simp only [BlackListMap.apply, Call.perform_fds, Output.isCall, if_true]
      by_cases hopen : c.reply.objGet < 0
      · have := hlimit.mp hopen
        rw [if_pos hopen]
        omega
      · have hroom := mt hlimit.mpr hopen
        rw [if_neg hopen, Finset.card_insert_of_notMem (hfresh (Int.not_lt.mp hopen))]
        omega

theorem foldl_card {limit : ℕ} (hfresh : EachEvent BlackListMap.apply FreshDescriptor m log)
    (hlimit : EachEvent BlackListMap.apply (Limited limit) m log) (hle : m.fds.card ≤ limit) :
    (log.foldl BlackListMap.apply m).fds.card =
      min limit (m.fds.card + log.countP Output.isCall) := by
  induction log generalizing m with
  | nil => simpa using hle
  | cons o log ih =>
      have hcard := apply_card hfresh.1 hlimit.1 hle
      rw [List.foldl_cons, ih hfresh.2 hlimit.2 (by omega), hcard, List.countP_cons]
      omega

/-- When as many calls were made as the process may have descriptors, no call of any sequence
changes the black list any more. -/
theorem calls_exhaust_descriptors {limit : ℕ} {pre post : List Output} {c : Call}
    (hfresh : EachEvent BlackListMap.apply FreshDescriptor map (pre ++ .call c :: post))
    (hlimit : EachEvent BlackListMap.apply (Limited limit) map (pre ++ .call c :: post))
    (hle : map.fds.card ≤ limit) (hcalls : limit ≤ map.fds.card + pre.countP Output.isCall) :
    policyChangeBlackList c.ip c.action c.reply (pre.foldl BlackListMap.apply map) =
      ⟨exitFailBpf, pre.foldl BlackListMap.apply map, false⟩ := by
  rw [eachEvent_append, EachEvent] at hfresh hlimit
  have hcard := foldl_card hfresh.1 hlimit.1 hle
  have hfail : c.reply.objGet < 0 := hlimit.2.1.mpr (by omega)
  simp [policyChangeBlackList, openBpfMapFile, hfail]

end AntiDos
