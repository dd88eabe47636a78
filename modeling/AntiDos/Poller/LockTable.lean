import AntiDos.Poller.Iteration

/-!
# The lock table

What the events of a run say about the automatic locks: which slot of `count_down` holds which
address, and which addresses the detection has put on the black list and nothing has taken off
since. The poller follows this table in every run, whatever the kernel answers.
-/

namespace AntiDos

open Faulting Transducer

/-! ## The slots -/

/-- `count_down[0][g] = 0`. -/
def clearSlot (cd : CountDown) (g : Fin ipDynamic) : CountDown :=
  Function.update cd g { cd g with addr := 0 }

variable {cd : CountDown} {addr a : UInt32}

theorem enterSlot_cases (cd : CountDown) (addr stamp : UInt32) :
    (∃ g, (cd g).addr = 0 ∧ enterSlot cd addr stamp = Function.update cd g ⟨addr, stamp⟩) ∨
      ((∀ g, (cd g).addr ≠ 0) ∧ enterSlot cd addr stamp = cd) := by
  cases hfind : (List.finRange ipDynamic).find? (fun g ↦ (cd g).addr = 0) with
  | none =>
      refine Or.inr ⟨fun g ↦ ?_, by simp only [enterSlot, hfind]⟩
      simpa using List.find?_eq_none.mp hfind g (List.mem_finRange g)
  | some g =>
      refine Or.inl ⟨g, ?_, by simp only [enterSlot, hfind]⟩
      simpa using List.find?_some hfind

theorem exists_enterSlot_iff (stamp : UInt32) (ha : a ≠ 0) :
    (∃ g, (enterSlot cd addr stamp g).addr = a) ↔
      (∃ g, (cd g).addr = a) ∨ (a = addr ∧ ∃ g, (cd g).addr = 0) := by
  rcases enterSlot_cases cd addr stamp with ⟨g, hfree, heq⟩ | ⟨hfull, heq⟩
  · rw [heq]
    constructor
    · rintro ⟨i, hi⟩
      by_cases hig : i = g
      · subst hig
        rw [Function.update_self] at hi
        exact Or.inr ⟨hi.symm, i, hfree⟩
      · rw [Function.update_of_ne hig] at hi
        exact Or.inl ⟨i, hi⟩
    · rintro (⟨i, hi⟩ | ⟨rfl, -⟩)
      · refine ⟨i, ?_⟩
        rw [Function.update_of_ne, hi]
        rintro rfl
        exact ha (hi.symm.trans hfree)
      · exact ⟨g, by rw [Function.update_self]⟩
  · rw [heq]
    exact ⟨Or.inl, fun h ↦ h.resolve_right fun ⟨_, g, hg⟩ ↦ hfull g hg⟩

theorem exists_clearSlot_iff (g : Fin ipDynamic) (ha : a ≠ 0) :
    (∃ i, (clearSlot cd g i).addr = a) ↔ ∃ i, i ≠ g ∧ (cd i).addr = a := by
  apply exists_congr
  intro i
  unfold clearSlot
  by_cases hig : i = g
  · subst hig
    rw [Function.update_self]
    exact ⟨fun h ↦ absurd h.symm ha, fun h ↦ absurd rfl h.1⟩
  · rw [Function.update_of_ne hig]
    exact ⟨fun h ↦ ⟨hig, h⟩, fun h ↦ h.2⟩

/-! ## The table -/

/-- The slots, and the addresses blocked by the detection and not removed since. -/
structure LockTable where
  slots : CountDown
  auto : Finset UInt32

namespace LockTable

def init : LockTable := ⟨fun _ ↦ ⟨0, 0⟩, ∅⟩

def step (t : LockTable) : Event → LockTable
  | .block addr time added =>
      ⟨enterSlot t.slots addr time.toUInt32, if added then insert addr t.auto else t.auto⟩
  | .unblock g addr _ removed =>
      ⟨clearSlot t.slots g, if removed then t.auto.erase addr else t.auto⟩
  | _ => t

/-- A release is made of the address in its slot, and only when the lock looks expired. -/
def Honest (t : LockTable) : Event → Prop
  | .unblock g addr now _ =>
      (t.slots g).addr = addr ∧ addr ≠ 0 ∧ ¬ now - (t.slots g).stamp.toUInt64 < lockTime
  | _ => True

theorem step_of_idle (t : LockTable) {e : Event} (he : e.Idle) : t.step e = t := by
  cases e <;> first | rfl | exact he.elim

theorem honest_of_idle (t : LockTable) {e : Event} (he : e.Idle) : t.Honest e := by
  cases e <;> trivial

theorem foldl_of_idle (t : LockTable) {es : List Event} (hes : ∀ e ∈ es, e.Idle) :
    EachEvent step Honest t es ∧ es.foldl step t = t := by
  induction es with
  | nil => exact ⟨trivial, rfl⟩
  | cons e es ih =>
      have hstep : t.step e = t := t.step_of_idle (hes e List.mem_cons_self)
      have hrest := ih fun e' he' ↦ hes e' (List.mem_cons_of_mem e he')
      rw [EachEvent, List.foldl_cons, hstep]
      exact ⟨⟨t.honest_of_idle (hes e List.mem_cons_self), hrest.1⟩, hrest.2⟩

end LockTable

/-! ## The poller follows the table -/

/-- The table is the `count_down` of the poller, and its addresses are on the black list. -/
structure Follows (s : Poller) (t : LockTable) : Prop where
  slots : s.countDown = t.slots
  auto : t.auto ⊆ s.map.entries

/-- A piece of a run that follows the table from `t` on. -/
structure Replays (t : LockTable) (r : Poller × List Event) : Prop where
  honest : EachEvent LockTable.step LockTable.Honest t r.2
  follows : Follows r.1 (r.2.foldl LockTable.step t)

variable {t : LockTable} {s : Poller} {tick : Tick} {pol : PolicyTable}

theorem Replays.append {acc : Poller × List Event} {s' : Poller} {fs : List Event}
    (h : Replays t acc) (h' : Replays (acc.2.foldl LockTable.step t) (s', fs)) :
    Replays t (s', acc.2 ++ fs) where
  honest := eachEvent_append.mpr ⟨h.honest, h'.honest⟩
  follows := by
    rw [List.foldl_append]
    exact h'.follows

theorem Follows.nil (h : Follows s t) : Replays t (s, []) := ⟨trivial, h⟩

theorem Follows.idle (h : Follows s t) {es : List Event} (hes : ∀ e ∈ es, e.Idle) :
    Replays t (s, es) where
  honest := (t.foldl_of_idle hes).1
  follows := by
    rw [(t.foldl_of_idle hes).2]
    exact h

theorem Replays.report {acc : Poller × List Event} (h : Replays t acc) (w : Window)
    (p : Policy) (i j : ℕ) (addr sent : UInt32) :
    Replays t (reportSource w p i j addr sent acc) := by
  refine h.append ⟨⟨trivial, trivial, trivial⟩, ?_, ?_⟩
  · simp only [List.foldl_cons, List.foldl_nil, LockTable.step, h.follows.slots]
  · simp only [List.foldl_cons, List.foldl_nil, LockTable.step,
      policyChangeBlackList_block_entries]
    split
    · exact Finset.insert_subset_insert addr h.follows.auto
    · exact h.follows.auto

theorem Replays.release {acc : Poller × List Event} (h : Replays t acc) (g : Fin ipDynamic)
    (haddr : (acc.1.countDown g).addr ≠ 0)
    (hexpired : ¬ tick.now - (acc.1.countDown g).stamp.toUInt64 < lockTime) :
    Replays t (released tick acc g) := by
  rw [h.follows.slots] at haddr hexpired
  refine h.append ⟨⟨⟨?_, ?_, hexpired⟩, trivial⟩, ?_, ?_⟩
  · rw [h.follows.slots]
  · rwa [h.follows.slots]
  · simp only [List.foldl_cons, List.foldl_nil, LockTable.step, clearSlot, h.follows.slots]
  · simp only [List.foldl_cons, List.foldl_nil, LockTable.step,
      policyChangeBlackList_unblock_entries]
    split
    · exact Finset.erase_subset_erase _ h.follows.auto
    · exact h.follows.auto

theorem Follows.detect {x : Poller × List Event} (h : Follows s t)
    (hx : detectPhase pol tick s = .ok x) : Replays t x := by
  rcases detectPhase_cases hx with ⟨-, r, hr, rfl⟩ | ⟨-, rfl⟩
  · have hdetect : Replays t r :=
      detectAttackers_invariant (Replays t) (fun p i j addr sent acc hacc ↦
        hacc.report tick.window p i j addr sent) h.nil hr
    exact ⟨⟨trivial, hdetect.honest⟩, hdetect.follows.slots, hdetect.follows.auto⟩
  · exact h.nil

theorem Follows.scan (h : Follows s t) : Replays t (scanPhase tick s) :=
  scanPhase_invariant (Replays t) (fun _ g hacc ↦ hacc.release g)
    (fun _ hacc ↦ ⟨hacc.honest, hacc.follows.slots, hacc.follows.auto⟩) h.nil

theorem Follows.next {s' : Poller} {es : List Event} (hs : s.queue.length ≤ queueSlots)
    (h : Follows s t) (hrun : iteration pol s tick = .ok (s', es)) : Replays t (s', es) := by
  obtain ⟨x, hx, -, rfl, rfl⟩ := (iteration_eq_ok_iff hs).mp hrun
  have hsync : Follows (syncClock tick.now s) t :=
    ⟨(syncClock_countDown tick.now s).trans h.slots, (syncClock_map tick.now s).symm ▸ h.auto⟩
  have hdetect := hsync.detect hx
  have hscan : Replays t ((scanPhase tick x.1).1, x.2 ++ (scanPhase tick x.1).2) :=
    hdetect.append hdetect.follows.scan
  have hfollows : Follows
      { (scanPhase tick x.1).1 with queue := x.1.queue ++ delivered tick.buffers }
      ((x.2 ++ (scanPhase tick x.1).2).foldl LockTable.step t) :=
    ⟨hscan.follows.slots, hscan.follows.auto⟩
  have hstores : ∀ e ∈ stores x.1.queue.length (delivered tick.buffers), e.Idle :=
    fun e he ↦ stores_idle he
  have hall := hscan.append (hfollows.idle hstores)
  exact ⟨⟨trivial, hall.honest⟩, hall.follows⟩

theorem eventPoller_follows {map : BlackListMap} {ticks : List Tick} {s' : Poller}
    {log : List Event} (h : eventPoller pol (Poller.init map) ticks = .ok (s', log)) :
    EachEvent LockTable.step LockTable.Honest LockTable.init log ∧
      Follows s' (log.foldl LockTable.step LockTable.init) := by
  have hinit : Follows (Poller.init map) LockTable.init := ⟨rfl, Finset.empty_subset _⟩
  suffices hrel : EachEvent LockTable.step LockTable.Honest LockTable.init log ∧
      (s'.queue.length ≤ queueSlots ∧ Follows s' (log.foldl LockTable.step LockTable.init)) from
    ⟨hrel.1, hrel.2.2⟩
  refine run_simulates (fun s t ↦ s.queue.length ≤ queueSlots ∧ Follows s t) ?_
    ⟨Nat.zero_le _, hinit⟩ h
  rintro s tick s' es t ⟨hs, hfollows⟩ hstep
  have hreplays := hfollows.next hs hstep
  exact ⟨hreplays.honest, iteration_queue_length hs hstep, hreplays.follows⟩

end AntiDos
