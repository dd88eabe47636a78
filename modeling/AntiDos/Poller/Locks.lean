import AntiDos.Poller.Clock
import AntiDos.Poller.LockTable

/-!
# How long a lock lasts

A lock is entered in `count_down` when its address is blocked, and is released by a scan that finds
it expired. It can be released too early, when an earlier slot of the same address expires or when
the subtraction of its stamp wraps around; it can last for ever, when the address did not get a slot
or lost it without leaving the black list, or when the scan is never run again.
-/

namespace AntiDos

open Faulting Transducer

variable {pol : PolicyTable} {map : BlackListMap} {s s' t : Poller} {tick : Tick}
  {ticks : List Tick} {es log : List Event}

/-! ## Locks that last too short -/

/-- A lock keeps its length: a blocked address has no slot from an earlier second, its stamp fits
32 bits, and no slot is released whose stamp is later than the reading of the iteration. -/
def KeepsLength (t : LockTable) : Event → Prop
  | .block addr time _ =>
      time.toNat < 2 ^ 32 ∧
        ∀ g, addr ≠ 0 → (t.slots g).addr = addr → time.toNat ≤ (t.slots g).stamp.toNat
  | .unblock g _ now _ => (t.slots g).stamp.toNat ≤ now.toNat
  | _ => True

instance (t : LockTable) (e : Event) : Decidable (KeepsLength t e) :=
  match e with
  | .block _ _ _ => inferInstanceAs (Decidable (_ ∧ _))
  | .unblock _ _ _ _ => Nat.decLe _ _
  | .reading _ => .isTrue trivial
  | .detect _ => .isTrue trivial
  | .detected _ _ _ => .isTrue trivial
  | .store _ _ => .isTrue trivial

/-- No address is released sooner than `LOCK_TIME` seconds after any block of it. -/
def LocksLast (log : List Event) : Prop :=
  ∀ pre mid post addr time added g now removed,
    log = pre ++ .block addr time added :: (mid ++ .unblock g addr now removed :: post) →
    time.toNat + lockTime.toNat ≤ now.toNat

/-- Every slot of `addr` is stamped at `start` or later. -/
def LockedSince (addr : UInt32) (start : ℕ) (t : LockTable) : Prop :=
  ∀ g, addr ≠ 0 → (t.slots g).addr = addr → start ≤ (t.slots g).stamp.toNat

theorem LockedSince.enter {addr : UInt32} {start : ℕ} {t : LockTable} (h : LockedSince addr start t)
    (addr' : UInt32) {time : UInt64} (added : Bool) (htime : time.toNat < 2 ^ 32)
    (hstart : addr' = addr → start ≤ time.toNat) :
    LockedSince addr start (t.step (.block addr' time added)) := by
  intro g hne
  have hstamp : time.toUInt32.toNat = time.toNat := by
    rw [UInt64.toNat_toUInt32]
    exact Nat.mod_eq_of_lt htime
  simp only [LockTable.step]
  rcases enterSlot_cases t.slots addr' time.toUInt32 with ⟨i, -, heq⟩ | ⟨-, heq⟩
  · rw [heq]
    by_cases hgi : g = i
    · subst hgi
      rw [Function.update_self, hstamp]
      exact hstart
    · rw [Function.update_of_ne hgi]
      exact h g hne
  · rw [heq]
    exact h g hne

theorem LockedSince.clear {addr : UInt32} {start : ℕ} {t : LockTable} (h : LockedSince addr start t)
    (g : Fin ipDynamic) (addr' : UInt32) (now : UInt64) (removed : Bool) :
    LockedSince addr start (t.step (.unblock g addr' now removed)) := by
  intro i hne
  simp only [LockTable.step, clearSlot]
  by_cases hig : i = g
  · subst hig
    rw [Function.update_self]
    exact fun hzero ↦ absurd hzero.symm hne
  · rw [Function.update_of_ne hig]
    exact h i hne

theorem LockedSince.foldl {addr : UInt32} {start : ℕ} {t : LockTable} (h : LockedSince addr start t)
    (hlater : ∀ addr' time added, .block addr' time added ∈ es → start ≤ time.toNat)
    (hkeeps : EachEvent LockTable.step KeepsLength t es) :
    LockedSince addr start (es.foldl LockTable.step t) := by
  induction es generalizing t with
  | nil => exact h
  | cons e es ih =>
      refine ih ?_ (fun addr' time added hmem ↦ hlater addr' time added (by simp [hmem])) hkeeps.2
      cases e with
      | block addr' time added =>
          exact h.enter addr' added hkeeps.1.1 fun _ ↦ hlater addr' time added (by simp)
      | unblock g addr' now removed => exact h.clear g addr' now removed
      | reading now => exact h
      | detect queue => exact h
      | detected policy src sent => exact h
      | store index pktMeta => exact h

theorem expired_iff {now : UInt64} {stamp : UInt32} (h : stamp.toNat ≤ now.toNat) :
    ¬ now - stamp.toUInt64 < lockTime ↔ stamp.toNat + lockTime.toNat ≤ now.toNat := by
  have hstamp : stamp.toUInt64.toNat = stamp.toNat := UInt32.toNat_toUInt64 stamp
  have hle : stamp.toUInt64 ≤ now := UInt64.le_iff_toNat_le.mpr (by rwa [hstamp])
  rw [UInt64.lt_iff_toNat_lt, UInt64.toNat_sub_of_le now _ hle, hstamp]
  omega

theorem ClockForward.le_of_mem {pre post : List Event} {e e' : Event} {r r' : UInt64}
    (h : ClockForward (pre ++ e :: post)) (hr : e.clock = some r) (he' : e' ∈ post)
    (hr' : e'.clock = some r') : r.toNat ≤ r'.toNat := by
  rw [ClockForward, clockReadings, List.pairwise_filterMap, List.pairwise_append,
    List.pairwise_cons] at h
  exact UInt64.le_iff_toNat_le.mp (h.2.1.1 e' he' r hr r' hr')

/-- In a run whose locks keep their length, they last for `LOCK_TIME` seconds. -/
theorem locks_last (pol : PolicyTable) (map : BlackListMap) (ticks : List Tick)
    (hrun : eventPoller pol (Poller.init map) ticks = .ok (t, log)) (hclock : ClockForward log)
    (hkeeps : EachEvent LockTable.step KeepsLength LockTable.init log) :
    LocksLast log := by
  rintro pre mid post addr time added g now removed rfl
  have hlater : ∀ addr' time' added', .block addr' time' added' ∈ mid →
      time.toNat ≤ time'.toNat := by
    intro addr' time' added' hmem
    exact hclock.le_of_mem rfl (List.mem_append_left _ hmem) rfl
  obtain ⟨hhonest, -⟩ := eventPoller_follows hrun
  rw [eachEvent_append, EachEvent, eachEvent_append, EachEvent] at hkeeps hhonest
  obtain ⟨-, hblock, hmid, hrelease, -⟩ := hkeeps
  obtain ⟨-, -, -, ⟨haddr, hne, hexpired⟩, -⟩ := hhonest
  have hsince : LockedSince addr time.toNat
      ((pre.foldl LockTable.step LockTable.init).step (.block addr time added)) :=
    LockedSince.enter hblock.2 addr added hblock.1 fun _ ↦ le_rfl
  have hstamp := hsince.foldl hlater hmid g hne haddr
  have hfull := (expired_iff hrelease).mp hexpired
  omega

def strictPolicy : Policy := ⟨1, 0x0A0A0A0A, 0⟩

def strictTable : PolicyTable := ⟨[strictPolicy], by decide⟩

/-- The source `7` sends one packet at 100 and is blocked at 101. -/
def lockTicks : List Tick := [plainTick 100 [packet 7 0x0A0A0A0A], plainTick 101 []]

def lockEvents : List Event :=
  [.reading 100, .store 0 (packet 7 0x0A0A0A0A), .reading 101,
    .detect [packet 7 0x0A0A0A0A], .detected strictPolicy 7 1, .block 7 101 true]

def waitTicks : List Tick :=
  [plainTick 102 [], plainTick 103 [], plainTick 104 [], plainTick 105 []]

def waitEvents : List Event :=
  [.reading 102, .detect [], .reading 103, .detect [], .reading 104, .detect [],
    .reading 105, .detect []]

set_option maxRecDepth 4000 in
theorem lock_of_five_seconds :
    LocksLast (lockEvents ++ waitEvents ++ [.reading 106, .detect [], .unblock 0 7 106 true]) :=
  locks_last strictTable emptyMap (lockTicks ++ waitTicks ++ [plainTick 106 []]) rfl (by decide)
    (by decide)

/-- An iteration at 101 whose detection runs past the end of the second. -/
def tickPastSecond : Tick :=
  { plainTick 101 [] with window := ⟨freshStack 0, fun _ _ ↦ 102, fun _ _ ↦ .granted⟩ }

set_option maxRecDepth 4000 in
theorem lock_released_at_once :
    ∃ t log, eventPoller strictTable (Poller.init emptyMap)
        [plainTick 100 [packet 7 0x0A0A0A0A], tickPastSecond] = .ok (t, log) ∧
      ClockForward log ∧ ¬ LocksLast log := by
  refine ⟨_, [.reading 100, .store 0 (packet 7 0x0A0A0A0A), .reading 101,
    .detect [packet 7 0x0A0A0A0A], .detected strictPolicy 7 1, .block 7 102 true,
    .unblock 0 7 101 true], rfl, by decide, fun h ↦ ?_⟩
  have hlast := h [.reading 100, .store 0 (packet 7 0x0A0A0A0A), .reading 101,
    .detect [packet 7 0x0A0A0A0A], .detected strictPolicy 7 1] [] [] 7 102 true 0 101 true rfl
  exact absurd hlast (by decide)

/-! ## Locks that last for ever -/

/-- A slot that a scan can release holds the address. -/
def Held (cd : CountDown) (addr : UInt32) : Prop := addr ≠ 0 ∧ ∃ g, (cd g).addr = addr

/-- Every address the detection put on the black list, and nothing has taken off since, is held. -/
def AllHeld (t : LockTable) : Prop := ∀ addr ∈ t.auto, Held t.slots addr

/-- An address that is added is not `0` and has a slot or finds a free one, and a slot is given up
only when its address leaves the black list, or has another slot. -/
def KeepsHeld (t : LockTable) : Event → Prop
  | .block addr _ added =>
      added → addr ≠ 0 ∧ ((∃ g, (t.slots g).addr = addr) ∨ ∃ g, (t.slots g).addr = 0)
  | .unblock g addr _ removed =>
      removed ∨ addr ∉ t.auto ∨ ∃ i, i ≠ g ∧ (t.slots i).addr = addr
  | _ => True

instance (t : LockTable) (e : Event) : Decidable (KeepsHeld t e) :=
  match e with
  | .block _ _ added => inferInstanceAs (Decidable (added = true → _ ∧ (_ ∨ _)))
  | .unblock _ _ _ removed => inferInstanceAs (Decidable (removed = true ∨ _ ∨ _))
  | .reading _ => .isTrue trivial
  | .detect _ => .isTrue trivial
  | .detected _ _ _ => .isTrue trivial
  | .store _ _ => .isTrue trivial

theorem keepsHeld_block_iff {t : LockTable} (h : AllHeld t) (addr : UInt32) (time : UInt64)
    (added : Bool) :
    KeepsHeld t (.block addr time added) ↔ AllHeld (t.step (.block addr time added)) := by
  have hheld : ∀ a ∈ t.auto, Held (t.step (.block addr time added)).slots a := by
    intro a ha
    obtain ⟨hne, hslot⟩ := h a ha
    exact ⟨hne, (exists_enterSlot_iff _ hne).mpr (Or.inl hslot)⟩
  cases added with
  | false => exact ⟨fun _ a ha ↦ hheld a ha, fun _ hfalse ↦ absurd hfalse (by simp)⟩
  | true =>
      constructor
      · intro hkeeps a ha
        obtain ⟨hne, hslot⟩ := hkeeps rfl
        rcases Finset.mem_insert.mp ha with rfl | ha
        · exact ⟨hne, (exists_enterSlot_iff _ hne).mpr (hslot.imp_right fun hfree ↦ ⟨rfl, hfree⟩)⟩
        · exact hheld a ha
      · intro hall _
        obtain ⟨hne, hslot⟩ := hall addr (Finset.mem_insert_self addr t.auto)
        exact ⟨hne, ((exists_enterSlot_iff _ hne).mp hslot).imp_right And.right⟩

theorem keepsHeld_unblock_iff {t : LockTable} (h : AllHeld t) {g : Fin ipDynamic} {addr : UInt32}
    {now : UInt64} (removed : Bool) (hg : (t.slots g).addr = addr) :
    KeepsHeld t (.unblock g addr now removed) ↔
      AllHeld (t.step (.unblock g addr now removed)) := by
  -- Only the address of the cleared slot can lose its slot.
  have hother : ∀ a ∈ t.auto, a ≠ addr → Held (clearSlot t.slots g) a := by
    intro a ha hne
    obtain ⟨hzero, i, hi⟩ := h a ha
    refine ⟨hzero, (exists_clearSlot_iff g hzero).mpr ⟨i, ?_, hi⟩⟩
    rintro rfl
    exact hne (hi.symm.trans hg)
  cases removed with
  | true =>
      refine ⟨fun _ a ha ↦ ?_, fun _ ↦ Or.inl rfl⟩
      obtain ⟨hne, ha⟩ := Finset.mem_erase.mp ha
      exact hother a ha hne
  | false =>
      constructor
      · intro hkeeps a ha
        by_cases hne : a = addr
        · subst hne
          rcases hkeeps with hfalse | hnot | hslot
          · exact absurd hfalse (by simp)
          · exact absurd ha hnot
          · exact ⟨(h a ha).1, (exists_clearSlot_iff g (h a ha).1).mpr hslot⟩
        · exact hother a ha hne
      · intro hall
        by_cases hmem : addr ∈ t.auto
        · obtain ⟨hne, hslot⟩ := hall addr hmem
          exact Or.inr (Or.inr ((exists_clearSlot_iff g hne).mp hslot))
        · exact Or.inr (Or.inl hmem)

theorem keepsHeld_iff {t : LockTable} (h : AllHeld t) {e : Event} (he : t.Honest e) :
    KeepsHeld t e ↔ AllHeld (t.step e) := by
  cases e with
  | block addr time added => exact keepsHeld_block_iff h addr time added
  | unblock g addr now removed => exact keepsHeld_unblock_iff h removed he.1
  | reading now => exact iff_of_true trivial h
  | detect queue => exact iff_of_true trivial h
  | detected policy src sent => exact iff_of_true trivial h
  | store index pktMeta => exact iff_of_true trivial h

/-- In every state of a run, every automatically blocked address has a slot of `count_down`, exactly
when every event of the run keeps the addresses held. -/
theorem autoBlocked_held_iff (pol : PolicyTable) (map : BlackListMap) (ticks : List Tick)
    (hrun : eventPoller pol (Poller.init map) ticks = .ok (s', log)) :
    (EachEvent LockTable.step KeepsHeld LockTable.init log ↔
      ∀ pre post, log = pre ++ post → AllHeld (pre.foldl LockTable.step LockTable.init)) ∧
    Follows s' (log.foldl LockTable.step LockTable.init) := by
  obtain ⟨hhonest, hfollows⟩ := eventPoller_follows hrun
  refine ⟨eachEvent_iff_invariant (fun t e h he ↦ keepsHeld_iff h he) ?_ hhonest, hfollows⟩
  exact fun addr hmem ↦ absurd hmem (Finset.notMem_empty addr)

set_option maxRecDepth 4000 in
theorem one_source_held : AllHeld (lockEvents.foldl LockTable.step LockTable.init) :=
  (autoBlocked_held_iff strictTable emptyMap lockTicks rfl).1.mp (by decide) lockEvents []
    (List.append_nil lockEvents).symm

def closedTick (now : UInt64) : Tick :=
  { plainTick now [] with reply := fun _ ↦ { MapReply.granted with objGet := -1 } }

set_option maxRecDepth 4000 in
/-- The black list cannot be opened in the iteration that releases the lock. -/
theorem lost_after_failed_release :
    ∃ t log, eventPoller strictTable (Poller.init emptyMap)
        (lockTicks ++ waitTicks ++ [closedTick 106]) = .ok (t, log) ∧
      7 ∈ (log.foldl LockTable.step LockTable.init).auto ∧
      ∀ g, (t.countDown g).addr ≠ 7 := by
  refine ⟨_, lockEvents ++ waitEvents ++ [.reading 106, .detect [], .unblock 0 7 106 false], rfl,
    by decide, by decide +kernel⟩

/-! ## Locks that expire -/

def ScanDue (s : Poller) (tick : Tick) : Prop :=
  (syncClock tick.now s).prevTime.toNat + 1 ≤ tick.now.toNat

instance (s : Poller) (tick : Tick) : Decidable (ScanDue s tick) := Nat.decLe _ _

def NoneExpired (now : UInt64) (cd : CountDown) : Prop :=
  ∀ g, (cd g).addr ≠ 0 → now.toNat < (cd g).stamp.toNat + lockTime.toNat

/-- If a scan is due, no expired lock is left in a slot, and no address whose slot was cleared is on
the black list. -/
def ReleasesExpired (pol : PolicyTable) (s : Poller) (tick : Tick) : Prop :=
  ScanDue s tick → ∀ x s' es, detectPhase pol tick (syncClock tick.now s) = .ok x →
    iteration pol s tick = .ok (s', es) →
      NoneExpired tick.now s'.countDown ∧
        ∀ g, (x.1.countDown g).addr ≠ 0 → (s'.countDown g).addr = 0 →
          (x.1.countDown g).addr ∉ s'.map.entries

/-- If a scan is due, its gate opens, or there is nothing to release. -/
def ScansInTime (s : Poller) (tick : Tick) : Prop :=
  ScanDue s tick → tick.now - (syncClock tick.now s).prevTime = 1 ∨
    NoneExpired tick.now s.countDown

def SlotFresh (now : UInt64) (slot : Slot) : Prop :=
  slot.addr ≠ 0 → now - slot.stamp.toUInt64 < lockTime

theorem releaseSlot_fresh (tick : Tick) (acc : Poller × List Event) (g : Fin ipDynamic) :
    SlotFresh tick.now ((releaseSlot tick acc g).1.countDown g) := by
  rcases releaseSlot_cases tick acc g with ⟨hkeep, hkept⟩ | ⟨-, -, hreleased⟩
  · rw [hkept]
    exact hkeep.resolve_left
  · rw [hreleased]
    intro hne
    simp [released] at hne

theorem releaseSlot_keeps_fresh {acc : Poller × List Event} {i : Fin ipDynamic}
    (h : SlotFresh tick.now (acc.1.countDown i)) (g : Fin ipDynamic) :
    SlotFresh tick.now ((releaseSlot tick acc g).1.countDown i) := by
  by_cases hig : i = g
  · subst hig
    exact releaseSlot_fresh tick acc i
  · rcases releaseSlot_cases tick acc g with ⟨-, hkept⟩ | ⟨-, -, hreleased⟩
    · rwa [hkept]
    · rw [hreleased, released]
      dsimp only
      rwa [Function.update_of_ne hig]

theorem scanSlots_fresh (tick : Tick) (s : Poller) (g : Fin ipDynamic) :
    SlotFresh tick.now ((scanSlots tick s).1.countDown g) := by
  unfold scanSlots
  suffices hloop : ∀ (l : List (Fin ipDynamic)) acc,
      (g ∈ l ∨ SlotFresh tick.now (acc.1.countDown g)) →
      SlotFresh tick.now ((l.foldl (releaseSlot tick) acc).1.countDown g) from
    hloop (List.finRange ipDynamic) (s, []) (Or.inl (List.mem_finRange g))
  intro l
  induction l with
  | nil => exact fun acc h ↦ h.resolve_left List.not_mem_nil
  | cons i l ih =>
      intro acc h
      apply ih
      rcases h with hmem | hfresh
      · rcases List.mem_cons.mp hmem with rfl | hmem
        · exact Or.inr (releaseSlot_fresh tick acc g)
        · exact Or.inl hmem
      · exact Or.inr (releaseSlot_keeps_fresh hfresh i)

/-- Every slot of `cd` still holds its address, or is cleared and the address off the black list. -/
def ClearedGone (cd : CountDown) (r : Poller × List Event) : Prop :=
  ∀ g, r.1.countDown g = cd g ∨
    ((r.1.countDown g).addr = 0 ∧ (cd g).addr ∉ r.1.map.entries)

theorem ClearedGone.release {cd : CountDown} {acc : Poller × List Event} (h : ClearedGone cd acc)
    {g : Fin ipDynamic} (hreply : (tick.reply g).Succeeds) (haddr : (acc.1.countDown g).addr ≠ 0) :
    ClearedGone cd (released tick acc g) := by
  intro i
  unfold released
  dsimp only
  by_cases hig : i = g
  · subst hig
    have hsame : acc.1.countDown i = cd i := (h i).resolve_right fun hzero ↦ haddr hzero.1
    refine Or.inr ⟨by simp, ?_⟩
    rw [← hsame]
    exact hreply.not_mem_unblock _ _
  · rw [Function.update_of_ne hig, policyChangeBlackList_unblock_entries]
    refine (h i).imp_right fun hgone ↦ ⟨hgone.1, ?_⟩
    split
    · exact fun hmem ↦ hgone.2 (Finset.mem_of_mem_erase hmem)
    · exact hgone.2

theorem scanSlots_gone (hreply : ∀ g, (tick.reply g).Succeeds) :
    ClearedGone s.countDown (scanSlots tick s) :=
  scanSlots_invariant (ClearedGone s.countDown) (fun _ g h haddr _ ↦ h.release (hreply g) haddr)
    fun _ ↦ Or.inl rfl

theorem releasesExpired_of_gate (hs : s.queue.length ≤ queueSlots)
    (hreply : ∀ g, (tick.reply g).Succeeds)
    (hgate : tick.now - (syncClock tick.now s).prevTime = 1) : ReleasesExpired pol s tick := by
  intro _ x s' es hx hrun
  obtain ⟨x', hx', -, rfl, -⟩ := (iteration_eq_ok_iff hs).mp hrun
  obtain rfl : x' = x := by simpa [hx] using hx'.symm
  rw [scanPhase_of_gate ((detectPhase_prevTime hx).symm ▸ hgate)]
  have hfresh := scanSlots_fresh tick x'.1
  have hgone : ClearedGone x'.1.countDown (scanSlots tick x'.1) := scanSlots_gone hreply
  generalize scanSlots tick x'.1 = y at hfresh hgone
  constructor
  · intro g hne
    by_contra hold
    have hle : (y.1.countDown g).stamp.toNat + lockTime.toNat ≤ tick.now.toNat := Nat.not_lt.mp hold
    exact (expired_iff (le_trans (Nat.le_add_right _ _) hle)).mpr hle (hfresh g hne)
  · intro g hne hzero
    rcases hgone g with hsame | hcleared
    · exact absurd (hsame ▸ hzero) hne
    · exact hcleared.2

/-- An iteration that passes both gates by leaves the slots and the black list alone. -/
theorem Synced.iteration_closed {r : UInt64} (h : Synced r s)
    (hgate : tick.now - (syncClock tick.now s).prevTime ≠ 1)
    (hrun : iteration pol s tick = .ok (s', es)) :
    detectPhase pol tick (syncClock tick.now s) = .ok (syncClock tick.now s, []) ∧
      s'.countDown = s.countDown := by
  have hsync := h.sync tick.now
  have hidle : detectPhase pol tick (syncClock tick.now s) = .ok (syncClock tick.now s, []) := by
    unfold detectPhase
    rw [if_neg]
    rwa [hsync.timeStart, ← hsync.prevTime]
  refine ⟨hidle, ?_⟩
  obtain ⟨x, hx, -, rfl, -⟩ := (iteration_eq_ok_iff h.queue).mp hrun
  obtain rfl : (syncClock tick.now s, []) = x := by simpa [hidle] using hx
  rw [scanPhase_of_not_gate hgate]
  exact syncClock_countDown tick.now s

theorem Synced.releasesExpired_iff {r : UInt64} (h : Synced r s)
    (hreply : ∀ g, (tick.reply g).Succeeds) (hrun : iteration pol s tick = .ok (s', es)) :
    ReleasesExpired pol s tick ↔ ScansInTime s tick := by
  by_cases hgate : tick.now - (syncClock tick.now s).prevTime = 1
  · exact iff_of_true (releasesExpired_of_gate h.queue hreply hgate) fun _ ↦ Or.inl hgate
  · apply forall_congr'
    intro _
    rw [or_iff_right hgate]
    constructor
    · intro hrelease
      obtain ⟨hidle, hsame⟩ := h.iteration_closed hgate hrun
      exact hsame ▸ (hrelease _ s' es hidle hrun).1
    · intro hnone x t fs hx hrun'
      obtain ⟨hidle, hsame⟩ := h.iteration_closed hgate hrun'
      obtain rfl : (syncClock tick.now s, []) = x := by simpa [hidle] using hx
      refine ⟨hsame.symm ▸ hnone, fun g hne hzero ↦ absurd ?_ hne⟩
      rwa [syncClock_countDown, ← hsame]

theorem scansInTime_of_smooth (hclock : (ticks.map (·.now)).Pairwise (· ≤ ·))
    (hsmooth : Smooth (ticks.map (·.now)))
    (hrun : eventPoller pol (Poller.init map) ticks = .ok (t, log)) :
    Along (iteration pol) ScansInTime (Poller.init map) ticks := by
  have hon := (along_onTime_iff hclock hrun).mpr hsmooth
  refine Along.imp (I := fun s ↦ ∃ r, Synced r s) ?_ ?_ ⟨0, Synced.init map⟩ hon
  · rintro s tick s' es ⟨r, hs⟩ hstep
    exact ⟨_, hs.step hstep⟩
  · rintro s tick - ⟨r, hs⟩ honTime hdue
    have hsync := hs.sync tick.now
    rw [ScanDue, hsync.prevTime, ← hsync.timeStart] at hdue
    rw [hsync.prevTime, ← hsync.timeStart]
    exact Or.inl (honTime hdue)

/-- Along a run whose map operations succeed, every iteration a second after the last scan releases
what has expired exactly when its scan runs or nothing has expired. -/
theorem expired_locks_released_iff (pol : PolicyTable) (map : BlackListMap) (ticks : List Tick)
    (hreply : ∀ tick ∈ ticks, ∀ g, (tick.reply g).Succeeds)
    (hrun : eventPoller pol (Poller.init map) ticks = .ok (t, log)) :
    Along (iteration pol) (ReleasesExpired pol) (Poller.init map) ticks ↔
      Along (iteration pol) ScansInTime (Poller.init map) ticks := by
  refine along_congr (I := fun s ↦ ∃ r, Synced r s) ?_ ?_ ⟨0, Synced.init map⟩ hrun
  · rintro s tick s' es ⟨r, hs⟩ hstep
    exact ⟨_, hs.step hstep⟩
  · rintro s tick hmem s' es ⟨r, hs⟩ hstep
    exact hs.releasesExpired_iff (hreply tick hmem) hstep

theorem plainTick_succeeds (now : UInt64) (l : List PktMeta) (g : Fin ipDynamic) :
    ((plainTick now l).reply g).Succeeds := MapReply.granted_succeeds

set_option maxRecDepth 4000 in
theorem released_after_five_seconds :
    Along (iteration strictTable) (ReleasesExpired strictTable) (Poller.init emptyMap)
      (lockTicks ++ waitTicks ++ [plainTick 106 []]) :=
  (expired_locks_released_iff strictTable emptyMap (lockTicks ++ waitTicks ++ [plainTick 106 []])
    (by simp [lockTicks, waitTicks, plainTick_succeeds]) rfl).mpr
    (scansInTime_of_smooth (by decide) (by decide) rfl)

def lockedPoller : Poller where
  timeStart := 101
  prevTime := 101
  queue := []
  countDown := enterSlot (fun _ ↦ ⟨0, 0⟩) 7 101
  map := ⟨{7}, {3}, MapReply.granted.info⟩

set_option maxRecDepth 4000 in
theorem lock_not_released :
    ¬ Along (iteration strictTable) (ReleasesExpired strictTable) (Poller.init emptyMap)
      [plainTick 100 [packet 7 0x0A0A0A0A], plainTick 101 [], plainTick 108 []] := by
  intro h
  have hlate := ((h.2 _ _ rfl).2 lockedPoller _ rfl).1
  have hidle : detectPhase strictTable (plainTick 108 []) (syncClock 108 lockedPoller) =
      .ok (lockedPoller, []) := if_neg (by decide)
  have hexpired := (hlate (by decide) _ lockedPoller _ hidle rfl).1 0 (by decide)
  exact absurd hexpired (by decide)

end AntiDos
