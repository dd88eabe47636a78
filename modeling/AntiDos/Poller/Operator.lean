import AntiDos.Poller.Descriptors

/-!
# The addresses of the operator

The entries of `black_list` do not say who made them, and the poller deletes by address. An address
that `update_list` has stored stays until the poller releases a lock of its own on the same
address, and the poller releases no address that it has not blocked.
-/

namespace AntiDos

open Faulting Tasks Transducer

variable {pol : PolicyTable} {map : BlackListMap} {t : Machine} {actions : List Action}
  {log : List Output}

/-- The black list as the outputs of a run tell it, and the addresses the poller has blocked so far.
-/
structure Ledger where
  entries : Finset UInt32
  blocked : Finset UInt32

namespace Ledger

def step (l : Ledger) : Output → Ledger
  | .event (.block addr _ added) =>
      ⟨if added then insert addr l.entries else l.entries, insert addr l.blocked⟩
  | .event (.unblock _ addr _ removed) =>
      ⟨if removed then l.entries.erase addr else l.entries, l.blocked⟩
  | .stored addr ok => ⟨if ok then insert addr l.entries else l.entries, l.blocked⟩
  | _ => l

/-- A release is made of an address that was blocked. -/
def Rightful (l : Ledger) : Output → Prop
  | .event (.unblock _ addr _ _) => addr ∈ l.blocked
  | _ => True

/-- The ledger has the entries of the map, and every address in a slot was blocked. -/
structure Tracks (l : Ledger) (s : Poller) : Prop where
  entries : s.map.entries = l.entries
  slots : ∀ g, (s.countDown g).addr ≠ 0 → (s.countDown g).addr ∈ l.blocked

variable {l : Ledger} {s s' : Poller} {out : List Output}

theorem step_of_quiet (l : Ledger) {e : Event} (he : e.Quiet) : l.step (.event e) = l := by
  cases e <;> first | rfl | exact he.elim

theorem foldl_of_quiet (l : Ledger) {es : List Event} (hes : ∀ e ∈ es, e.Quiet) :
    EachEvent step Rightful l (es.map .event) ∧ (es.map Output.event).foldl step l = l := by
  induction es with
  | nil => exact ⟨trivial, rfl⟩
  | cons e es ih =>
      have hquiet : e.Quiet := hes e List.mem_cons_self
      have hrest := ih fun e' he' ↦ hes e' (List.mem_cons_of_mem e he')
      rw [List.map_cons, EachEvent, List.foldl_cons, l.step_of_quiet hquiet]
      refine ⟨⟨?_, hrest.1⟩, hrest.2⟩
      cases e <;> trivial

theorem Tracks.effect (h : l.Tracks s) (heffect : Effect s s' out) :
    EachEvent step Rightful l out ∧ (out.foldl step l).Tracks s' := by
  cases heffect with
  | quiet es hes hmap hslots =>
      obtain ⟨hrightful, hsame⟩ := l.foldl_of_quiet hes
      rw [hsame]
      exact ⟨hrightful, by rw [hmap, h.entries], by rw [hslots]; exact h.slots⟩
  | blocked p addr sent now r hmap hslots =>
      refine ⟨⟨trivial, trivial, trivial, trivial⟩, ?_, ?_⟩
      · rw [hmap, policyChangeBlackList_block_entries, h.entries]
        rfl
      · intro g hne
        rw [hslots] at hne ⊢
        change _ ∈ insert addr l.blocked
        rcases enterSlot_cases s.countDown addr now.toUInt32 with ⟨i, -, heq⟩ | ⟨-, heq⟩
        · rw [heq] at hne ⊢
          by_cases hgi : g = i
          · subst hgi
            rw [Function.update_self]
            exact Finset.mem_insert_self addr l.blocked
          · rw [Function.update_of_ne hgi] at hne ⊢
            exact Finset.mem_insert_of_mem (h.slots g hne)
        · rw [heq] at hne ⊢
          exact Finset.mem_insert_of_mem (h.slots g hne)
  | released g addr now r hg hne hmap hslots =>
      refine ⟨⟨trivial, hg ▸ h.slots g (hg.symm ▸ hne), trivial⟩, ?_, ?_⟩
      · rw [hmap, policyChangeBlackList_unblock_entries, h.entries]
        rfl
      · intro i hi
        rw [hslots] at hi ⊢
        by_cases hig : i = g
        · subst hig
          rw [Function.update_self] at hi
          exact absurd rfl hi
        · rw [Function.update_of_ne hig] at hi ⊢
          exact h.slots i hi

theorem Tracks.store (h : l.Tracks s) (addr : UInt32) (ok : Bool) :
    (l.step (.stored addr ok)).Tracks { s with map := s.map.apply (.stored addr ok) } where
  entries := by
    simp only [BlackListMap.apply, step, ← h.entries]
    split <;> rfl
  slots := h.slots

theorem mem_step {a : UInt32} {o : Output} (ha : a ∈ l.entries)
    (ho : ∀ g now, .event (.unblock g a now true) ≠ o) : a ∈ (l.step o).entries := by
  unfold step
  split
  · split
    · exact Finset.mem_insert_of_mem ha
    · exact ha
  · rename_i g addr now removed
    split
    · rename_i hremoved
      refine Finset.mem_erase.mpr ⟨?_, ha⟩
      rintro rfl
      exact ho g now (by rw [hremoved])
    · exact ha
  · split
    · exact Finset.mem_insert_of_mem ha
    · exact ha
  · exact ha

theorem mem_foldl {a : UInt32} {es : List Output} (ha : a ∈ l.entries)
    (hes : ∀ g now, .event (.unblock g a now true) ∉ es) : a ∈ (es.foldl step l).entries := by
  induction es generalizing l with
  | nil => exact ha
  | cons o es ih =>
      have hhead := mem_step ha fun g now heq ↦ hes g now (heq ▸ List.mem_cons_self)
      exact ih hhead fun g now hmem ↦ hes g now (List.mem_cons_of_mem o hmem)

theorem mem_blocked_step {a : UInt32} {o : Output} (ha : a ∈ (l.step o).blocked) :
    a ∈ l.blocked ∨ ∃ time added, .event (.block a time added) = o := by
  unfold step at ha
  split at ha
  · rename_i addr time added
    rcases Finset.mem_insert.mp ha with rfl | ha
    · exact Or.inr ⟨time, added, rfl⟩
    · exact Or.inl ha
  · exact Or.inl ha
  · exact Or.inl ha
  · exact Or.inl ha

theorem mem_blocked {a : UInt32} {es : List Output} (ha : a ∈ (es.foldl step l).blocked) :
    a ∈ l.blocked ∨ ∃ time added, .event (.block a time added) ∈ es := by
  induction es generalizing l with
  | nil => exact Or.inl ha
  | cons o es ih =>
      rcases ih ha with hone | ⟨time, added, hmem⟩
      · rcases mem_blocked_step hone with hl | ⟨time, added, rfl⟩
        · exact Or.inl hl
        · exact Or.inr ⟨time, added, List.mem_cons_self⟩
      · exact Or.inr ⟨time, added, List.mem_cons_of_mem o hmem⟩

end Ledger

theorem run_tracks (hrun : run (machineStep pol) (Machine.init map) actions = .ok (t, log)) :
    EachEvent Ledger.step Ledger.Rightful ⟨map.entries, ∅⟩ log ∧
      (log.foldl Ledger.step ⟨map.entries, ∅⟩).Tracks t.state := by
  have hinit : Ledger.Tracks ⟨map.entries, ∅⟩ (Machine.init map).state :=
    ⟨rfl, fun g hne ↦ absurd rfl hne⟩
  refine run_simulates (fun s (l : Ledger) ↦ l.Tracks s.state) ?_ hinit hrun
  intro s a s' out l htracks hstep
  rcases machineStep_effect hstep with heffect | ⟨addr, ok, rfl, -, hstate⟩
  · exact htracks.effect heffect
  · rw [hstate]
    exact ⟨⟨trivial, trivial⟩, htracks.store addr ok⟩

/-- An address that `update_list` has stored is on the black list until the poller releases it, and
the poller has blocked every address it releases. -/
theorem stored_until_released (pol : PolicyTable) (map : BlackListMap) (actions : List Action)
    (hrun : run (machineStep pol) (Machine.init map) actions = .ok (t, log)) :
    (∀ pre post a, log = pre ++ .stored a true :: post →
      (∀ g now, .event (.unblock g a now true) ∉ post) → a ∈ t.state.map.entries) ∧
    ∀ pre post g a now removed, log = pre ++ .event (.unblock g a now removed) :: post →
      ∃ time added, .event (.block a time added) ∈ pre := by
  obtain ⟨hrightful, htracks⟩ := run_tracks hrun
  constructor
  · rintro pre post a rfl hkept
    rw [htracks.entries, List.foldl_append, List.foldl_cons]
    exact Ledger.mem_foldl (Finset.mem_insert_self a _) hkept
  · rintro pre post g a now removed rfl
    rw [eachEvent_append] at hrightful
    have hblocked := hrightful.2.1
    exact (Ledger.mem_blocked hblocked).resolve_left (Finset.notMem_empty a)

/-- The operator stores the address that the poller has just blocked. -/
theorem stored_while_locked :
    ∃ t, run (machineStep strictTable) (Machine.init emptyMap)
        (blockActions .granted ++ [.store 7 4 .granted]) =
          .ok (t, blockLog .granted true ++ [.stored 7 true]) ∧ 7 ∈ t.state.map.entries :=
  ⟨_, rfl, (stored_until_released strictTable emptyMap
    (blockActions .granted ++ [.store 7 4 .granted]) rfl).1 (blockLog .granted true) [] 7 rfl
      (by simp)⟩

/-- All map operations of the action succeed. -/
def Action.Granted : Action → Prop
  | .advance tick => tick.window.reply = (fun _ _ ↦ .granted) ∧ tick.reply = fun _ ↦ .granted
  | .store _ _ reply => reply = .granted

theorem granted_of_plainTick {ticks ticks' : List Tick}
    (hplain : ∀ tick ∈ ticks, ∃ now l, tick = plainTick now l) (h : ∀ tick ∈ ticks', tick ∈ ticks) :
    ∀ a ∈ ticks'.map .advance, Action.Granted a := by
  intro a ha
  obtain ⟨tick, htick, rfl⟩ := List.mem_map.mp ha
  obtain ⟨now, l, rfl⟩ := hplain tick (h tick htick)
  exact ⟨rfl, rfl⟩

def storedPoller : Poller :=
  { lockedPoller with map := (storeElem 7 4 .granted lockedPoller.map).2 }

set_option maxRecDepth 4000 in
/-- The operator stores `7` in the second in which the poller has blocked it; five seconds later the
poller releases it. All map operations succeed. -/
theorem stored_address_released :
    ∃ actions t log, run (machineStep strictTable) (Machine.init emptyMap) actions = .ok (t, log) ∧
      (∀ a ∈ actions, a.Granted) ∧ .stored 7 true ∈ log ∧ 7 ∉ t.state.map.entries := by
  have hlock : eventPoller strictTable (Poller.init emptyMap) lockTicks =
      .ok (lockedPoller, lockEvents) := rfl
  obtain ⟨t, log, hwait, hgone⟩ : ∃ t log,
      eventPoller strictTable storedPoller (waitTicks ++ [plainTick 106 []]) = .ok (t, log) ∧
        7 ∉ t.map.entries := ⟨_, _, rfl, by decide +kernel⟩
  obtain ⟨ticks, out, hrun, -, hticks⟩ := eventPoller_steps hlock
  obtain ⟨ticks', out', hrun', -, hticks'⟩ := eventPoller_steps hwait
  have hgranted := granted_of_plainTick (by simp [lockTicks]) hticks
  have hgranted' := granted_of_plainTick (by simp [waitTicks]) hticks'
  have hstore : run (machineStep strictTable) ⟨lockedPoller, []⟩ [.store 7 4 .granted] =
      .ok (⟨storedPoller, []⟩, [.stored 7 true]) := rfl
  refine ⟨_, _, _, run_append (run_append hrun hstore) hrun', fun a ha ↦ ?_, by simp, hgone⟩
  rcases List.mem_append.mp ha with ha | ha
  · rcases List.mem_append.mp ha with ha | ha
    · exact hgranted a ha
    · rw [List.mem_singleton.mp ha]
      rfl
  · exact hgranted' a ha

end AntiDos
