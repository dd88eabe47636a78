import AntiDos.Filter.Verdict
import AntiDos.Lib.Transducer

/-!
# The filter on all CPUs

The program runs on the CPU at which a frame arrives. `xdp_stats_map` has one array of records for
each CPU; the trace pipe and the perf map are shared. The lists may change between two frames.
-/

namespace AntiDos

open Faulting

variable {n : ℕ}

/-- A frame at one of the CPUs, and the lists at that moment. -/
structure Arrival (n : ℕ) where
  cpu : Fin n
  frame : List UInt8
  whiteList : Finset UInt32
  blackList : Finset UInt32

/-- `xdp_stats_map`: only the keys below `XDP_ACTION_MAX` can be looked up. -/
abbrev StatsMap (n : ℕ) := Fin n → UInt32 → DataRec

structure Kernel (n : ℕ) where
  stats : StatsMap n
  trace : List Printk
  perf : List PerfOutput

def Kernel.init (n : ℕ) : Kernel n := ⟨fun _ _ ↦ ⟨0, 0⟩, [], []⟩

/-- The maps as the program sees them on the CPU of `a`. -/
def Kernel.view (k : Kernel n) (a : Arrival n) : FilterState where
  whiteList := a.whiteList
  blackList := a.blackList
  stats := fun key ↦ if key < xdpActionMax then some (k.stats a.cpu key) else none
  trace := k.trace
  perf := k.perf

/-- The maps after the program has run on `cpu` and left `s`. -/
def Kernel.store (k : Kernel n) (cpu : Fin n) (s : FilterState) : Kernel n where
  stats := Function.update k.stats cpu fun key ↦ (s.stats key).getD (k.stats cpu key)
  trace := s.trace
  perf := s.perf

structure Verdict where
  action : UInt32
  length : ℕ
  deriving DecidableEq

def processFrame (k : Kernel n) (a : Arrival n) :
    Except FilterFault (Kernel n × List Verdict) := do
  let r ← xdpParserFunc (k.view a) a.frame
  .ok (k.store a.cpu r.2, [⟨r.1, a.frame.length⟩])

/-! ## One frame -/

def Arrival.inspected (a : Arrival n) : ProgramEnd × List Printk :=
  inspect a.frame a.whiteList a.blackList

def Arrival.verdict (a : Arrival n) : Verdict := ⟨a.inspected.1.action, a.frame.length⟩

/-- `rec->rx_packets++` and `rec->rx_bytes += len` for `key` on `cpu`. -/
def StatsMap.count (m : StatsMap n) (cpu : Fin n) (key : UInt32) (len : ℕ) : StatsMap n :=
  Function.update m cpu (Function.update (m cpu) key
    ⟨(m cpu key).rxPackets + 1, (m cpu key).rxBytes + UInt64.ofNat len⟩)

def perfFlags (m : PktMeta) : UInt64 := m.pktLen.toUInt64 <<< 32 ||| bpfFCurrentCpu

/-- The maps after a frame on which the program ends with `e`, having written `lines`. -/
def Kernel.finish (k : Kernel n) (a : Arrival n) (lines : List Printk) : ProgramEnd → Kernel n
  | .ret _ => { k with trace := k.trace ++ lines }
  | .out action m =>
      { stats := k.stats.count a.cpu action a.frame.length
        trace := k.trace ++ lines
        perf := if action = xdpPass then k.perf ++ [⟨perfFlags m, m⟩] else k.perf }

def Kernel.after (k : Kernel n) (a : Arrival n) : Kernel n :=
  k.finish a a.inspected.2 a.inspected.1

theorem inspected_action_lt (a : Arrival n) : a.inspected.1.action < xdpActionMax := by
  rw [Arrival.inspected, inspect_action]
  split <;> decide

theorem Kernel.store_view (k : Kernel n) (a : Arrival n) (trace : List Printk)
    (perf : List PerfOutput) :
    k.store a.cpu { k.view a with trace := trace, perf := perf } =
      { k with trace := trace, perf := perf } := by
  have hsame : (fun key ↦ ((k.view a).stats key).getD (k.stats a.cpu key)) = k.stats a.cpu := by
    funext key
    simp only [view]
    split <;> rfl
  rw [store, hsame, Function.update_eq_self]

theorem Kernel.store_count (k : Kernel n) (a : Arrival n) {key : UInt32}
    (rec : DataRec) (trace : List Printk) (perf : List PerfOutput) :
    k.store a.cpu { k.view a with
        stats := Function.update (k.view a).stats key (some rec), trace := trace, perf := perf } =
      ⟨Function.update k.stats a.cpu (Function.update (k.stats a.cpu) key rec), trace, perf⟩ := by
  have hcell : (fun key' ↦ (Function.update (k.view a).stats key (some rec) key').getD
      (k.stats a.cpu key')) = Function.update (k.stats a.cpu) key rec := by
    funext key'
    by_cases hkey : key' = key
    · subst hkey
      simp
    · rw [Function.update_of_ne hkey, Function.update_of_ne hkey]
      simp only [view]
      split <;> rfl
  rw [store, hcell]

/-- The program runs to its end on every frame, and changes nothing but what `after` says. -/
theorem processFrame_eq (k : Kernel n) (a : Arrival n) :
    processFrame k a = .ok (k.after a, [a.verdict]) := by
  have hlt := inspected_action_lt a
  have hview : inspect a.frame (k.view a).whiteList (k.view a).blackList = a.inspected := rfl
  unfold processFrame Kernel.after Arrival.verdict
  rw [xdpParserFunc_eq, hview]
  generalize a.inspected = r at hlt
  obtain ⟨e, lines⟩ := r
  cases e with
  | ret action => exact congrArg (fun k' ↦ Except.ok (k', _)) (k.store_view a _ _)
  | out action m =>
      have hrec : (k.view a).stats action = some (k.stats a.cpu action) := if_pos hlt
      have hle : ¬ xdpActionMax ≤ action := UInt32.not_le.mpr hlt
      dsimp only
      simp only [ok_bind, xdpStatsRecordAction, hle, if_false, hrec]
      by_cases hpass : action = xdpPass
      · simp only [hpass, Kernel.finish, ne_eq, not_true_eq_false, if_false, if_true]
        exact congrArg (fun k' ↦ Except.ok (k', _)) (k.store_count a _ _ _)
      · simp only [hpass, Kernel.finish, ne_eq, not_false_eq_true, if_false, if_true]
        exact congrArg (fun k' ↦ Except.ok (k', _)) (k.store_count a _ _ _)

theorem processFrames_eq (k : Kernel n) (as : List (Arrival n)) :
    Transducer.run processFrame k as = .ok (as.foldl Kernel.after k, as.map Arrival.verdict) := by
  induction as generalizing k with
  | nil => rfl
  | cons a as ih =>
      rw [Transducer.run_cons_of_ok (processFrame_eq k a), ih]
      rfl

end AntiDos
