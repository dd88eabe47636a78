import AntiDos.Stats.Collect

/-!
# The statistics under traffic

`xdp_stats` copies the records of one CPU after the other while the filter goes on counting on all
of them. Here the frames and the copies come in any order; when no frame comes in between, a poll
reads what the map holds.
-/

namespace AntiDos

open Transducer

variable {n : ℕ}

/-! ## The machine -/

/-- Where `stats_poll` stands: before the lookups for some actions, or in the lookup for one of
them, with CPUs left to be copied. `begun` is the map at the start of that lookup. -/
inductive Stage (n : ℕ) where
  | collect (keys : List (Fin statsActions))
  | lookup (key : Fin statsActions) (begun : StatsMap n) (now : UInt64) (cpus : List (Fin n))
      (keys : List (Fin statsActions))

/-- `polled` says that the first reading is over; `values` is the array that the lookup fills. -/
structure Monitor (n : ℕ) where
  kernel : Kernel n
  record : StatsRecord
  prev : StatsRecord
  polled : Bool
  values : Fin n → DataRec
  stage : Stage n

def Monitor.init (k : Kernel n) : Monitor n :=
  ⟨k, .zero, .zero, false, fun _ ↦ ⟨0, 0⟩, .collect (List.finRange statsActions)⟩

/-- `printed` stands for the call of `stats_print`. -/
inductive MonitorEvent (n : ℕ) where
  | verdict (v : Verdict)
  | collected (key : Fin statsActions) (begun ended : StatsMap n) (total : DataRec)
  | printed (record prev : StatsRecord)

/-- A frame arrives at one of the CPUs, or `xdp_stats` goes on; `now` is what the clock shows. -/
inductive MonitorMove (n : ℕ) where
  | frame (a : Arrival n)
  | advance (now : UInt64)

def actionKey (key : Fin statsActions) : UInt32 := UInt32.ofNat key

theorem actionKey_lt : ∀ key, actionKey key < xdpActionMax := by
  decide

/-- A poll ends with the report; the next one begins by saving the records. -/
def Monitor.advance (now : UInt64) (s : Monitor n) : Monitor n × List (MonitorEvent n) :=
  match s.stage with
  | .collect [] =>
      ({ s with prev := s.record, polled := true, stage := .collect (List.finRange statsActions) },
        if s.polled then [.printed s.record s.prev] else [])
  | .collect (key :: keys) =>
      ({ s with stage := .lookup key s.kernel.stats now (List.finRange n) keys }, [])
  | .lookup key begun now (cpu :: cpus) keys =>
      ({ s with
          values := Function.update s.values cpu (s.kernel.stats cpu (actionKey key))
          stage := .lookup key begun now cpus keys }, [])
  | .lookup key begun now [] keys =>
      let reply : CollectReply n := ⟨now, none, some s.values, ⟨0, 0⟩⟩
      let new := (mapCollect bpfMapTypePercpuArray reply (s.record key)).2
      ({ s with record := Function.update s.record key new, stage := .collect keys },
        [.collected key begun s.kernel.stats new.total])

def monitorStep (s : Monitor n) :
    MonitorMove n → Except FilterFault (Monitor n × List (MonitorEvent n))
  | .frame a => do
      let r ← processFrame s.kernel a
      .ok ({ s with kernel := r.1 }, r.2.map .verdict)
  | .advance now => .ok (s.advance now)

theorem monitorStep_frame (s : Monitor n) (a : Arrival n) :
    monitorStep s (.frame a) =
      .ok ({ s with kernel := s.kernel.after a }, [.verdict a.verdict]) := by
  rw [monitorStep, processFrame_eq]
  rfl

/-! ## The program left alone -/

theorem run_copies (s : Monitor n) (key : Fin statsActions) (begun : StatsMap n) (now : UInt64)
    (cpus : List (Fin n)) (keys : List (Fin statsActions)) :
    run monitorStep { s with stage := .lookup key begun now cpus keys }
        (List.replicate cpus.length (.advance now)) =
      .ok ({ s with
        values := fun cpu ↦
          if cpu ∈ cpus then s.kernel.stats cpu (actionKey key) else s.values cpu
        stage := .lookup key begun now [] keys }, []) := by
  induction cpus generalizing s with
  | nil => simp
  | cons cpu cpus ih =>
      rw [List.length_cons, List.replicate_succ]
      refine run_cons_eq_ok_iff.mpr ⟨_, _, [], rfl, ?_, rfl⟩
      have hrest := ih { s with
        values := Function.update s.values cpu (s.kernel.stats cpu (actionKey key)) }
      refine hrest.trans ?_
      simp only [Except.ok.injEq, Prod.mk.injEq, Monitor.mk.injEq, true_and, and_true]
      funext i
      by_cases hi : i ∈ cpus
      · simp [hi]
      · by_cases heq : i = cpu
        · simp [heq]
        · simp [hi, heq]

theorem run_lookup (s : Monitor n) (key : Fin statsActions) (now : UInt64)
    (keys : List (Fin statsActions)) :
    let values := fun cpu ↦ s.kernel.stats cpu (actionKey key)
    let new := (mapCollect bpfMapTypePercpuArray ⟨now, none, some values, ⟨0, 0⟩⟩
      (s.record key)).2
    run monitorStep { s with stage := .collect (key :: keys) }
        (List.replicate (n + 2) (.advance now)) =
      .ok ({ s with
        record := Function.update s.record key new
        values := values
        stage := .collect keys }, [.collected key s.kernel.stats s.kernel.stats new.total]) := by
  intro values new
  have hcopied := run_copies s key s.kernel.stats now (List.finRange n) keys
  rw [List.length_finRange] at hcopied
  simp only [List.mem_finRange, if_true] at hcopied
  rw [List.replicate_succ, List.replicate_succ']
  refine run_cons_eq_ok_iff.mpr ⟨_, _, _, rfl, ?_, rfl⟩
  exact run_append hcopied (run_cons_eq_ok_iff.mpr ⟨_, _, _, rfl, rfl, rfl⟩)

theorem run_collect (s : Monitor n) (clock : Fin statsActions → UInt64)
    (keys : List (Fin statsActions)) :
    ∃ values log, run monitorStep { s with stage := .collect keys }
        (keys.flatMap fun key ↦ List.replicate (n + 2) (.advance (clock key))) =
      .ok ({ s with
        record := keys.foldl (fun record key ↦ Function.update record key
          (mapCollect bpfMapTypePercpuArray ⟨clock key, none,
            some fun cpu ↦ s.kernel.stats cpu (actionKey key), ⟨0, 0⟩⟩ (record key)).2) s.record
        values := values
        stage := .collect [] }, log) := by
  induction keys generalizing s with
  | nil => exact ⟨s.values, [], rfl⟩
  | cons key keys ih =>
      have hone := run_lookup s key (clock key) keys
      obtain ⟨values, log, hrest⟩ := ih { s with
        record := Function.update s.record key
          (mapCollect bpfMapTypePercpuArray ⟨clock key, none,
            some fun cpu ↦ s.kernel.stats cpu (actionKey key), ⟨0, 0⟩⟩ (s.record key)).2
        values := fun cpu ↦ s.kernel.stats cpu (actionKey key) }
      exact ⟨values, _, run_append hone hrest⟩

/-- When no frame comes in between, a poll collects what `stats_collect` reads from the map. -/
theorem run_statsCollect (s : Monitor n) (clock : Fin statsActions → UInt64) :
    ∃ moves values log, run monitorStep { s with stage := .collect (List.finRange statsActions) }
        moves =
      .ok ({ s with
        record := statsCollect bpfMapTypePercpuArray
          (fun key ↦ ⟨clock key, none, s.kernel.stats.lookup (actionKey key), ⟨0, 0⟩⟩) s.record
        values := values
        stage := .collect [] }, log) := by
  obtain ⟨values, log, hrun⟩ := run_collect s clock (List.finRange statsActions)
  have hlookup : ∀ key, s.kernel.stats.lookup (actionKey key) =
      some fun cpu ↦ s.kernel.stats cpu (actionKey key) :=
    fun key ↦ if_pos (actionKey_lt key)
  simp only [← hlookup] at hrun
  exact ⟨_, values, log, hrun⟩

end AntiDos
