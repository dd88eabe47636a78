import AntiDos.Filter.Cpus
import AntiDos.Filter.Reports
import Mathlib.Algebra.BigOperators.Fin
import Mathlib.Data.UInt

/-!
# The statistics of the filter

`xdp_stats` reports, for each action, the sum over the CPUs of the records of `xdp_stats_map`. A
frame whose source is on one of the lists is decided before `out`, where the frames are counted, so
the sums are those of the remaining frames.
-/

namespace AntiDos

open Bytes Transducer

variable {n : ℕ}

/-! ## Reading the map -/

/-- `bpf_map_lookup_elem` from user space: the records of all CPUs. -/
def StatsMap.lookup (m : StatsMap n) (key : UInt32) : Option (Fin n → DataRec) :=
  if key < xdpActionMax then some fun cpu ↦ m cpu key else none

/-- `map_get_value_percpu_array`; after a failed lookup `value` is what it was. -/
def mapGetValuePercpuArray (m : StatsMap n) (key : UInt32) (value : DataRec) : DataRec :=
  match m.lookup key with
  | none => value
  | some values =>
      (List.finRange n).foldl (fun sum i ↦
        ⟨sum.rxPackets + (values i).rxPackets, sum.rxBytes + (values i).rxBytes⟩) ⟨0, 0⟩

def StatsMap.total (m : StatsMap n) (key : UInt32) : DataRec :=
  ⟨∑ cpu, (m cpu key).rxPackets, ∑ cpu, (m cpu key).rxBytes⟩

theorem foldl_values (values : Fin n → DataRec) (cpus : List (Fin n)) (sum : DataRec) :
    cpus.foldl (fun sum i ↦
        ⟨sum.rxPackets + (values i).rxPackets, sum.rxBytes + (values i).rxBytes⟩) sum =
      ⟨sum.rxPackets + (cpus.map fun i ↦ (values i).rxPackets).sum,
        sum.rxBytes + (cpus.map fun i ↦ (values i).rxBytes).sum⟩ := by
  induction cpus generalizing sum with
  | nil => simp
  | cons i cpus ih =>
      rw [List.foldl_cons, ih]
      simp [add_assoc]

theorem mapGetValuePercpuArray_eq (m : StatsMap n) {key : UInt32} (hkey : key < xdpActionMax)
    (value : DataRec) : mapGetValuePercpuArray m key value = m.total key := by
  rw [mapGetValuePercpuArray, StatsMap.lookup, if_pos hkey]
  dsimp only
  rw [foldl_values, StatsMap.total, Fin.sum_univ_def, Fin.sum_univ_def, zero_add, zero_add]

theorem total_count (m : StatsMap n) (cpu : Fin n) (key key' : UInt32) (len : ℕ) :
    (m.count cpu key len).total key' =
      if key = key' then
        ⟨(m.total key').rxPackets + 1, (m.total key').rxBytes + UInt64.ofNat len⟩
      else m.total key' := by
  by_cases hkey : key = key'
  · subst hkey
    have hcell : ∀ i, m.count cpu key len i key =
        ⟨(m i key).rxPackets + if i = cpu then 1 else 0,
          (m i key).rxBytes + if i = cpu then UInt64.ofNat len else 0⟩ := by
      intro i
      unfold StatsMap.count
      by_cases hi : i = cpu
      · subst hi
        simp
      · simp [hi]
    simp [StatsMap.total, hcell, Finset.sum_add_distrib]
  · have hcell : ∀ i, m.count cpu key len i key' = m i key' := by
      intro i
      unfold StatsMap.count
      by_cases hi : i = cpu
      · subst hi
        rw [Function.update_self, Function.update_of_ne (Ne.symm hkey)]
      · rw [Function.update_of_ne hi]
    simp [StatsMap.total, hcell, hkey]

/-! ## What is counted -/

def tally (vs : List Verdict) : DataRec :=
  ⟨UInt64.ofNat vs.length, UInt64.ofNat (vs.map (·.length)).sum⟩

/-- For each action, `xdp_stats` reads the number of frames for which the program returned it, and
the number of their bytes. -/
def Accounted (k : Kernel n) (log : List Verdict) : Prop :=
  ∀ key < xdpActionMax, ∀ value,
    mapGetValuePercpuArray k.stats key value = tally (log.filter (·.action = key))

/-- The program returns `key` at `out`. -/
def ProgramEnd.counted (key : UInt32) : ProgramEnd → Bool
  | .ret _ => false
  | .out action _ => action = key

/-- The program returns `key` before `out`. -/
def ProgramEnd.uncounted (key : UInt32) : ProgramEnd → Bool
  | .ret action => action = key
  | .out _ _ => false

def Arrival.counted (key : UInt32) (a : Arrival n) : Bool := a.inspected.1.counted key

def Arrival.uncounted (key : UInt32) (a : Arrival n) : Bool := a.inspected.1.uncounted key

def DataRec.add (r s : DataRec) : DataRec :=
  ⟨r.rxPackets + s.rxPackets, r.rxBytes + s.rxBytes⟩

theorem DataRec.add_add (r s t : DataRec) : (r.add s).add t = r.add (s.add t) := by
  simp [add, add_assoc]

theorem DataRec.add_left_comm (r s t : DataRec) : r.add (s.add t) = s.add (r.add t) := by
  rw [← add_add, ← add_add]
  simp [add, add_comm]

theorem DataRec.left_eq_add (r s : DataRec) : r = r.add s ↔ s = ⟨0, 0⟩ := by
  cases r
  cases s
  simp [add]

theorem tally_cons (v : Verdict) (vs : List Verdict) :
    tally (v :: vs) = (⟨1, UInt64.ofNat v.length⟩ : DataRec).add (tally vs) := by
  simp [tally, DataRec.add, add_comm]

theorem Kernel.total_after (k : Kernel n) (a : Arrival n) (key : UInt32) :
    (k.after a).stats.total key =
      if a.counted key then (k.stats.total key).add ⟨1, UInt64.ofNat a.frame.length⟩
      else k.stats.total key := by
  unfold Kernel.after Arrival.counted
  cases a.inspected.1 with
  | ret action => simp [finish, ProgramEnd.counted]
  | out action m => simp [finish, ProgramEnd.counted, total_count, DataRec.add]

theorem total_foldl (k : Kernel n) (as : List (Arrival n)) (key : UInt32) :
    (as.foldl Kernel.after k).stats.total key =
      (k.stats.total key).add (tally ((as.filter (·.counted key)).map Arrival.verdict)) := by
  induction as generalizing k with
  | nil => simp [tally, DataRec.add]
  | cons a as ih =>
      rw [List.foldl_cons, ih, k.total_after]
      cases hcount : a.counted key with
      | true => simp [hcount, tally_cons, DataRec.add_add, Arrival.verdict]
      | false => simp [hcount]

theorem action_cases (a : Arrival n) (key : UInt32) :
    (a.verdict.action = key ∧ a.counted key = true ∧ a.uncounted key = false) ∨
      (a.verdict.action = key ∧ a.counted key = false ∧ a.uncounted key = true) ∨
        (a.verdict.action ≠ key ∧ a.counted key = false ∧ a.uncounted key = false) := by
  unfold Arrival.verdict Arrival.counted Arrival.uncounted
  dsimp only
  generalize a.inspected.1 = e
  cases e with
  | ret action =>
      simpa [ProgramEnd.action, ProgramEnd.counted, ProgramEnd.uncounted] using em (action = key)
  | out action m =>
      simpa [ProgramEnd.action, ProgramEnd.counted, ProgramEnd.uncounted] using em (action = key)

theorem tally_verdicts (as : List (Arrival n)) (key : UInt32) :
    tally ((as.map Arrival.verdict).filter (·.action = key)) =
      (tally ((as.filter (·.counted key)).map Arrival.verdict)).add
        (tally ((as.filter (·.uncounted key)).map Arrival.verdict)) := by
  induction as with
  | nil => simp [tally, DataRec.add]
  | cons a as ih =>
      rcases action_cases a key with ⟨haction, hc, hu⟩ | ⟨haction, hc, hu⟩ | ⟨haction, hc, hu⟩
      · simp [haction, hc, hu, tally_cons, ih, DataRec.add_add]
      · simp [haction, hc, hu, tally_cons, ih, DataRec.add_left_comm]
      · simp [haction, hc, hu, ih]

/-! ## The frames decided by a list -/

def Arrival.WhiteHit (a : Arrival n) : Prop :=
  EthIpv4 a.frame ∧ Ipv4Valid a.frame ∧ sourceAddr a.frame ∈ a.whiteList

/-- The source of the frame is black-listed, and not white-listed. -/
def Arrival.BlackHit (a : Arrival n) : Prop :=
  EthIpv4 a.frame ∧ Ipv4Valid a.frame ∧ sourceAddr a.frame ∉ a.whiteList ∧
    sourceAddr a.frame ∈ a.blackList

instance (a : Arrival n) : Decidable a.WhiteHit := inferInstanceAs (Decidable (_ ∧ _ ∧ _))

instance (a : Arrival n) : Decidable a.BlackHit := inferInstanceAs (Decidable (_ ∧ _ ∧ _ ∧ _))

theorem uncounted_iff (a : Arrival n) (key : UInt32) :
    a.uncounted key ↔ (key = xdpPass ∧ a.WhiteHit) ∨ (key = xdpDrop ∧ a.BlackHit) := by
  have hlen : Ipv4Valid a.frame → ¬ a.frame.length < 14 := by
    intro h
    have := h.1
    omega
  obtain ⟨action, m, l, htransport⟩ := inspectTransport_out a.frame
  simp only [Arrival.uncounted, Arrival.inspected, inspect, Arrival.WhiteHit, Arrival.BlackHit]
  by_cases hvalid : Ipv4Valid a.frame
  · by_cases heth : EthIpv4 a.frame
    · by_cases hwhite : sourceAddr a.frame ∈ a.whiteList
      · simp [hlen hvalid, heth, hvalid, hwhite, ProgramEnd.uncounted, eq_comm]
      · by_cases hblack : sourceAddr a.frame ∈ a.blackList
        · simp [hlen hvalid, heth, hvalid, hwhite, hblack, ProgramEnd.uncounted, eq_comm]
        · simp [hlen hvalid, heth, hvalid, hwhite, hblack, htransport, ProgramEnd.uncounted]
    · simp [hlen hvalid, heth, ProgramEnd.uncounted]
  · by_cases hshort : a.frame.length < 14 <;> by_cases heth : EthIpv4 a.frame <;>
      simp [hshort, heth, hvalid, ProgramEnd.uncounted]

theorem filter_uncounted (as : List (Arrival n)) (key : UInt32) :
    as.filter (·.uncounted key) =
      if key = xdpPass then as.filter (·.WhiteHit)
      else if key = xdpDrop then as.filter (·.BlackHit) else [] := by
  split_ifs with hpass hdrop
  · apply List.filter_congr
    intro a _
    rw [Bool.eq_iff_iff, uncounted_iff]
    have hne : xdpPass ≠ xdpDrop := by decide
    simp [hpass, hne]
  · apply List.filter_congr
    intro a _
    rw [Bool.eq_iff_iff, uncounted_iff]
    simp [hdrop]
  · rw [List.filter_eq_nil_iff]
    intro a _
    simp [uncounted_iff, hpass, hdrop]

/-- The frames that satisfy `p` make no difference to a sum modulo `2 ^ 64`. -/
def Vanish (p : Arrival n → Bool) (as : List (Arrival n)) : Prop :=
  2 ^ 64 ∣ (as.filter p).length ∧ 2 ^ 64 ∣ ((as.filter p).map (·.frame.length)).sum

instance (p : Arrival n → Bool) (as : List (Arrival n)) : Decidable (Vanish p as) :=
  inferInstanceAs (Decidable (_ ∧ _))

theorem tally_eq_zero_iff (p : Arrival n → Bool) (as : List (Arrival n)) :
    tally ((as.filter p).map Arrival.verdict) = ⟨0, 0⟩ ↔ Vanish p as := by
  have hzero : ∀ m : ℕ, UInt64.ofNat m = 0 ↔ 2 ^ 64 ∣ m := fun m ↦ by
    rw [← UInt64.toNat_inj, UInt64.toNat_ofNat', Nat.dvd_iff_mod_eq_zero]
    rfl
  rw [tally, DataRec.mk.injEq, hzero, hzero, List.length_map, List.map_map]
  rfl

theorem accounted_foldl_iff (as : List (Arrival n)) :
    Accounted (as.foldl Kernel.after (Kernel.init n)) (as.map Arrival.verdict) ↔
      Vanish (·.WhiteHit) as ∧ Vanish (·.BlackHit) as := by
  have hkey : ∀ key < xdpActionMax, (∀ value,
      mapGetValuePercpuArray (as.foldl Kernel.after (Kernel.init n)).stats key value =
        tally ((as.map Arrival.verdict).filter (·.action = key))) ↔
      Vanish (·.uncounted key) as := by
    intro key hlt
    have : Nonempty DataRec := ⟨⟨0, 0⟩⟩
    have hzero : (Kernel.init n).stats.total key = ⟨0, 0⟩ := by
      simp [Kernel.init, StatsMap.total]
    have hinit : ∀ r, DataRec.add ⟨0, 0⟩ r = r := fun r ↦ by simp [DataRec.add]
    simp only [mapGetValuePercpuArray_eq _ hlt, total_foldl, hzero, tally_verdicts, hinit]
    rw [forall_const, ← tally_eq_zero_iff]
    exact DataRec.left_eq_add _ _
  unfold Vanish at hkey ⊢
  simp only [filter_uncounted] at hkey
  constructor
  · intro h
    have hpass := (hkey xdpPass (by decide)).mp (h xdpPass (by decide))
    have hdrop := (hkey xdpDrop (by decide)).mp (h xdpDrop (by decide))
    exact ⟨by simpa using hpass, by simpa using hdrop⟩
  · rintro ⟨hwhite, hblack⟩ key hlt
    refine (hkey key hlt).mpr ?_
    split_ifs
    · exact hwhite
    · exact hblack
    · simp

/-- The statistics account for every frame of a run exactly when, modulo `2 ^ 64`, no frame of it
was decided by a list. -/
theorem statistics_accounted_iff (as : List (Arrival n)) :
    ∃ k, run processFrame (Kernel.init n) as = .ok (k, as.map Arrival.verdict) ∧
      (Accounted k (as.map Arrival.verdict) ↔
        Vanish (·.WhiteHit) as ∧ Vanish (·.BlackHit) as) :=
  ⟨_, processFrames_eq (Kernel.init n) as, accounted_foldl_iff as⟩

/-- One frame, passed by the white list. -/
theorem white_listed_not_accounted :
    ∃ k log, run processFrame (Kernel.init 1) [⟨0, tcpFrame, {sourceAddr tcpFrame}, ∅⟩] =
      .ok (k, log) ∧ ¬ Accounted k log := by
  refine ⟨_, _, processFrames_eq _ _, ?_⟩
  rw [accounted_foldl_iff]
  decide

end AntiDos
