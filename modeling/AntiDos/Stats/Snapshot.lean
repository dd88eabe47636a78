import AntiDos.Lib.Scan
import AntiDos.Stats.Monitor
import Mathlib.Algebra.BigOperators.Pi
import Mathlib.Algebra.Order.BigOperators.Group.List
import Mathlib.Algebra.Order.Monoid.Prod

/-!
# Snapshots of growing counters

While frames are counted between the copies of a lookup, what is collected need not be the total of
any one moment. But it lies between the true totals at the two ends of the lookup. So from one poll
to the next it only grows, and the differences that are printed add up.
-/

namespace AntiDos

open Scan Transducer

variable {n : ℕ}

/-! ## Totals without overflow -/

/-- Packets and bytes, as natural numbers. -/
def DataRec.counts (d : DataRec) : ℕ × ℕ := (d.rxPackets.toNat, d.rxBytes.toNat)

def NoWrap (c : ℕ × ℕ) : Prop := c.1 < 2 ^ 64 ∧ c.2 < 2 ^ 64

instance (c : ℕ × ℕ) : Decidable (NoWrap c) := inferInstanceAs (Decidable (_ ∧ _))

def StatsMap.cells (m : StatsMap n) (key : Fin statsActions) (cpu : Fin n) : ℕ × ℕ :=
  (m cpu (actionKey key)).counts

/-- The true total of an action over the CPUs. -/
def StatsMap.counts (m : StatsMap n) (key : Fin statsActions) : ℕ × ℕ := ∑ cpu, m.cells key cpu

def Arrival.gain (a : Arrival n) (key : Fin statsActions) : ℕ × ℕ :=
  if a.counted (actionKey key) then (1, a.frame.length) else 0

variable {c d : ℕ × ℕ} {k : Kernel n} {a : Arrival n} {key : Fin statsActions}

theorem NoWrap.mono (h : NoWrap d) (hle : c ≤ d) : NoWrap c :=
  ⟨hle.1.trans_lt h.1, hle.2.trans_lt h.2⟩

theorem counts_le_iff {x y : DataRec} :
    x.counts ≤ y.counts ↔ x.rxPackets ≤ y.rxPackets ∧ x.rxBytes ≤ y.rxBytes := by
  rw [UInt64.le_iff_toNat_le, UInt64.le_iff_toNat_le]
  exact Prod.mk_le_mk

theorem toNat_sum {ι : Type*} (s : Finset ι) (f : ι → UInt64) :
    (∑ i ∈ s, f i).toNat = (∑ i ∈ s, (f i).toNat) % 2 ^ 64 := by
  classical
  induction s using Finset.induction_on with
  | empty => rfl
  | insert i s hi ih =>
      rw [Finset.sum_insert hi, Finset.sum_insert hi, UInt64.toNat_add, ih, Nat.add_mod_mod]

theorem sumOverCpus_counts {values : Fin n → DataRec}
    (hfits : NoWrap (∑ cpu, (values cpu).counts)) :
    (sumOverCpus values).counts = ∑ cpu, (values cpu).counts := by
  rw [NoWrap, Prod.fst_sum, Prod.snd_sum] at hfits
  apply Prod.ext
  · rw [Prod.fst_sum]
    exact (toNat_sum _ _).trans (Nat.mod_eq_of_lt hfits.1)
  · rw [Prod.snd_sum]
    exact (toNat_sum _ _).trans (Nat.mod_eq_of_lt hfits.2)

theorem StatsMap.cells_le_counts (m : StatsMap n) (key : Fin statsActions) (cpu : Fin n) :
    m.cells key cpu ≤ m.counts key :=
  Finset.single_le_sum (fun _ _ ↦ zero_le) (Finset.mem_univ cpu)

theorem StatsMap.cells_count (m : StatsMap n) (key : Fin statsActions) (cpu : Fin n)
    (action : UInt32) (len : ℕ)
    (hfits : action = actionKey key → NoWrap (m.cells key cpu + (1, len))) (i : Fin n) :
    (m.count cpu action len).cells key i =
      m.cells key i + if i = cpu ∧ action = actionKey key then (1, len) else 0 := by
  by_cases hi : i = cpu
  · subst hi
    by_cases haction : action = actionKey key
    · subst haction
      obtain ⟨hpackets, hbytes⟩ := hfits rfl
      simp only [cells, DataRec.counts, Prod.fst_add, Prod.snd_add] at hpackets hbytes
      simp only [cells, count, DataRec.counts, Function.update_self, and_self, if_true]
      apply Prod.ext
      · simpa using Nat.mod_eq_of_lt hpackets
      · simpa using Nat.mod_eq_of_lt hbytes
    · simp [cells, count, haction, Ne.symm haction]
  · simp [cells, count, hi]

theorem Kernel.cells_after (hfits : NoWrap (k.stats.counts key + a.gain key)) (cpu : Fin n) :
    (k.after a).stats.cells key cpu =
      k.stats.cells key cpu + if cpu = a.cpu then a.gain key else 0 := by
  have hcell : NoWrap (k.stats.cells key a.cpu + a.gain key) :=
    hfits.mono (add_le_add_left (k.stats.cells_le_counts key a.cpu) _)
  unfold Arrival.gain Arrival.counted at hcell ⊢
  unfold Kernel.after
  cases hend : a.inspected.1 with
  | ret action => simp [finish, ProgramEnd.counted]
  | out action m =>
      rw [hend] at hcell
      have hcount := k.stats.cells_count key a.cpu action a.frame.length
        (fun haction ↦ by simpa [ProgramEnd.counted, haction] using hcell) cpu
      refine hcount.trans ?_
      by_cases haction : action = actionKey key
      · simp [ProgramEnd.counted, haction]
      · simp [ProgramEnd.counted, haction]

theorem Kernel.counts_after (hfits : NoWrap (k.stats.counts key + a.gain key)) :
    (k.after a).stats.counts key = k.stats.counts key + a.gain key := by
  rw [StatsMap.counts, StatsMap.counts, Finset.sum_congr rfl fun cpu _ ↦ cells_after hfits cpu,
    Finset.sum_add_distrib, Finset.sum_ite_eq', if_pos (Finset.mem_univ _)]

def arrivals (moves : List (MonitorMove n)) : List (Arrival n) :=
  moves.filterMap fun
    | .frame a => some a
    | .advance _ => none

/-- No counter reaches `2 ^ 64`: the totals at the end of the run fit. -/
def NoOverflow (k : Kernel n) (moves : List (MonitorMove n)) : Prop :=
  ∀ key, NoWrap (k.stats.counts key + ((arrivals moves).map (·.gain key)).sum)

instance (k : Kernel n) (moves : List (MonitorMove n)) : Decidable (NoOverflow k moves) :=
  inferInstanceAs (Decidable (∀ _, _))

theorem NoOverflow.fits {moves : List (MonitorMove n)} (h : NoOverflow k moves)
    (key : Fin statsActions) : NoWrap (k.stats.counts key) :=
  (h key).mono le_self_add

theorem NoOverflow.gain {moves : List (MonitorMove n)} (h : NoOverflow k (.frame a :: moves))
    (key : Fin statsActions) : NoWrap (k.stats.counts key + a.gain key) := by
  refine (h key).mono (add_le_add_right ?_ _)
  change a.gain key ≤ a.gain key + ((arrivals moves).map (·.gain key)).sum
  exact le_self_add

theorem NoOverflow.after {moves : List (MonitorMove n)} (h : NoOverflow k (.frame a :: moves)) :
    NoOverflow (k.after a) moves := by
  intro key
  rw [Kernel.counts_after (h.gain key), add_assoc]
  exact h key

/-! ## What is collected and printed -/

def MonitorEvent.reading (key : Fin statsActions) : MonitorEvent n → Option DataRec
  | .collected key' _ _ total => if key' = key then some total else none
  | _ => none

def readings (log : List (MonitorEvent n)) (key : Fin statsActions) : List DataRec :=
  log.filterMap (MonitorEvent.reading key)

def StatLine.counts (line : StatLine) : ℕ × ℕ := (line.packets.toNat, line.bytes.toNat)

def MonitorEvent.difference (key : Fin statsActions) : MonitorEvent n → Option (ℕ × ℕ)
  | .printed record prev => some (statLine record prev key).counts
  | _ => none

def differences (log : List (MonitorEvent n)) (key : Fin statsActions) : List (ℕ × ℕ) :=
  log.filterMap (MonitorEvent.difference key)

/-- What is to be seen of an event, after the events of `log`. A collected total lies between the
true totals at the two ends of its lookup and is no less than any before it. The differences of a
report do not wrap, and those of all the reports add up to the last total less the first. -/
def Consistent (log : List (MonitorEvent n)) : MonitorEvent n → Prop
  | .verdict _ => True
  | .collected key begun ended total =>
      begun.counts key ≤ total.counts ∧ total.counts ≤ ended.counts key ∧
        ∀ d ∈ readings log key, d.counts ≤ total.counts
  | .printed record prev => ∀ key,
      (statLine record prev key).counts + (prev key).total.counts = (record key).total.counts ∧
      ∃ first last, (readings log key).head? = some first ∧
        (readings log key).getLast? = some last ∧ last = (record key).total ∧
        (differences (log ++ [.printed record prev]) key).sum + first.counts = last.counts

abbrev ConsistentRun (log : List (MonitorEvent n)) : List (MonitorEvent n) → Prop :=
  EachEvent (fun log e ↦ log ++ [e]) Consistent log

theorem statLine_counts {record prev : StatsRecord}
    (hle : (prev key).total.counts ≤ (record key).total.counts) :
    (statLine record prev key).counts + (prev key).total.counts = (record key).total.counts := by
  obtain ⟨hpackets, hbytes⟩ := counts_le_iff.mp hle
  have hle' := hle
  simp only [DataRec.counts, Prod.mk_le_mk] at hle'
  apply Prod.ext
  · change ((record key).total.rxPackets - (prev key).total.rxPackets).toNat + _ = _
    rw [UInt64.toNat_sub_of_le _ _ hpackets]
    exact Nat.sub_add_cancel hle'.1
  · change ((record key).total.rxBytes - (prev key).total.rxBytes).toNat + _ = _
    rw [UInt64.toNat_sub_of_le _ _ hbytes]
    exact Nat.sub_add_cancel hle'.2

/-! ## The records of the reader -/

/-- The records of an action in a later poll, against what was read (`R`) and reported (`D`). -/
structure Telescopes (record prev : Record) (R : List DataRec) (D : List (ℕ × ℕ)) : Prop where
  last : R.getLast? = some record.total
  grown : prev.total.counts ≤ record.total.counts
  adds : ∃ first, R.head? = some first ∧ D.sum + first.counts = prev.total.counts

/-- The records while the actions in `pending` are still to be read in this poll. -/
structure Recorded (polled : Bool) (pending : List (Fin statsActions))
    (record prev : StatsRecord) (R : Fin statsActions → List DataRec)
    (D : Fin statsActions → List (ℕ × ℕ)) : Prop where
  nodup : pending.Nodup
  start : polled = false → ∀ key, D key = [] ∧
    R key = if key ∈ pending then [] else [(record key).total]
  saved : polled = true → ∀ key ∈ pending, record key = prev key
  telescopes : polled = true → ∀ key, Telescopes (record key) (prev key) (R key) (D key)

variable {polled : Bool} {keys : List (Fin statsActions)} {record prev : StatsRecord}
  {R : Fin statsActions → List DataRec} {D : Fin statsActions → List (ℕ × ℕ)}

theorem Telescopes.snoc {old saved new : Record} {R : List DataRec} {D : List (ℕ × ℕ)}
    (h : Telescopes old saved R D) (hsaved : old = saved)
    (hle : ∀ d ∈ R, d.counts ≤ new.total.counts) :
    Telescopes new saved (R ++ [new.total]) D := by
  obtain ⟨first, hfirst, hsum⟩ := h.adds
  refine ⟨List.getLast?_concat, ?_, first, ?_, hsum⟩
  · rw [← hsaved]
    exact hle _ (List.mem_of_getLast? h.last)
  · rw [List.head?_append, hfirst]
    rfl

theorem Recorded.store (h : Recorded polled (key :: keys) record prev R D) {new : Record}
    (hle : ∀ d ∈ R key, d.counts ≤ new.total.counts) :
    Recorded polled keys (Function.update record key new) prev
      (Function.update R key (R key ++ [new.total])) D := by
  obtain ⟨hkey, hkeys⟩ := List.nodup_cons.mp h.nodup
  refine ⟨hkeys, fun hpolled key' ↦ ?_, fun hpolled key' hmem ↦ ?_, fun hpolled key' ↦ ?_⟩
  · obtain ⟨hnone, hread⟩ := h.start hpolled key'
    refine ⟨hnone, ?_⟩
    by_cases heq : key' = key
    · subst heq
      simp only [List.mem_cons, true_or, if_true] at hread
      simp [hread, hkey]
    · simpa [heq] using hread
  · have hne : key' ≠ key := ne_of_mem_of_not_mem hmem hkey
    rw [Function.update_of_ne hne]
    exact h.saved hpolled key' (List.mem_cons_of_mem key hmem)
  · have hbefore := h.telescopes hpolled key'
    by_cases heq : key' = key
    · subst heq
      simpa using hbefore.snoc (h.saved hpolled key' List.mem_cons_self) hle
    · simpa [heq] using hbefore

theorem Recorded.begin (h : Recorded false [] record prev R D) :
    Recorded true (List.finRange statsActions) record record R D := by
  refine ⟨List.nodup_finRange _, fun hpolled ↦ absurd hpolled (by decide), fun _ _ _ ↦ rfl,
    fun _ key ↦ ?_⟩
  obtain ⟨hnone, hread⟩ := h.start rfl key
  rw [if_neg List.not_mem_nil] at hread
  rw [hread, hnone]
  exact ⟨rfl, le_rfl, _, rfl, zero_add _⟩

theorem Recorded.report (h : Recorded true [] record prev R D) :
    Recorded true (List.finRange statsActions) record record R
      (fun key ↦ D key ++ [(statLine record prev key).counts]) := by
  refine ⟨List.nodup_finRange _, fun hpolled ↦ absurd hpolled (by decide), fun _ _ _ ↦ rfl,
    fun _ key ↦ ?_⟩
  obtain ⟨hlast, hgrown, first, hfirst, hsum⟩ := h.telescopes rfl key
  exact ⟨hlast, le_rfl, first, hfirst, sum_snoc_add hsum (statLine_counts hgrown)⟩

/-! ## The invariant -/

/-- The actions that are still to be read in this poll. -/
def Stage.pending : Stage n → List (Fin statsActions)
  | .collect keys => keys
  | .lookup key _ _ _ keys => key :: keys

/-- What all lookups that are over have seen at most. -/
def Monitor.bound (s : Monitor n) : StatsMap n :=
  match s.stage with
  | .collect _ => s.kernel.stats
  | .lookup _ begun _ _ _ => begun

/-- The copies that the lookup in progress has made. -/
def Monitor.Scanning (s : Monitor n) : Prop :=
  match s.stage with
  | .collect _ => True
  | .lookup key begun _ cpus _ =>
      (∀ key, begun.counts key ≤ s.kernel.stats.counts key) ∧
        Copied (begun.cells key) (s.kernel.stats.cells key) (fun cpu ↦ (s.values cpu).counts) cpus

structure Tracks (s : Monitor n) (log : List (MonitorEvent n)) : Prop where
  scanning : s.Scanning
  below : ∀ key, ∀ d ∈ readings log key, d.counts ≤ s.bound.counts key
  recorded : Recorded s.polled s.stage.pending s.record s.prev (readings log) (differences log)

variable {s : Monitor n} {log : List (MonitorEvent n)}

theorem tracks_init (k : Kernel n) : Tracks (.init k) [] where
  scanning := trivial
  below _ _ hd := absurd hd List.not_mem_nil
  recorded :=
    { nodup := List.nodup_finRange statsActions
      start := fun _ key ↦ ⟨rfl, (if_pos (List.mem_finRange key)).symm⟩
      saved := fun hpolled ↦ absurd hpolled Bool.false_ne_true
      telescopes := fun hpolled ↦ absurd hpolled Bool.false_ne_true }

theorem readings_snoc_none {e : MonitorEvent n} (h : ∀ key, e.reading key = none)
    (log : List (MonitorEvent n)) : readings (log ++ [e]) = readings log := by
  funext key
  rw [readings, List.filterMap_append, List.filterMap_cons_none (h key)]
  exact List.append_nil _

theorem differences_snoc_none {e : MonitorEvent n} (h : ∀ key, e.difference key = none)
    (log : List (MonitorEvent n)) : differences (log ++ [e]) = differences log := by
  funext key
  rw [differences, List.filterMap_append, List.filterMap_cons_none (h key)]
  exact List.append_nil _

theorem readings_collected (log : List (MonitorEvent n)) (key : Fin statsActions)
    (begun ended : StatsMap n) (total : DataRec) :
    readings (log ++ [.collected key begun ended total]) =
      Function.update (readings log) key (readings log key ++ [total]) := by
  funext key'
  rw [readings, List.filterMap_append]
  by_cases heq : key' = key
  · subst heq
    have hread : (MonitorEvent.collected key' begun ended total).reading key' = some total :=
      if_pos rfl
    rw [Function.update_self, List.filterMap_cons_some hread]
    rfl
  · have hread : (MonitorEvent.collected key begun ended total).reading key' = none :=
      if_neg (Ne.symm heq)
    rw [Function.update_of_ne heq, List.filterMap_cons_none hread]
    exact List.append_nil _

theorem differences_printed (log : List (MonitorEvent n)) (record prev : StatsRecord) :
    differences (log ++ [.printed record prev]) =
      fun key ↦ differences log key ++ [(statLine record prev key).counts] :=
  funext fun _ ↦ List.filterMap_append

/-! ## Every move keeps it -/

theorem Tracks.frame (h : Tracks s log)
    (hfits : ∀ key, NoWrap (s.kernel.stats.counts key + a.gain key)) :
    Tracks { s with kernel := s.kernel.after a } (log ++ [.verdict a.verdict]) := by
  have hgrow : ∀ key cpu, s.kernel.stats.cells key cpu ≤ (s.kernel.after a).stats.cells key cpu :=
    fun key cpu ↦ (Kernel.cells_after (hfits key) cpu).symm ▸ le_self_add
  have hcounts : ∀ key, s.kernel.stats.counts key ≤ (s.kernel.after a).stats.counts key :=
    fun key ↦ Finset.sum_le_sum fun cpu _ ↦ hgrow key cpu
  obtain ⟨hscanning, hbelow, hrecorded⟩ := h
  refine ⟨?_, ?_, ?_⟩
  · unfold Monitor.Scanning at hscanning ⊢
    dsimp only
    split
    · trivial
    · rename_i key begun now cpus keys hstage
      rw [hstage] at hscanning
      exact ⟨fun key ↦ (hscanning.1 key).trans (hcounts key), hscanning.2.grow (hgrow key)⟩
  · intro key d hd
    rw [readings_snoc_none fun _ ↦ rfl] at hd
    refine (hbelow key d hd).trans ?_
    unfold Monitor.bound
    dsimp only
    split
    · exact hcounts key
    · exact le_rfl
  · rw [readings_snoc_none fun _ ↦ rfl, differences_snoc_none fun _ ↦ rfl]
    exact hrecorded

theorem Tracks.lookup (h : Tracks s log) {keys : List (Fin statsActions)}
    (hstage : s.stage = .collect (key :: keys)) (now : UInt64) :
    Tracks { s with stage := .lookup key s.kernel.stats now (List.finRange n) keys } log := by
  obtain ⟨-, hbelow, hrecorded⟩ := h
  unfold Monitor.bound at hbelow
  rw [hstage] at hbelow hrecorded
  exact ⟨⟨fun _ ↦ le_rfl, .begin _ _ List.mem_finRange⟩, hbelow, hrecorded⟩

theorem Tracks.copy (h : Tracks s log) {begun : StatsMap n} {now : UInt64} {cpu : Fin n}
    {cpus : List (Fin n)} {keys : List (Fin statsActions)}
    (hstage : s.stage = .lookup key begun now (cpu :: cpus) keys) :
    Tracks { s with
      values := Function.update s.values cpu (s.kernel.stats cpu (actionKey key))
      stage := .lookup key begun now cpus keys } log := by
  obtain ⟨hscanning, hbelow, hrecorded⟩ := h
  unfold Monitor.Scanning at hscanning
  unfold Monitor.bound at hbelow
  rw [hstage] at hscanning hbelow hrecorded
  refine ⟨⟨hscanning.1, ?_⟩, hbelow, hrecorded⟩
  have hvalues :
      DataRec.counts ∘ Function.update s.values cpu (s.kernel.stats cpu (actionKey key)) =
        Function.update (DataRec.counts ∘ s.values) cpu (s.kernel.stats.cells key cpu) :=
    Function.comp_update DataRec.counts s.values cpu _
  change Copied _ _ (DataRec.counts ∘ Function.update s.values cpu _) cpus
  rw [hvalues]
  exact hscanning.2.copy

theorem mapCollect_values (now : UInt64) (values : Fin n → DataRec) (stack : DataRec)
    (old : Record) :
    (mapCollect bpfMapTypePercpuArray ⟨now, none, some values, stack⟩ old).2.total =
      sumOverCpus values := by
  have hvalues : (⟨now, none, some values, stack⟩ : CollectReply n).percpu = some values := rfl
  rw [mapCollect, if_neg (by decide), if_pos rfl]
  exact CollectReply.mapGetValuePercpuArray_some hvalues stack

/-- The lookup ends, between the true totals at its two ends. -/
theorem Tracks.store (h : Tracks s log) (hfits : ∀ key, NoWrap (s.kernel.stats.counts key))
    {begun : StatsMap n} {now : UInt64} {keys : List (Fin statsActions)}
    (hstage : s.stage = .lookup key begun now [] keys) {new : Record}
    (hnew : new.total = sumOverCpus s.values) :
    ConsistentRun log [.collected key begun s.kernel.stats new.total] ∧
      Tracks { s with record := Function.update s.record key new, stage := .collect keys }
        (log ++ [.collected key begun s.kernel.stats new.total]) := by
  obtain ⟨hscanning, hbelow, hrecorded⟩ := h
  unfold Monitor.Scanning at hscanning
  unfold Monitor.bound at hbelow
  rw [hstage] at hscanning hbelow hrecorded
  obtain ⟨hgrown, hcopied⟩ := hscanning
  obtain ⟨hlower, hupper⟩ := hcopied.sum_between
  have htotal : new.total.counts = ∑ cpu, (s.values cpu).counts := by
    rw [hnew]
    exact sumOverCpus_counts ((hfits key).mono hupper)
  have hbegun : begun.counts key ≤ new.total.counts := htotal ▸ hlower
  have hended : new.total.counts ≤ s.kernel.stats.counts key := htotal ▸ hupper
  have hearlier : ∀ d ∈ readings log key, d.counts ≤ new.total.counts :=
    fun d hd ↦ (hbelow key d hd).trans hbegun
  refine ⟨⟨⟨hbegun, hended, hearlier⟩, trivial⟩, trivial, ?_, ?_⟩
  · intro key' d hd
    rw [readings_collected] at hd
    change d.counts ≤ s.kernel.stats.counts key'
    by_cases heq : key' = key
    · subst heq
      rw [Function.update_self] at hd
      rcases List.mem_append.mp hd with hd | hd
      · exact (hearlier d hd).trans hended
      · rw [List.mem_singleton.mp hd]
        exact hended
    · rw [Function.update_of_ne heq] at hd
      exact (hbelow key' d hd).trans (hgrown key')
  · rw [readings_collected, differences_snoc_none fun _ ↦ rfl]
    exact hrecorded.store hearlier

/-- A poll ends, and what it reports adds up. -/
theorem Tracks.report (h : Tracks s log) (hstage : s.stage = .collect []) :
    let es : List (MonitorEvent n) := if s.polled then [.printed s.record s.prev] else []
    ConsistentRun log es ∧
      Tracks { s with
        prev := s.record
        polled := true
        stage := .collect (List.finRange statsActions) } (log ++ es) := by
  obtain ⟨-, hbelow, hrecorded⟩ := h
  unfold Monitor.bound at hbelow
  rw [hstage] at hbelow hrecorded
  intro es
  cases hpolled : s.polled with
  | false =>
      rw [hpolled] at hrecorded
      have hes : es = [] := by simp [es, hpolled]
      rw [hes, List.append_nil]
      exact ⟨trivial, trivial, hbelow, hrecorded.begin⟩
  | true =>
      rw [hpolled] at hrecorded
      have hes : es = [.printed s.record s.prev] := by simp [es, hpolled]
      have hnext := hrecorded.report
      rw [← differences_printed] at hnext
      have hconsistent : Consistent log (.printed s.record s.prev) := by
        intro key
        obtain ⟨hlast, -, first, hfirst, hsum⟩ := hnext.telescopes rfl key
        have hgrown := (hrecorded.telescopes rfl key).grown
        exact ⟨statLine_counts hgrown, first, _, hfirst, hlast, rfl, hsum⟩
      rw [hes]
      refine ⟨⟨hconsistent, trivial⟩, trivial, ?_, ?_⟩
      · rw [readings_snoc_none fun _ ↦ rfl]
        exact hbelow
      · rw [readings_snoc_none fun _ ↦ rfl]
        exact hnext

/-! ## Runs -/

theorem foldl_snoc (log es : List (MonitorEvent n)) :
    es.foldl (fun log e ↦ log ++ [e]) log = log ++ es := by
  induction es generalizing log with
  | nil => simp
  | cons e es ih => simp [ih]

theorem Tracks.advance (h : Tracks s log) (hfits : ∀ key, NoWrap (s.kernel.stats.counts key))
    (now : UInt64) :
    ConsistentRun log (s.advance now).2 ∧ Tracks (s.advance now).1 (log ++ (s.advance now).2) ∧
      (s.advance now).1.kernel = s.kernel := by
  unfold Monitor.advance
  split
  · rename_i hstage
    obtain ⟨hes, hnext⟩ := h.report hstage
    exact ⟨hes, hnext, rfl⟩
  · rename_i key keys hstage
    rw [List.append_nil]
    exact ⟨trivial, h.lookup hstage now, rfl⟩
  · rename_i key begun now cpu cpus keys hstage
    rw [List.append_nil]
    exact ⟨trivial, h.copy hstage, rfl⟩
  · rename_i key begun now keys hstage
    obtain ⟨hes, hnext⟩ := h.store hfits hstage (mapCollect_values now s.values ⟨0, 0⟩ _)
    exact ⟨hes, hnext, rfl⟩

theorem monitorStep_tracks {s' : Monitor n} {move : MonitorMove n} {moves : List (MonitorMove n)}
    {es : List (MonitorEvent n)} (h : Tracks s log) (hroom : NoOverflow s.kernel (move :: moves))
    (hstep : monitorStep s move = .ok (s', es)) :
    ConsistentRun log es ∧ Tracks s' (log ++ es) ∧ NoOverflow s'.kernel moves := by
  cases move with
  | frame a =>
      obtain ⟨rfl, rfl⟩ := Prod.mk.inj (Except.ok.inj ((monitorStep_frame s a).symm.trans hstep))
      exact ⟨⟨trivial, trivial⟩, h.frame hroom.gain, hroom.after⟩
  | advance now =>
      obtain ⟨hes, hnext, hkernel⟩ := h.advance hroom.fits now
      rw [Except.ok.inj hstep] at hes hnext hkernel
      refine ⟨hes, hnext, ?_⟩
      rw [hkernel]
      exact hroom

theorem monitor_total (s : Monitor n) (moves : List (MonitorMove n)) :
    ∃ t log, run monitorStep s moves = .ok (t, log) := by
  induction moves generalizing s with
  | nil => exact ⟨s, [], rfl⟩
  | cons move moves ih =>
      obtain ⟨s', es, hstep⟩ : ∃ s' es, monitorStep s move = .ok (s', es) := by
        cases move with
        | frame a => exact ⟨_, _, monitorStep_frame s a⟩
        | advance now => exact ⟨_, _, rfl⟩
      obtain ⟨t, fs, hrest⟩ := ih s'
      exact ⟨t, es ++ fs, run_cons_eq_ok_iff.mpr ⟨s', es, fs, hstep, hrest, rfl⟩⟩

end AntiDos
