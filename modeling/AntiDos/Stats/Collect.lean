import AntiDos.Filter.Statistics
import Mathlib.Data.List.FinRange

/-!
# Collecting and printing the statistics

`xdp_stats` reads the records of all actions again and again, and prints each reading beside the one
before it. The two functions that look a record up return nothing, and `map_collect` stores its
local `value` whether the lookup has filled it or not.
-/

namespace AntiDos

variable {n : ℕ} {mapType : UInt32}

/-! ## The program -/

/-- `XDP_ACTION_MAX`, as the length of the array in `struct stats_record`. -/
abbrev statsActions : ℕ := 5

structure Record where
  timestamp : UInt64
  total : DataRec
  deriving DecidableEq

abbrev StatsRecord := Fin statsActions → Record

def StatsRecord.zero : StatsRecord := fun _ ↦ ⟨0, ⟨0, 0⟩⟩

def bpfMapTypeArray : UInt32 := 2

def bpfMapTypePercpuArray : UInt32 := 6

/-- What one call of `map_collect` meets: the clock, what `bpf_map_lookup_elem` copies (the lookup
that fits the type of the map is made), and what the stack holds in the place of `value`. -/
structure CollectReply (n : ℕ) where
  now : UInt64
  array : Option DataRec
  percpu : Option (Fin n → DataRec)
  stack : DataRec

namespace CollectReply

def mapGetValueArray (r : CollectReply n) (value : DataRec) : DataRec :=
  match r.array with
  | none => value
  | some read => read

def mapGetValuePercpuArray (r : CollectReply n) (value : DataRec) : DataRec :=
  match r.percpu with
  | none => value
  | some values =>
      (List.finRange n).foldl (fun sum i ↦
        ⟨sum.rxPackets + (values i).rxPackets, sum.rxBytes + (values i).rxBytes⟩) ⟨0, 0⟩

end CollectReply

def mapCollect (mapType : UInt32) (r : CollectReply n) (record : Record) : Bool × Record :=
  if mapType = bpfMapTypeArray then (true, ⟨r.now, r.mapGetValueArray r.stack⟩)
  else if mapType = bpfMapTypePercpuArray then (true, ⟨r.now, r.mapGetValuePercpuArray r.stack⟩)
  else (false, { record with timestamp := r.now })

/-- The results of `map_collect` are dropped. -/
def statsCollect (mapType : UInt32) (r : Fin statsActions → CollectReply n)
    (record : StatsRecord) : StatsRecord :=
  (List.finRange statsActions).foldl (fun record key ↦
    Function.update record key (mapCollect mapType (r key) (record key)).2) record

/-- What a line is printed from; the rates are the differences over the period, in nanoseconds. -/
structure StatLine where
  action : Fin statsActions
  total : DataRec
  packets : UInt64
  bytes : UInt64
  period : UInt64
  deriving DecidableEq

def statLine (record prev : StatsRecord) (key : Fin statsActions) : StatLine where
  action := key
  total := (record key).total
  packets := (record key).total.rxPackets - (prev key).total.rxPackets
  bytes := (record key).total.rxBytes - (prev key).total.rxBytes
  period := (record key).timestamp - (prev key).timestamp

/-- The first action without a period ends the report. -/
def statsPrint (record prev : StatsRecord) : List StatLine :=
  ((List.finRange statsActions).map (statLine record prev)).takeWhile (·.period ≠ 0)

/-- The loop of `stats_poll`, over what its turns meet. -/
def statsLoop (mapType : UInt32) (record : StatsRecord) :
    List (Fin statsActions → CollectReply n) → StatsRecord × List StatLine
  | [] => (record, [])
  | r :: polls =>
      let prev := record
      let record := statsCollect mapType r record
      let rest := statsLoop mapType record polls
      (rest.1, statsPrint record prev ++ rest.2)

def statsPoll (mapType : UInt32) (first : Fin statsActions → CollectReply n)
    (polls : List (Fin statsActions → CollectReply n)) : StatsRecord × List StatLine :=
  statsLoop mapType (statsCollect mapType first .zero) polls

/-! ## One record -/

def sumOverCpus (values : Fin n → DataRec) : DataRec :=
  ⟨∑ cpu, (values cpu).rxPackets, ∑ cpu, (values cpu).rxBytes⟩

variable {r : CollectReply n} {record prev : StatsRecord}
  {pre polls : List (Fin statsActions → CollectReply n)} {key : Fin statsActions}

namespace CollectReply

/-- What the lookup reads; a map of another type is not looked at. -/
def reading (mapType : UInt32) (r : CollectReply n) : Option DataRec :=
  if mapType = bpfMapTypeArray then r.array
  else if mapType = bpfMapTypePercpuArray then r.percpu.map sumOverCpus
  else none

def LookupFails (mapType : UInt32) (r : CollectReply n) : Prop :=
  (mapType = bpfMapTypeArray ∧ r.array = none) ∨
    (mapType = bpfMapTypePercpuArray ∧ r.percpu = none)

theorem mapGetValuePercpuArray_some {values : Fin n → DataRec} (h : r.percpu = some values)
    (value : DataRec) : r.mapGetValuePercpuArray value = sumOverCpus values := by
  rw [mapGetValuePercpuArray, h]
  dsimp only
  rw [foldl_values, sumOverCpus, Fin.sum_univ_def, Fin.sum_univ_def, zero_add, zero_add]

theorem mapGetValuePercpuArray_lookup {m : StatsMap n} {key : UInt32}
    (h : r.percpu = m.lookup key) (value : DataRec) :
    r.mapGetValuePercpuArray value = AntiDos.mapGetValuePercpuArray m key value := by
  rw [mapGetValuePercpuArray, h]
  rfl

end CollectReply

/-- After a failed lookup what the stack holds is stored, and the result is `true`. -/
theorem mapCollect_failed (hfails : r.LookupFails mapType) (old : Record) :
    mapCollect mapType r old = (true, ⟨r.now, r.stack⟩) := by
  rcases hfails with ⟨rfl, hnone⟩ | ⟨rfl, hnone⟩
  · rw [mapCollect, if_pos rfl, CollectReply.mapGetValueArray, hnone]
  · rw [mapCollect, if_neg (by decide), if_pos rfl, CollectReply.mapGetValuePercpuArray, hnone]

theorem mapCollect_total (hreads : ¬ r.LookupFails mapType) (old : Record) :
    (mapCollect mapType r old).2.total = (r.reading mapType).getD old.total := by
  obtain ⟨harray, hpercpu⟩ := not_or.mp hreads
  unfold mapCollect CollectReply.reading
  split
  · rename_i htype
    obtain ⟨read, hread⟩ := Option.ne_none_iff_exists'.mp fun hnone ↦ harray ⟨htype, hnone⟩
    rw [CollectReply.mapGetValueArray, hread]
    rfl
  · split
    · rename_i htype
      obtain ⟨values, hvalues⟩ := Option.ne_none_iff_exists'.mp fun hnone ↦ hpercpu ⟨htype, hnone⟩
      rw [CollectReply.mapGetValuePercpuArray_some hvalues, hvalues]
      rfl
    · rfl

/-- A loop that writes each cell of an array once, from what the cell holds. -/
theorem foldl_update_apply {ι α : Type*} [DecidableEq ι] (f : ι → α → α) (g : ι → α) {l : List ι}
    (hnodup : l.Nodup) (k : ι) :
    l.foldl (fun g i ↦ Function.update g i (f i (g i))) g k =
      if k ∈ l then f k (g k) else g k := by
  induction l generalizing g with
  | nil => simp
  | cons i l ih =>
      obtain ⟨hi, hrest⟩ := List.nodup_cons.mp hnodup
      rw [List.foldl_cons, ih _ hrest]
      by_cases hk : k = i
      · subst hk
        simp [hi]
      · simp [hk]

theorem statsCollect_apply (mapType : UInt32) (r : Fin statsActions → CollectReply n)
    (record : StatsRecord) (key : Fin statsActions) :
    statsCollect mapType r record key = (mapCollect mapType (r key) (record key)).2 := by
  rw [statsCollect,
    foldl_update_apply (fun key old ↦ (mapCollect mapType (r key) old).2) record
      (List.nodup_finRange statsActions)]
  exact if_pos (List.mem_finRange key)

/-! ## Runs -/

def collected (mapType : UInt32) (polls : List (Fin statsActions → CollectReply n)) :
    StatsRecord :=
  polls.foldl (fun record r ↦ statsCollect mapType r record) .zero

/-- The last value that was read for an action, and zero if there was none. -/
def lastRead (mapType : UInt32) (polls : List (Fin statsActions → CollectReply n))
    (key : Fin statsActions) : DataRec :=
  (polls.filterMap fun r ↦ (r key).reading mapType).getLast?.getD ⟨0, 0⟩

def AllRead (mapType : UInt32) (polls : List (Fin statsActions → CollectReply n)) : Prop :=
  ∀ r ∈ polls, ∀ key, ¬ (r key).LookupFails mapType

theorem collected_snoc (mapType : UInt32) (polls : List (Fin statsActions → CollectReply n))
    (r : Fin statsActions → CollectReply n) :
    collected mapType (polls ++ [r]) = statsCollect mapType r (collected mapType polls) := by
  simp [collected]

theorem lastRead_snoc (r : Fin statsActions → CollectReply n) :
    lastRead mapType (polls ++ [r]) key =
      ((r key).reading mapType).getD (lastRead mapType polls key) := by
  cases hread : (r key).reading mapType with
  | none => simp [lastRead, hread]
  | some read => simp [lastRead, hread]

theorem lastRead_mem (mapType : UInt32) (polls : List (Fin statsActions → CollectReply n))
    (key : Fin statsActions) : lastRead mapType polls key = ⟨0, 0⟩ ∨
    ∃ r ∈ polls, (r key).reading mapType = some (lastRead mapType polls key) := by
  unfold lastRead
  cases hlast : (polls.filterMap fun r ↦ (r key).reading mapType).getLast? with
  | none => exact Or.inl rfl
  | some read =>
      obtain ⟨r, hr, hread⟩ := List.mem_filterMap.mp (List.mem_of_getLast? hlast)
      exact Or.inr ⟨r, hr, hread⟩

/-- As long as no lookup fails, the records hold what was read last. -/
theorem collected_total (hreads : AllRead mapType polls) (key : Fin statsActions) :
    (collected mapType polls key).total = lastRead mapType polls key := by
  induction polls using List.reverseRecOn with
  | nil => rfl
  | append_singleton polls r ih =>
      have hbefore : AllRead mapType polls := fun q hq ↦ hreads q (List.mem_append_left _ hq)
      have hnow : ¬ (r key).LookupFails mapType := hreads r (by simp) key
      rw [collected_snoc, statsCollect_apply, mapCollect_total hnow, lastRead_snoc, ih hbefore]

theorem mem_statsPrint {line : StatLine} (h : line ∈ statsPrint record prev) :
    line = statLine record prev line.action := by
  obtain ⟨key, -, rfl⟩ := List.mem_map.mp (List.takeWhile_subset _ h)
  rfl

theorem mem_statsLoop (pre : List (Fin statsActions → CollectReply n)) {line : StatLine}
    (h : line ∈ (statsLoop mapType (collected mapType pre) polls).2) :
    ∃ seen post, pre ++ polls = seen ++ post ∧
      line.total = (collected mapType seen line.action).total := by
  induction polls generalizing pre with
  | nil => exact absurd h List.not_mem_nil
  | cons r polls ih =>
      have hmem : line ∈ statsPrint (collected mapType (pre ++ [r])) (collected mapType pre) ++
          (statsLoop mapType (collected mapType (pre ++ [r])) polls).2 := by
        rw [collected_snoc]
        exact h
      rcases List.mem_append.mp hmem with hprint | hlater
      · exact ⟨pre ++ [r], polls, by simp, congrArg StatLine.total (mem_statsPrint hprint)⟩
      · obtain ⟨seen, post, hsplit, htotal⟩ := ih (pre ++ [r]) hlater
        exact ⟨seen, post, by simpa using hsplit, htotal⟩

/-- A failed lookup is reported and leaves the total, and every total that is printed was read or is
the initial zero. -/
structure StatsIntact (mapType : UInt32) (first : Fin statsActions → CollectReply n)
    (polls : List (Fin statsActions → CollectReply n)) : Prop where
  failed : ∀ pre r post key, first :: polls = pre ++ r :: post → (r key).LookupFails mapType →
    let c := mapCollect mapType (r key) (collected mapType pre key)
    c.1 = false ∧ c.2.total = lastRead mapType pre key
  printed : ∀ line ∈ (statsPoll mapType first polls).2, line.total = ⟨0, 0⟩ ∨
    ∃ r ∈ first :: polls, (r line.action).reading mapType = some line.total

theorem statsIntact_of_allRead {first : Fin statsActions → CollectReply n}
    (hreads : AllRead mapType (first :: polls)) : StatsIntact mapType first polls := by
  constructor
  · intro pre r post key hsplit hfails
    exact absurd hfails (hreads r (by simp [hsplit]) key)
  · intro line hline
    obtain ⟨seen, post, hsplit, htotal⟩ := mem_statsLoop [first] hline
    have hseen : seen ⊆ first :: polls := fun q hq ↦ by
      have : q ∈ [first] ++ polls := hsplit ▸ List.mem_append_left post hq
      exact this
    rw [htotal, collected_total fun q hq ↦ hreads q (hseen hq)]
    rcases lastRead_mem mapType seen line.action with hzero | ⟨r, hr, hread⟩
    · exact Or.inl hzero
    · exact Or.inr ⟨r, hseen hr, hread⟩

theorem not_statsIntact_of_fails {first : Fin statsActions → CollectReply n}
    {r : Fin statsActions → CollectReply n} (hr : r ∈ first :: polls)
    (key : Fin statsActions) (hfails : (r key).LookupFails mapType) :
    ¬ StatsIntact mapType first polls := by
  intro h
  obtain ⟨pre, post, hsplit⟩ := List.append_of_mem hr
  have hfalse := (h.failed pre r post key hsplit hfails).1
  rw [mapCollect_failed hfails] at hfalse
  cases hfalse

/-- The records stay intact exactly when no lookup of the run fails. -/
theorem statsIntact_iff (mapType : UInt32) (first : Fin statsActions → CollectReply n)
    (polls : List (Fin statsActions → CollectReply n)) :
    StatsIntact mapType first polls ↔ AllRead mapType (first :: polls) := by
  constructor
  · exact fun hintact r hr key hfails ↦ not_statsIntact_of_fails hr key hfails hintact
  · exact statsIntact_of_allRead

/-- Each of two CPUs has counted one frame of 60 bytes for each action. -/
def oneEach (now : UInt64) : Fin statsActions → CollectReply 2 :=
  fun _ ↦ ⟨now, none, some fun _ ↦ ⟨1, 60⟩, ⟨7, 7⟩⟩

/-- In the second poll the lookup for `XDP_PASS` fails, and what is on the stack is printed. -/
theorem failed_lookup_not_intact :
    let second := Function.update (oneEach 2) 2 ⟨2, none, none, ⟨7, 7⟩⟩
    ¬ StatsIntact bpfMapTypePercpuArray (oneEach 1) [second] ∧
      (statsPoll bpfMapTypePercpuArray (oneEach 1) [second]).2.map (·.total) =
        [⟨2, 120⟩, ⟨2, 120⟩, ⟨7, 7⟩, ⟨2, 120⟩, ⟨2, 120⟩] := by
  constructor
  · exact not_statsIntact_of_fails (List.mem_cons_of_mem _ List.mem_cons_self) 2
      (Or.inr ⟨rfl, rfl⟩)
  · decide

end AntiDos
