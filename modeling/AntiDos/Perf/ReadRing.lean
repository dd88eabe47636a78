import AntiDos.Lib.Ring
import AntiDos.Perf.Records

/-!
# Reading a perf ring

`bpf_perf_event_read_simple` walks from `data_tail` to `data_head` through a ring of bytes. A record
that reaches over the end of the ring is put together in a buffer, which is allocated when it is too
small. On a ring that holds whole records the walk does what the poll loop does on these records.
-/

namespace AntiDos

open Bytes Faulting Ring

/-! ## The ring -/

/-- `struct perf_event_mmap_page` and the data behind it. -/
structure PerfMmap where
  dataHead : UInt64
  dataTail : UInt64
  data : ℕ → UInt8

/-- What one turn of the loop gets: the record, or none if it cannot be copied; the size in its
header; and `*copy_size`. -/
structure Fetched where
  event : Option (List UInt8)
  size : UInt64
  copySize : UInt64

/-- `memcpy` from the ring. -/
def memcpy (mmapSize : UInt64) (data : ℕ → UInt8) (start len : UInt64) :
    Except PerfFault (List UInt8) :=
  if start.toNat + len.toNat ≤ mmapSize.toNat then .ok (cells data start.toNat len.toNat)
  else .error (.ring (start.toNat + len.toNat))

/-- `ehdr->size`. -/
def ehdrSize (mmapSize : UInt64) (data : ℕ → UInt8) (ehdr : UInt64) : Except PerfFault UInt64 := do
  let low ← read .ring mmapSize.toNat data (ehdr.toNat + 6)
  let high ← read .ring mmapSize.toNat data (ehdr.toNat + 7)
  .ok (le16 low high).toUInt64

/-- The body of the loop up to the call of `fn`; `malloc` says whether the buffer can be allocated
if that is tried. -/
def fetchEvent (mmapSize : UInt64) (data : ℕ → UInt8) (dataTail copySize : UInt64)
    (malloc : Bool) : Except PerfFault Fetched := do
  let ehdr := dataTail &&& (mmapSize - 1)
  let size ← ehdrSize mmapSize data ehdr
  if mmapSize < ehdr + size then
    let lenFirst := mmapSize - ehdr
    let lenSecnd := size - lenFirst
    if copySize < size ∧ ¬ malloc then .ok ⟨none, size, 0⟩
    else
      let first ← memcpy mmapSize data ehdr lenFirst
      let secnd ← memcpy mmapSize data 0 lenSecnd
      .ok ⟨some (first ++ secnd), size, if copySize < size then size else copySize⟩
  else
    let event ← memcpy mmapSize data ehdr size
    .ok ⟨some event, size, copySize⟩

/-- What the loop leaves: the result, the state and the events of the callback, `data_tail` and
`*copy_size`. -/
structure ReadEnd (σ ω : Type) where
  ret : Int
  state : σ
  log : List ω
  dataTail : UInt64
  copySize : UInt64

/-- The loop, for at most `fuel` turns; `malloc t` is the answer for the record at `t`. -/
def readEvents {σ ω : Type} (fn : List UInt8 → σ → Except PerfFault (Int × σ × List ω))
    (mmapSize dataHead : UInt64) (data : ℕ → UInt8) (malloc : UInt64 → Bool) :
    ℕ → UInt64 → UInt64 → σ → Except PerfFault (ReadEnd σ ω)
  | 0, _, _, _ => .error .cutOff
  | fuel + 1, dataTail, copySize, s =>
      if dataHead = dataTail then .ok ⟨libbpfPerfEventCont, s, [], dataTail, copySize⟩
      else do
        let x ← fetchEvent mmapSize data dataTail copySize (malloc dataTail)
        match x.event with
        | none => .ok ⟨libbpfPerfEventError, s, [], dataTail, x.copySize⟩
        | some event =>
            let y ← fn event s
            let dataTail := dataTail + x.size
            if y.1 ≠ libbpfPerfEventCont then .ok ⟨y.1, y.2.1, y.2.2, dataTail, x.copySize⟩
            else
              let z ← readEvents fn mmapSize dataHead data malloc fuel dataTail x.copySize y.2.1
              .ok { z with log := y.2.2 ++ z.log }

/-- `bpf_perf_event_read_simple`. -/
def bpfPerfEventReadSimpleAt {σ ω : Type}
    (fn : List UInt8 → σ → Except PerfFault (Int × σ × List ω)) (mmapSize : UInt64)
    (malloc : UInt64 → Bool) (fuel : ℕ) (mmap : PerfMmap) (copySize : UInt64) (s : σ) :
    Except PerfFault (ReadEnd σ ω × PerfMmap) := do
  let r ← readEvents fn mmapSize mmap.dataHead mmap.data malloc fuel mmap.dataTail copySize s
  .ok (r, { mmap with dataTail := r.dataTail })

/-! ## Positions -/

/-- The number of bytes of a ring is a power of two, and a multiple of eight. -/
structure PageSized (mmapSize : UInt64) : Prop where
  pow : ∃ k, mmapSize.toNat = 2 ^ k
  align : 8 ∣ mmapSize.toNat

variable {mmapSize copySize : UInt64} {data : ℕ → UInt8} {pos : ℕ} {rec : List UInt8}
  {recs : List (List UInt8)} {malloc : Bool}

theorem PageSized.size_pos (h : PageSized mmapSize) : 0 < mmapSize.toNat := by
  obtain ⟨k, hk⟩ := h.pow
  exact hk ▸ Nat.two_pow_pos k

theorem PageSized.dvd (h : PageSized mmapSize) : mmapSize.toNat ∣ 2 ^ 64 := by
  obtain ⟨k, hk⟩ := h.pow
  have hlt := mmapSize.toNat_lt
  rw [hk] at hlt ⊢
  exact Nat.pow_dvd_pow 2 ((Nat.pow_lt_pow_iff_right (by decide)).mp hlt).le

/-- The mask takes a counter, whether or not it has wrapped around, to the cell of its position. -/
theorem PageSized.mask (h : PageSized mmapSize) (pos : ℕ) :
    (UInt64.ofNat pos &&& (mmapSize - 1)).toNat = pos % mmapSize.toNat := by
  obtain ⟨k, hk⟩ := h.pow
  have hone : (1 : UInt64) ≤ mmapSize := UInt64.le_iff_toNat_le.mpr h.size_pos
  rw [UInt64.toNat_and, UInt64.toNat_sub_of_le _ _ hone, UInt64.toNat_ofNat', hk]
  change (pos % 2 ^ 64) &&& (2 ^ k - 1) = _
  rw [Nat.and_two_pow_sub_one_eq_mod, ← hk]
  exact Nat.mod_mod_of_dvd pos h.dvd

theorem ofNat_ne {a b : ℕ} (hlt : a < b) (hnear : b < a + 2 ^ 64) :
    UInt64.ofNat b ≠ UInt64.ofNat a := by
  intro heq
  have hmod := congrArg UInt64.toNat heq
  rw [UInt64.toNat_ofNat', UInt64.toNat_ofNat'] at hmod
  exact mod_ne hlt hnear hmod.symm

/-! ## One record -/

/-- The record at `pos` reaches over the end of the ring, and the buffer is too small for it. -/
def NeedsCopy (mmapSize copySize : UInt64) (pos : ℕ) (rec : List UInt8) : Prop :=
  mmapSize.toNat < pos % mmapSize.toNat + rec.length ∧ copySize.toNat < rec.length

instance : Decidable (NeedsCopy mmapSize copySize pos rec) := inferInstanceAs (Decidable (_ ∧ _))

/-- `*copy_size` after the record at `pos` has been copied, if that was necessary. -/
def copySizeAfter (mmapSize copySize : UInt64) (pos : ℕ) (rec : List UInt8) : UInt64 :=
  if NeedsCopy mmapSize copySize pos rec then UInt64.ofNat rec.length else copySize

theorem byte_span {n len i : ℕ} (hi : i < len) (hfit : pos % n + i < n) :
    byte (span n data pos len) i = data (pos % n + i) := by
  have hmod : (pos + i) % n = pos % n + i := by
    rw [Nat.add_mod, Nat.mod_eq_of_lt (show i < n by omega)]
    exact Nat.mod_eq_of_lt hfit
  simp [byte, span, cells, List.getD_eq_getElem?_getD, hi, hmod]

theorem IsRecord.length_lt (h : IsRecord rec) : rec.length < 2 ^ 16 :=
  h.size ▸ (le16 (byte rec 6) (byte rec 7)).toNat_lt

theorem memcpy_of_le {start len : UInt64} (h : start.toNat + len.toNat ≤ mmapSize.toNat) :
    memcpy mmapSize data start len = .ok (cells data start.toNat len.toNat) := if_pos h

/-- The header of a record does not reach over the end of the ring. -/
theorem PageSized.header_fits (h : PageSized mmapSize) (hpos : 8 ∣ pos) :
    pos % mmapSize.toNat + 8 ≤ mmapSize.toNat := by
  have hlt : pos % mmapSize.toNat < mmapSize.toNat := Nat.mod_lt pos h.size_pos
  have hmod : 8 ∣ pos % mmapSize.toNat := (Nat.dvd_mod_iff h.align).mpr hpos
  have halign := h.align
  omega

theorem PageSized.le (h : PageSized mmapSize) : mmapSize.toNat ≤ 2 ^ 63 := by
  obtain ⟨k, hk⟩ := h.pow
  have hlt := mmapSize.toNat_lt
  rw [hk] at hlt ⊢
  have hk64 : k < 64 := (Nat.pow_lt_pow_iff_right (by decide)).mp hlt
  exact Nat.pow_le_pow_right (by decide) (by omega)

section OneRecord

variable (hsize : PageSized mmapSize) (hrec : IsRecord rec) (hpos : 8 ∣ pos)
  (hstored : span mmapSize.toNat data pos rec.length = rec)
include hsize hrec hpos hstored

theorem ehdrSize_eq :
    ehdrSize mmapSize data (UInt64.ofNat pos &&& (mmapSize - 1)) =
      .ok (UInt64.ofNat rec.length) := by
  have hfits := hsize.header_fits hpos
  have height := hrec.eight_le
  have hbyte : ∀ i < 8, data (pos % mmapSize.toNat + i) = byte rec i := by
    intro i hi
    conv_rhs => rw [← hstored]
    exact (byte_span (by omega) (by omega)).symm
  unfold ehdrSize
  rw [hsize.mask, read_of_lt _ (by omega), read_of_lt _ (by omega), hbyte 6 (by decide),
    hbyte 7 (by decide)]
  refine congrArg Except.ok (UInt64.toNat_inj.mp ?_)
  have hlt := hrec.length_lt
  rw [UInt16.toNat_toUInt64, UInt64.toNat_ofNat_of_lt' (by change _ < 2 ^ 64; omega)]
  exact hrec.size

/-- One turn of the loop fetches the record, unless it has to be copied and cannot be. -/
theorem fetchEvent_eq (hroom : rec.length ≤ mmapSize.toNat) :
    fetchEvent mmapSize data (UInt64.ofNat pos) copySize malloc =
      .ok (if NeedsCopy mmapSize copySize pos rec ∧ ¬ malloc then ⟨none, UInt64.ofNat rec.length, 0⟩
        else ⟨some rec, UInt64.ofNat rec.length, copySizeAfter mmapSize copySize pos rec⟩) := by
  have hlen := hrec.length_lt
  have hle := hsize.le
  have hcell : pos % mmapSize.toNat < mmapSize.toNat := Nat.mod_lt pos hsize.size_pos
  have hmask := hsize.mask pos
  have hsz : (UInt64.ofNat rec.length).toNat = rec.length :=
    UInt64.toNat_ofNat_of_lt' (by change _ < 2 ^ 64; omega)
  rw [fetchEvent, ehdrSize_eq hsize hrec hpos hstored, ok_bind]
  generalize UInt64.ofNat pos &&& (mmapSize - 1) = ehdr at hmask ⊢
  have hend : mmapSize < ehdr + UInt64.ofNat rec.length ↔
      mmapSize.toNat < pos % mmapSize.toNat + rec.length := by
    rw [UInt64.lt_iff_toNat_lt, UInt64.toNat_add, hsz, hmask]
    omega
  have hsmall : copySize < UInt64.ofNat rec.length ↔ copySize.toNat < rec.length := by
    rw [UInt64.lt_iff_toNat_lt, hsz]
  by_cases hwrap : mmapSize.toNat < pos % mmapSize.toNat + rec.length
  · have hneeds : NeedsCopy mmapSize copySize pos rec ↔ copySize.toNat < rec.length :=
      and_iff_right hwrap
    rw [if_pos (hend.mpr hwrap)]
    simp only [copySizeAfter, hneeds, hsmall]
    split
    · rfl
    · have hfirst : (mmapSize - ehdr).toNat = mmapSize.toNat - pos % mmapSize.toNat := by
        rw [UInt64.toNat_sub_of_le _ _ (UInt64.le_iff_toNat_le.mpr (by omega)), hmask]
      have hsecnd : (UInt64.ofNat rec.length - (mmapSize - ehdr)).toNat =
          rec.length - (mmapSize.toNat - pos % mmapSize.toNat) := by
        rw [UInt64.toNat_sub_of_le _ _ (UInt64.le_iff_toNat_le.mpr (by omega)), hsz, hfirst]
      rw [memcpy_of_le (by omega), ok_bind, memcpy_of_le (by rw [hsecnd]; change 0 + _ ≤ _; omega),
        ok_bind, hmask, hfirst, hsecnd]
      rw [span_eq_wrap hsize.size_pos hwrap.le hroom] at hstored
      exact congrArg (fun event ↦ Except.ok (Fetched.mk (some event) _ _)) hstored
  · have hneeds : ¬ NeedsCopy mmapSize copySize pos rec := fun h ↦ hwrap h.1
    rw [if_neg fun h ↦ hwrap (hend.mp h), if_neg fun h ↦ hneeds h.1,
      memcpy_of_le (by omega), ok_bind, hmask, hsz, copySizeAfter, if_neg hneeds]
    rw [span_eq_cells (by omega)] at hstored
    exact congrArg (fun event ↦ Except.ok (Fetched.mk (some event) _ _)) hstored

end OneRecord

/-! ## All records -/

/-- From position `pos` on the ring holds the records `recs`. -/
structure Holds (mmapSize : UInt64) (data : ℕ → UInt8) (pos : ℕ) (recs : List (List UInt8)) :
    Prop where
  aligned : 8 ∣ pos
  room : recs.flatten.length ≤ mmapSize.toNat
  stored : Stored mmapSize.toNat data pos recs
  records : ∀ rec ∈ recs, IsRecord rec

/-- The records `recs` lie between the two counters of the ring, which stand for position `pos` and
the end of the records. -/
structure Unread (mmapSize : UInt64) (mmap : PerfMmap) (pos : ℕ) (recs : List (List UInt8)) :
    Prop where
  holds : Holds mmapSize mmap.data pos recs
  dataTail : mmap.dataTail = UInt64.ofNat pos
  dataHead : mmap.dataHead = UInt64.ofNat (pos + recs.flatten.length)

/-- The records as the poll loop takes them from position `pos` on. -/
def ringRecords (mmapSize : UInt64) (malloc : UInt64 → Bool) :
    ℕ → UInt64 → List (List UInt8) → List PerfRecord
  | _, _, [] => []
  | pos, copySize, rec :: recs =>
      decodeRecord rec (¬ NeedsCopy mmapSize copySize pos rec ∨ malloc (UInt64.ofNat pos)) ::
        ringRecords mmapSize malloc (pos + rec.length)
          (copySizeAfter mmapSize copySize pos rec) recs

section Walk

variable {n : ℕ} {malloc : UInt64 → Bool}

theorem Holds.head (h : Holds mmapSize data pos (rec :: recs)) :
    IsRecord rec ∧ span mmapSize.toNat data pos rec.length = rec ∧
      rec.length ≤ mmapSize.toNat := by
  have hroom := h.room
  rw [List.flatten_cons, List.length_append] at hroom
  exact ⟨h.records rec List.mem_cons_self, (stored_cons.mp h.stored).1, by omega⟩

theorem Holds.tail (h : Holds mmapSize data pos (rec :: recs)) :
    Holds mmapSize data (pos + rec.length) recs := by
  have hroom := h.room
  rw [List.flatten_cons, List.length_append] at hroom
  exact ⟨Nat.dvd_add h.aligned h.head.1.align, by omega, (stored_cons.mp h.stored).2,
    fun r hr ↦ h.records r (List.mem_cons_of_mem rec hr)⟩

theorem Holds.drop {pre suf : List (List UInt8)} (h : Holds mmapSize data pos (pre ++ suf)) :
    Holds mmapSize data (pos + pre.flatten.length) suf := by
  induction pre generalizing pos with
  | nil => exact h
  | cons rec pre ih =>
      have hrest := ih h.tail
      rwa [Nat.add_assoc, ← List.length_append, ← List.flatten_cons] at hrest

/-- The counters differ as long as there is a record between them. -/
theorem Holds.head_ne_tail (hsize : PageSized mmapSize)
    (h : Holds mmapSize data pos (rec :: recs)) :
    UInt64.ofNat (pos + (rec :: recs).flatten.length) ≠ UInt64.ofNat pos := by
  have height := h.head.1.eight_le
  have hroom := h.room
  have hle := hsize.le
  rw [List.flatten_cons, List.length_append] at hroom ⊢
  exact ofNat_ne (by omega) (by omega)

theorem ofNat_add (a b : ℕ) : UInt64.ofNat a + UInt64.ofNat b = UInt64.ofNat (a + b) :=
  UInt64.ofNat_add a b |>.symm

/-- One turn on a ring that holds a record. -/
theorem readEvents_cons {σ ω : Type} {fn : List UInt8 → σ → Except PerfFault (Int × σ × List ω)}
    (hsize : PageSized mmapSize) (h : Holds mmapSize data pos (rec :: recs)) {s : σ} {fuel : ℕ} :
    readEvents fn mmapSize (UInt64.ofNat (pos + (rec :: recs).flatten.length)) data malloc
        (fuel + 1) (UInt64.ofNat pos) copySize s =
      if NeedsCopy mmapSize copySize pos rec ∧ ¬ malloc (UInt64.ofNat pos) then
        .ok ⟨libbpfPerfEventError, s, [], UInt64.ofNat pos, 0⟩
      else fn rec s >>= fun y ↦
        if y.1 ≠ libbpfPerfEventCont then
          .ok ⟨y.1, y.2.1, y.2.2, UInt64.ofNat (pos + rec.length),
            copySizeAfter mmapSize copySize pos rec⟩
        else
          readEvents fn mmapSize
              (UInt64.ofNat (pos + rec.length + recs.flatten.length)) data malloc fuel
              (UInt64.ofNat (pos + rec.length)) (copySizeAfter mmapSize copySize pos rec) y.2.1 >>=
            fun z ↦ .ok { z with log := y.2.2 ++ z.log } := by
  obtain ⟨hrec, hspan, hroom⟩ := h.head
  have hlen : pos + (rec :: recs).flatten.length = pos + rec.length + recs.flatten.length := by
    rw [List.flatten_cons, List.length_append, Nat.add_assoc]
  rw [readEvents, if_neg (h.head_ne_tail hsize), fetchEvent_eq hsize hrec h.aligned hspan hroom,
    ok_bind]
  by_cases hfail : NeedsCopy mmapSize copySize pos rec ∧ ¬ malloc (UInt64.ofNat pos)
  · rw [if_pos hfail, if_pos hfail]
  · rw [if_neg hfail, if_neg hfail, hlen]
    dsimp only
    rw [ofNat_add]

/-- What is seen of a walk. -/
def ReadEnd.seen {σ ω : Type} (r : ReadEnd σ ω) : Int × σ × List ω := (r.ret, r.state, r.log)

theorem prepend_refines {x : Except PerfFault (ReadEnd Poller Event)}
    {y : Except Fault (Int × Poller × List Event)} (es : List Event)
    (h : x.map ReadEnd.seen = liftFault y) :
    (x >>= fun z ↦ .ok { z with log := es ++ z.log }).map ReadEnd.seen =
      liftFault (y >>= fun z ↦ .ok (z.1, z.2.1, es ++ z.2.2)) := by
  cases x with
  | error e =>
      cases y with
      | error e' => exact h
      | ok b => cases h
  | ok a =>
      cases y with
      | error e' => cases h
      | ok b =>
          obtain rfl : a.seen = b := Except.ok.inj h
          rfl

/-- On a ring that holds whole records, and with a turn for each of them, the walk over the bytes
does what the poll loop does on the records. -/
theorem readEvents_refines (hsize : PageSized mmapSize) (h : Holds mmapSize data pos recs)
    (s : Poller) {fuel : ℕ} (hfuel : recs.length < fuel) :
    (readEvents eventReceivedAt mmapSize (UInt64.ofNat (pos + recs.flatten.length)) data malloc fuel
        (UInt64.ofNat pos) copySize s).map ReadEnd.seen =
      liftFault (bpfPerfEventReadSimple (ringRecords mmapSize malloc pos copySize recs) s) := by
  induction recs generalizing pos copySize s fuel with
  | nil =>
      obtain ⟨fuel, rfl⟩ := Nat.exists_eq_succ_of_ne_zero (Nat.ne_of_gt hfuel)
      rw [readEvents]
      exact congrArg (Except.map _) (if_pos rfl)
  | cons rec recs ih =>
      obtain ⟨fuel, rfl⟩ := Nat.exists_eq_succ_of_ne_zero (Nat.ne_of_gt (Nat.zero_lt_of_lt hfuel))
      have hrest : ∀ s, (readEvents eventReceivedAt mmapSize
          (UInt64.ofNat (pos + rec.length + recs.flatten.length)) data malloc fuel
          (UInt64.ofNat (pos + rec.length)) (copySizeAfter mmapSize copySize pos rec) s).map
            ReadEnd.seen = _ := fun s ↦ ih h.tail s (Nat.lt_of_succ_lt_succ hfuel)
      rw [readEvents_cons hsize h, ringRecords, bpfPerfEventReadSimple]
      by_cases hfail : NeedsCopy mmapSize copySize pos rec ∧ ¬ malloc (UInt64.ofNat pos)
      · rw [if_pos hfail, if_neg (by simpa [decodeRecord] using hfail)]
        rfl
      · rw [if_neg hfail, if_pos (by simpa [decodeRecord, or_iff_not_imp_left] using hfail),
          eventReceivedAt_eq h.head.1]
        cases hcall : eventReceived (decodeRecord rec _) s with
        | error e => rfl
        | ok x =>
            simp only [liftFault, ok_bind]
            split
            · rfl
            · exact prepend_refines x.2.2 (hrest x.2.1)

theorem eventReceived_cont {r : PerfRecord} {s : Poller} {x : Int × Poller × List Event}
    (h : eventReceived r s = .ok x) : x.1 = libbpfPerfEventCont := by
  unfold eventReceived policyStats at h
  split_ifs at h
  · exact Except.ok.inj h ▸ rfl
  · exact Except.ok.inj h ▸ rfl

/-- The walk stops behind the records that could be copied, all of them or those before the first
that could not. -/
theorem readEvents_dataTail (hsize : PageSized mmapSize) (h : Holds mmapSize data pos recs)
    {s : Poller} {fuel : ℕ} (hfuel : recs.length < fuel) {r : ReadEnd Poller Event}
    (hread : readEvents eventReceivedAt mmapSize (UInt64.ofNat (pos + recs.flatten.length)) data
      malloc fuel (UInt64.ofNat pos) copySize s = .ok r) :
    ∃ pre suf, recs = pre ++ suf ∧
      pre.length = ((ringRecords mmapSize malloc pos copySize recs).takeWhile (·.copied)).length ∧
      r.dataTail = UInt64.ofNat (pos + pre.flatten.length) ∧
      Holds mmapSize data (pos + pre.flatten.length) suf := by
  induction recs generalizing pos copySize s fuel r with
  | nil =>
      obtain ⟨fuel, rfl⟩ := Nat.exists_eq_succ_of_ne_zero (Nat.ne_of_gt hfuel)
      rw [readEvents] at hread
      obtain rfl := Except.ok.inj ((if_pos rfl).symm.trans hread)
      exact ⟨[], [], rfl, rfl, rfl, h⟩
  | cons rec recs ih =>
      obtain ⟨fuel, rfl⟩ := Nat.exists_eq_succ_of_ne_zero (Nat.ne_of_gt (Nat.zero_lt_of_lt hfuel))
      rw [readEvents_cons hsize h] at hread
      by_cases hfail : NeedsCopy mmapSize copySize pos rec ∧ ¬ malloc (UInt64.ofNat pos)
      · rw [if_pos hfail] at hread
        obtain rfl := Except.ok.inj hread
        refine ⟨[], rec :: recs, rfl, ?_, rfl, h⟩
        rw [ringRecords, List.takeWhile_cons_of_neg (by simpa [decodeRecord] using hfail)]
        rfl
      · have hcopied : (decodeRecord rec (¬ NeedsCopy mmapSize copySize pos rec ∨
            malloc (UInt64.ofNat pos))).copied := by
          simpa [decodeRecord, or_iff_not_imp_left] using hfail
        rw [if_neg hfail, eventReceivedAt_eq h.head.1 true] at hread
        obtain ⟨y, hy, hrest⟩ := bind_eq_ok_iff.mp hread
        have hcont : y.1 = libbpfPerfEventCont := by
          cases hcall : eventReceived (decodeRecord rec true) s with
          | error e => rw [hcall] at hy; cases hy
          | ok x =>
              rw [hcall] at hy
              exact Except.ok.inj hy ▸ eventReceived_cont hcall
        rw [if_neg (not_not_intro hcont)] at hrest
        obtain ⟨z, hz, hr⟩ := bind_eq_ok_iff.mp hrest
        obtain rfl := Except.ok.inj hr
        obtain ⟨pre, suf, rfl, hlen, htail, hholds⟩ := ih h.tail (Nat.lt_of_succ_lt_succ hfuel) hz
        have hpos : pos + rec.length + pre.flatten.length =
            pos + (rec :: pre).flatten.length := by
          rw [List.flatten_cons, List.length_append, Nat.add_assoc]
        refine ⟨rec :: pre, suf, rfl, ?_, hpos ▸ htail, hpos ▸ hholds⟩
        rw [ringRecords, List.takeWhile_cons_of_pos hcopied, List.length_cons, List.length_cons,
          hlen]

end Walk

end AntiDos
