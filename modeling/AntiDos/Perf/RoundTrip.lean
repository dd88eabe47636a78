import AntiDos.Perf.Concurrent
import AntiDos.Poller.Iteration
import Mathlib.Data.List.TakeWhile

/-!
# From the filter to the queue

What the poll loop takes from a ring of bytes is what it would take from the list of the records in
it, wherever in the ring they lie. So the metadata that the filter has submitted is queued, in its
order.
-/

namespace AntiDos

open Bytes Faulting Ring

variable {mmapSize : UInt64} {pos : ℕ} {mmap : PerfMmap}

/-- On a ring that holds whole records the callback gets what the poll loop gets from the list of
these records, and the records it got are the ones that are taken away. -/
theorem perf_read_refines (hsize : PageSized mmapSize) {recs : List (List UInt8)}
    (h : Unread mmapSize mmap pos recs) (malloc : UInt64 → Bool) {fuel : ℕ}
    (hfuel : recs.length < fuel) (copySize : UInt64) (s : Poller) :
    (bpfPerfEventReadSimpleAt eventReceivedAt mmapSize malloc fuel mmap copySize s).map
        (fun r ↦ r.1.seen) =
      liftFault (bpfPerfEventReadSimple (ringRecords mmapSize malloc pos copySize recs) s) ∧
    ∀ r mmap', bpfPerfEventReadSimpleAt eventReceivedAt mmapSize malloc fuel mmap copySize s =
        .ok (r, mmap') →
      ∃ pre suf, recs = pre ++ suf ∧
        pre.length =
          ((ringRecords mmapSize malloc pos copySize recs).takeWhile (·.copied)).length ∧
        Unread mmapSize mmap' (pos + pre.flatten.length) suf := by
  unfold bpfPerfEventReadSimpleAt
  rw [h.dataHead, h.dataTail]
  constructor
  · rw [← readEvents_refines hsize h.holds s hfuel]
    cases readEvents eventReceivedAt mmapSize _ mmap.data malloc fuel _ copySize s with
    | error e => rfl
    | ok r => rfl
  · intro r mmap' hread
    obtain ⟨r', hr', hend⟩ := bind_eq_ok_iff.mp hread
    obtain ⟨rfl, rfl⟩ := Prod.mk.inj (Except.ok.inj hend)
    obtain ⟨pre, suf, rfl, hlen, htail, hholds⟩ := readEvents_dataTail hsize h.holds hfuel hr'
    refine ⟨pre, suf, rfl, hlen, hholds, htail, ?_⟩
    rw [Nat.add_assoc, ← List.length_append, ← List.flatten_append]

/-- A ring into which records are put from `pos` on. -/
theorem unread_fill {recs : List (List UInt8)} (hrecs : ∀ rec ∈ recs, IsRecord rec) (hpos : 8 ∣ pos)
    (hroom : recs.flatten.length ≤ mmapSize.toNat) {data : ℕ → UInt8}
    (hdata : mmap.data = fill mmapSize.toNat data pos recs.flatten)
    (htail : mmap.dataTail = UInt64.ofNat pos)
    (hhead : mmap.dataHead = UInt64.ofNat (pos + recs.flatten.length)) :
    Unread mmapSize mmap pos recs := by
  refine ⟨⟨hpos, hroom, ?_, hrecs⟩, htail, hhead⟩
  rw [hdata]
  exact span_fill hroom

/-- A sample of a packet from `src`. -/
def sampleOf (src : UInt32) : Sample :=
  ⟨⟨0xffffffff, { PktMeta.zero with src := src }⟩, [], ⟨0, (0, 0), [0, 0, 0, 0]⟩⟩

/-- A ring of 256 bytes with the records of three samples of 48 bytes from position 200 on. The
second one is copied, as it reaches over the end of the ring. -/
def threeSamples : PerfMmap where
  dataHead := 344
  dataTail := 200
  data := fill (UInt64.toNat 256) (fun _ ↦ 0) 200
    ([1, 2, 3].map fun src ↦ (sampleOf src).record).flatten

theorem unread_threeSamples :
    Unread 256 threeSamples 200 ([1, 2, 3].map fun src ↦ (sampleOf src).record) := by
  have hrecs : ∀ rec ∈ [1, 2, 3].map fun src ↦ (sampleOf src).record, IsRecord rec := by decide
  exact unread_fill hrecs (by decide) (by decide +kernel) rfl rfl (by decide +kernel)

theorem perf_read_refines_wrap :
    let recs := [1, 2, 3].map fun src ↦ (sampleOf src).record
    let s : Poller := .init ⟨∅, ∅, ⟨4, 4, 1, 1⟩⟩
    (bpfPerfEventReadSimpleAt eventReceivedAt 256 (fun _ ↦ true) 4 threeSamples 0 s).map
          (fun r ↦ r.1.seen) =
        liftFault (bpfPerfEventReadSimple (ringRecords 256 (fun _ ↦ true) 200 0 recs) s) ∧
      ∀ r mmap', bpfPerfEventReadSimpleAt eventReceivedAt 256 (fun _ ↦ true) 4 threeSamples 0 s =
          .ok (r, mmap') →
        ∃ pre suf, recs = pre ++ suf ∧
          pre.length =
            ((ringRecords 256 (fun _ ↦ true) 200 0 recs).takeWhile (·.copied)).length ∧
          Unread 256 mmap' (200 + pre.flatten.length) suf := by
  intro recs s
  have hsize : PageSized 256 := ⟨⟨8, rfl⟩, by decide⟩
  exact perf_read_refines hsize unread_threeSamples _ (Nat.lt_succ_self 3) 0 s

theorem ringRecords_samples (xs : List Sample) (copySize : UInt64) :
    ringRecords mmapSize (fun _ ↦ true) pos copySize (xs.map Sample.record) =
      xs.map fun x ↦ ⟨perfRecordSample, x.output.pktMeta, true⟩ := by
  induction xs generalizing pos copySize with
  | nil => rfl
  | cons x xs ih =>
      rw [List.map_cons, ringRecords, ih, x.decodeRecord_eq]
      simp

theorem ringSamples_samples (xs : List Sample) :
    ringSamples (xs.map fun x ↦ ⟨perfRecordSample, x.output.pktMeta, true⟩) =
      xs.map fun x ↦ x.output.pktMeta := by
  induction xs with
  | nil => rfl
  | cons x xs ih =>
      rw [List.map_cons, ringSamples_cons, ih]
      rfl

/-- The metadata of the samples in a ring is queued in the order of the outputs, and the ring is
read to its end, if every buffer can be allocated and the queue has room. -/
theorem samples_round_trip (hsize : PageSized mmapSize) {xs : List Sample}
    (h : Unread mmapSize mmap pos (xs.map Sample.record)) {fuel : ℕ} (hfuel : xs.length < fuel)
    (copySize : UInt64) {s : Poller} (hroom : s.queue.length + xs.length ≤ queueSlots) :
    ∃ c, bpfPerfEventReadSimpleAt eventReceivedAt mmapSize (fun _ ↦ true) fuel mmap copySize s =
      .ok (⟨libbpfPerfEventCont,
          { s with queue := s.queue ++ xs.map fun x ↦ x.output.pktMeta },
          stores s.queue.length (xs.map fun x ↦ x.output.pktMeta), mmap.dataHead, c⟩,
        { mmap with dataTail := mmap.dataHead }) := by
  have hfuel' : (xs.map Sample.record).length < fuel := by simpa using hfuel
  have hseen : (readEvents eventReceivedAt mmapSize
      (UInt64.ofNat (pos + (xs.map Sample.record).flatten.length)) mmap.data (fun _ ↦ true) fuel
      (UInt64.ofNat pos) copySize s).map ReadEnd.seen = _ :=
    readEvents_refines hsize h.holds s hfuel'
  rw [ringRecords_samples, bpfPerfEventReadSimple_eq _ (by omega), ringSamples_samples,
    if_pos (by simp), storeAll, if_pos (by simpa using hroom)] at hseen
  unfold bpfPerfEventReadSimpleAt
  rw [h.dataHead, h.dataTail]
  cases hrun : readEvents eventReceivedAt mmapSize _ mmap.data (fun _ ↦ true) fuel _ copySize s with
  | error e =>
      rw [hrun] at hseen
      cases hseen
  | ok r =>
      obtain ⟨pre, suf, hsplit, hlen, htail, -⟩ := readEvents_dataTail hsize h.holds hfuel' hrun
      have hall : pre.length = (pre ++ suf).length := by
        rw [hlen, ← hsplit, ringRecords_samples, List.takeWhile_eq_self_iff.mpr (by simp)]
        simp
      obtain rfl : suf = [] := by simpa using hall
      rw [List.append_nil] at hsplit
      rw [hrun] at hseen
      obtain ⟨hret, hrest⟩ := Prod.mk.inj (Except.ok.inj hseen)
      obtain ⟨hstate, hlog⟩ := Prod.mk.inj hrest
      obtain ⟨ret, state, log, dataTail, c⟩ := r
      dsimp only at hret hstate hlog htail
      subst hret hstate hlog htail
      rw [hsplit]
      exact ⟨c, rfl⟩

theorem samples_round_trip_wrap :
    let xs := [1, 2, 3].map sampleOf
    let s : Poller := .init ⟨∅, ∅, ⟨4, 4, 1, 1⟩⟩
    ∃ c, bpfPerfEventReadSimpleAt eventReceivedAt 256 (fun _ ↦ true) 4 threeSamples 0 s =
      .ok (⟨libbpfPerfEventCont, { s with queue := s.queue ++ xs.map fun x ↦ x.output.pktMeta },
          stores s.queue.length (xs.map fun x ↦ x.output.pktMeta), threeSamples.dataHead, c⟩,
        { threeSamples with dataTail := threeSamples.dataHead }) := by
  intro xs s
  have hsize : PageSized 256 := ⟨⟨8, rfl⟩, by decide⟩
  exact samples_round_trip hsize unread_threeSamples (Nat.lt_succ_self 3) 0 (by decide)

end AntiDos
