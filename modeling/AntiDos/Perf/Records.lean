import AntiDos.Filter.Program
import AntiDos.Poller.EventPoller

/-!
# Records of the perf ring

`bpf_perf_event_output` puts a header, the time and the length of the raw data in front of the
metadata, appends the first bytes of the frame, and fills up the record to a multiple of eight
bytes. `event_received` and `policy_stats` read the type and the metadata back at the offsets of
`struct perf_event_sample`.
-/

namespace AntiDos

open Bytes Faulting

/-- A read outside the ring or outside a record, a loop cut off, or a fault of the callback. -/
inductive PerfFault where
  | ring (offset : ℕ)
  | record (offset : ℕ)
  | cutOff
  | poller (fault : Fault)
  deriving DecidableEq

/-! ## The record of a sample -/

/-- The memory image of `struct pkt_meta`. -/
def PktMeta.image (m : PktMeta) : List UInt8 :=
  image32 m.src ++ (image32 m.dst ++ (image16 m.port16.1 ++ (image16 m.port16.2 ++
    (image16 m.l3Proto ++ (image16 m.l4Proto ++ (image16 m.dataLen ++ (image16 m.pktLen ++
      image32 m.seq)))))))

abbrev sizeofPktMeta : ℕ := 24

@[simp] theorem PktMeta.length_image (m : PktMeta) : m.image.length = sizeofPktMeta := rfl

/-- `BPF_F_CTXLEN_MASK` of the flags: how much of the frame is appended. -/
def PerfOutput.ctxLen (ev : PerfOutput) : ℕ := (ev.flags >>> 32 &&& 0xfffff).toNat

/-- What the kernel adds to an output: the flags `misc` of the header, the time in two words, and
the bytes at the end, of which none is written. -/
structure Stamp where
  misc : UInt16
  time : UInt32 × UInt32
  pad : List UInt8

/-- An output with the frame it is about and what the kernel adds to it. -/
structure Sample where
  output : PerfOutput
  frame : List UInt8
  stamp : Stamp

/-- The raw data: the metadata, a first part of the frame, and the filling. -/
def Sample.raw (x : Sample) : List UInt8 :=
  x.output.pktMeta.image ++ (x.frame.take x.output.ctxLen ++ x.stamp.pad)

/-- The bytes of `struct perf_event_sample`. -/
def Sample.record (x : Sample) : List UInt8 :=
  image32 perfRecordSample ++ (image16 x.stamp.misc ++
    (image16 (UInt16.ofNat (20 + x.raw.length)) ++ (image32 x.stamp.time.1 ++
      (image32 x.stamp.time.2 ++ (image32 (UInt32.ofNat x.raw.length) ++ x.raw)))))

/-- The kernel aligns a record to eight bytes, and its size fits the field of the header. -/
structure Sample.Aligned (x : Sample) : Prop where
  align : 8 ∣ 20 + x.raw.length
  size : 20 + x.raw.length < 2 ^ 16

/-! ## Reading a record -/

/-- `sample->meta`, at offset `i`. -/
def loadMeta {ε : Type} (fault : ℕ → ε) (event : List UInt8) (i : ℕ) : Except ε PktMeta := do
  let src ← load32 fault event i
  let dst ← load32 fault event (i + 4)
  let sport ← load16 fault event (i + 4 + 4)
  let dport ← load16 fault event (i + 4 + 4 + 2)
  let l3Proto ← load16 fault event (i + 4 + 4 + 2 + 2)
  let l4Proto ← load16 fault event (i + 4 + 4 + 2 + 2 + 2)
  let dataLen ← load16 fault event (i + 4 + 4 + 2 + 2 + 2 + 2)
  let pktLen ← load16 fault event (i + 4 + 4 + 2 + 2 + 2 + 2 + 2)
  let seq ← load32 fault event (i + 4 + 4 + 2 + 2 + 2 + 2 + 2 + 2)
  .ok ⟨src, dst, (sport, dport), l3Proto, l4Proto, dataLen, pktLen, seq⟩

/-- Offset of `meta` in `struct perf_event_sample`. -/
abbrev metaOffset : ℕ := 20

/-- A fault of the poll loop, as a fault of the callback. -/
def liftFault {α : Type} : Except Fault α → Except PerfFault α
  | .ok a => .ok a
  | .error e => .error (.poller e)

/-- `event_received` and `policy_stats` on the bytes of a record. -/
def eventReceivedAt (event : List UInt8) (s : Poller) :
    Except PerfFault (Int × Poller × List Event) := do
  let type ← load32 .record event 0
  if type = perfRecordSample then
    let m ← loadMeta .record event metaOffset
    liftFault (policyStats m s)
  else .ok (libbpfPerfEventCont, s, [])

/-! ## Well-formed records -/

/-- The size in the header of a record. -/
def recordSize (rec : List UInt8) : ℕ := (le16 (byte rec 6) (byte rec 7)).toNat

/-- The records that the kernel puts into a ring: of the size their header gives, aligned to eight
bytes, and a sample with all of its metadata. -/
structure IsRecord (rec : List UInt8) : Prop where
  size : recordSize rec = rec.length
  align : 8 ∣ rec.length
  pos : rec ≠ []
  whole : le32 (byte rec 0) (byte rec 1) (byte rec 2) (byte rec 3) = perfRecordSample →
    metaOffset + sizeofPktMeta ≤ rec.length

instance (rec : List UInt8) : Decidable (IsRecord rec) :=
  decidable_of_iff (_ ∧ _ ∧ _ ∧ _)
    ⟨fun ⟨size, align, pos, whole⟩ ↦ ⟨size, align, pos, whole⟩,
      fun ⟨size, align, pos, whole⟩ ↦ ⟨size, align, pos, whole⟩⟩

/-- A record as the poll loop takes it. -/
def decodeRecord (rec : List UInt8) (copied : Bool) : PerfRecord where
  type := le32 (byte rec 0) (byte rec 1) (byte rec 2) (byte rec 3)
  pktMeta := (loadMeta (fun _ ↦ ()) rec metaOffset).toOption.getD .zero
  copied := copied

/-! ## The parts of a record -/

variable {f post : List UInt8} {i : ℕ} {m : PktMeta}

theorem loadMeta_of_drop {ε : Type} {fault : ℕ → ε} (h : f.drop i = m.image ++ post) :
    loadMeta fault f i = .ok m := by
  unfold PktMeta.image at h
  simp only [List.append_assoc] at h
  have hdst := drop_of_append h (length_image32 _)
  have hsport := drop_of_append hdst (length_image32 _)
  have hdport := drop_of_append hsport (length_image16 _)
  have hl3 := drop_of_append hdport (length_image16 _)
  have hl4 := drop_of_append hl3 (length_image16 _)
  have hdata := drop_of_append hl4 (length_image16 _)
  have hpkt := drop_of_append hdata (length_image16 _)
  have hseq := drop_of_append hpkt (length_image16 _)
  simp only [loadMeta, load32_of_drop h, load32_of_drop hdst, load16_of_drop hsport,
    load16_of_drop hdport, load16_of_drop hl3, load16_of_drop hl4, load16_of_drop hdata,
    load16_of_drop hpkt, load32_of_drop hseq, ok_bind]

theorem loadMeta_of_le {ε : Type} {fault : ℕ → ε} (h : i + sizeofPktMeta ≤ f.length) :
    ∃ m, loadMeta fault f i = .ok m := by
  dsimp only [sizeofPktMeta] at h
  unfold loadMeta
  rw [load32_of_le (by omega), load32_of_le (by omega), load16_of_le (by omega),
    load16_of_le (by omega), load16_of_le (by omega), load16_of_le (by omega),
    load16_of_le (by omega), load16_of_le (by omega), load32_of_le (by omega)]
  exact ⟨_, rfl⟩

/-- What is loaded does not depend on how a load outside would be reported. -/
theorem loadMeta_congr {ε ε' : Type} {fault : ℕ → ε} {fault' : ℕ → ε'}
    (h : i + sizeofPktMeta ≤ f.length) :
    loadMeta fault f i = .ok m ↔ loadMeta fault' f i = .ok m := by
  dsimp only [sizeofPktMeta] at h
  simp only [loadMeta, load32_of_le (show i + 4 ≤ f.length by omega),
    load32_of_le (show i + 4 + 4 ≤ f.length by omega),
    load16_of_le (show i + 4 + 4 + 2 ≤ f.length by omega),
    load16_of_le (show i + 4 + 4 + 2 + 2 ≤ f.length by omega),
    load16_of_le (show i + 4 + 4 + 2 + 2 + 2 ≤ f.length by omega),
    load16_of_le (show i + 4 + 4 + 2 + 2 + 2 + 2 ≤ f.length by omega),
    load16_of_le (show i + 4 + 4 + 2 + 2 + 2 + 2 + 2 ≤ f.length by omega),
    load16_of_le (show i + 4 + 4 + 2 + 2 + 2 + 2 + 2 + 2 ≤ f.length by omega),
    load32_of_le (show i + 4 + 4 + 2 + 2 + 2 + 2 + 2 + 2 + 4 ≤ f.length by omega), ok_bind,
    Except.ok.injEq]

theorem IsRecord.eight_le {rec : List UInt8} (h : IsRecord rec) : 8 ≤ rec.length :=
  Nat.le_of_dvd (List.length_pos_iff.mpr h.pos) h.align

/-- On the bytes of a record the callback does what it does on the record. -/
theorem eventReceivedAt_eq {rec : List UInt8} (h : IsRecord rec) (copied : Bool) (s : Poller) :
    eventReceivedAt rec s = liftFault (eventReceived (decodeRecord rec copied) s) := by
  have htype : load32 PerfFault.record rec 0 = .ok (decodeRecord rec copied).type :=
    load32_of_le (Nat.le_trans (by decide) h.eight_le)
  rw [eventReceivedAt, htype, ok_bind, eventReceived]
  split
  · rename_i hsample
    have hwhole := h.whole hsample
    obtain ⟨m, hm⟩ : ∃ m, loadMeta PerfFault.record rec metaOffset = .ok m := loadMeta_of_le hwhole
    have hdecode : (decodeRecord rec copied).pktMeta = m := by
      simp only [decodeRecord, (loadMeta_congr hwhole).mp hm]
      rfl
    rw [hm, ok_bind, hdecode]
  · rfl

variable {x : Sample}

@[simp] theorem Sample.length_record (x : Sample) : x.record.length = 20 + x.raw.length := by
  simp [Sample.record]
  omega

theorem Sample.record_type {ε : Type} {fault : ℕ → ε} :
    load32 fault x.record 0 = .ok perfRecordSample := load32_of_drop rfl

theorem Sample.record_size {ε : Type} {fault : ℕ → ε} :
    load16 fault x.record 6 = .ok (UInt16.ofNat (20 + x.raw.length)) := load16_of_drop rfl

theorem Sample.record_meta {ε : Type} {fault : ℕ → ε} :
    loadMeta fault x.record metaOffset = .ok x.output.pktMeta := by
  apply loadMeta_of_drop
  exact rfl

/-- What the kernel makes of an output is a record, and decodes to the metadata of the output. -/
theorem Sample.isRecord (h : x.Aligned) : IsRecord x.record := by
  have hlen := x.length_record
  refine ⟨?_, hlen ▸ h.align, ?_, fun _ ↦ ?_⟩
  · have hsize : load16 PerfFault.record x.record 6 = .ok (UInt16.ofNat (20 + x.raw.length)) :=
      Sample.record_size
    rw [load16_of_le (by omega)] at hsize
    exact (congrArg UInt16.toNat (Except.ok.inj hsize)).trans
      ((UInt16.toNat_ofNat_of_lt' h.size).trans hlen.symm)
  · exact List.length_pos_iff.mp (by omega)
  · rw [hlen]
    simp [Sample.raw]

theorem Sample.decodeRecord_eq (x : Sample) (copied : Bool) :
    decodeRecord x.record copied = ⟨perfRecordSample, x.output.pktMeta, copied⟩ := by
  have htype : load32 PerfFault.record x.record 0 = .ok perfRecordSample := Sample.record_type
  rw [load32_of_le (by rw [x.length_record]; omega)] at htype
  rw [decodeRecord, Sample.record_meta]
  exact congrArg (PerfRecord.mk · x.output.pktMeta copied) (Except.ok.inj htype)

end AntiDos
