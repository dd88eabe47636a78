import AntiDos.Filter.FailClosed
import AntiDos.Filter.InFrame

/-!
# The payload length that is reported

The offset behind which the payload is taken to begin is the sum of the fixed header sizes, while
the cursor moves by the lengths in the headers. The two agree for headers without options that lie
in the frame.
-/

namespace AntiDos

open Bytes Faulting Logging

variable {f : List UInt8} {k : FilterState} {m : PktMeta} {steps : List FilterStep}

/-- The header bytes of a packet whose headers are all parsed. -/
def headerBytes (f : List UInt8) : ℕ :=
  14 + 4 * ihl f + if ipProtocol f = 6 then 4 * dataOffset f else 8

/-- The payload length and the header bytes, as integers, add up to the length of the frame. -/
def LengthAccounted (m : PktMeta) (header : ℕ) : Prop :=
  m.dataLen.toNat + header = m.pktLen.toNat ∧ m.dataLen ≤ m.pktLen

/-- The headers have the sizes the offset is made of, and an ICMP header lies in the frame. -/
def FixedSizes (f : List UInt8) : Prop :=
  ihl f = 5 ∧ (ipProtocol f = 6 → dataOffset f = 5) ∧ (ipProtocol f = 1 → 42 ≤ f.length)

/-- An ICMP header that does not lie in the frame, behind an IPv4 header whose options happen to be
as long as the ICMP header. -/
def MissingIcmp (f : List UInt8) : Prop :=
  ipProtocol f = 1 ∧ ihl f = 7 ∧ f.length < 50

/-! ## The metadata block -/

theorem packetMeta_dataLen (hlen : f.length < 65536) {size : ℕ} (hsize : size ≤ 20)
    (ports : UInt16 × UInt16) (seq : UInt32) :
    (packetMeta f size ports seq).dataLen.toNat =
      if 34 + size ≤ f.length then f.length - (34 + size) else f.length + 65536 - (34 + size) := by
  simp only [packetMeta, UInt64.toNat_toUInt16, UInt64.toNat_sub, UInt64.toNat_ofNat']
  split_ifs <;> omega

theorem accounted_packetMeta (hlen : f.length < 65536) {size : ℕ} (hsize : size ≤ 20)
    (ports : UInt16 × UInt16) (seq : UInt32) (header : ℕ) :
    LengthAccounted (packetMeta f size ports seq) header ↔
      34 + size ≤ f.length ∧ header = 34 + size := by
  rw [LengthAccounted, UInt16.le_iff_toNat_le, packetMeta_pktLen, packetMeta_dataLen hlen hsize]
  split_ifs <;> omega

theorem mem_fillSteps (h : .fill m ∈ fillSteps f) :
    (ipProtocol f = 6 ∧ TcpValid f ∧ m = packetMeta f 20 (ports f) (sequenceNumber f)) ∨
      (ipProtocol f = 17 ∧ UdpValid f ∧ m = packetMeta f 8 (ports f) 0) ∨
        (ipProtocol f = 1 ∧ m = packetMeta f 8 (0, 0) 0) := by
  unfold fillSteps inspectTransport at h
  by_cases htcp : ipProtocol f = 6
  · by_cases hvalid : TcpValid f
    · by_cases hdrop : Fragmented f ∧ SynSet f
      · simp [htcp, hvalid, hdrop] at h
      · exact Or.inl ⟨htcp, hvalid, by simpa [htcp, hvalid, hdrop] using h⟩
    · simp [htcp, hvalid] at h
  by_cases hudp : ipProtocol f = 17
  · by_cases hvalid : UdpValid f
    · exact Or.inr (Or.inl ⟨hudp, hvalid, by simpa [hudp, hvalid] using h⟩)
    · simp [hudp, hvalid] at h
  by_cases hicmp : ipProtocol f = 1
  · refine Or.inr (Or.inr ⟨hicmp, ?_⟩)
    by_cases hfrag : Fragmented f
    · simp [hicmp, hfrag] at h
    · by_cases hlarge : 1024 < totalLength f
      · simp [hicmp, hfrag, hlarge] at h
      · simpa [hicmp, hfrag, hlarge] using h
  · simp [htcp, hudp, hicmp] at h

/-! ## The cursor -/

theorem lastCursor_append (nh : HdrCursor) (steps steps' : List FilterStep) :
    lastCursor nh (steps ++ steps') = lastCursor (lastCursor nh steps) steps' := by
  induction steps generalizing nh with
  | nil => rfl
  | cons step steps ih =>
      cases step with
      | parse c => exact ih c.parsed.nh
      | fill m => exact ih nh

theorem lastCursor_fillSteps (f : List UInt8) (nh : HdrCursor) :
    lastCursor nh (fillSteps f) = nh := by
  unfold fillSteps
  split_ifs
  · split
    · split_ifs <;> rfl
    · rfl
  · rfl

theorem fill_not_mem_transportCall : .fill m ∉ transportCall f := by
  unfold transportCall
  split_ifs <;> simp

theorem mem_filterSteps_fill {whiteList blackList : Finset UInt32}
    (h : .fill m ∈ filterSteps f whiteList blackList) :
    Ipv4Valid f ∧ .fill m ∈ fillSteps f ∧
      lastCursor ⟨0⟩ (filterSteps f whiteList blackList) =
        lastCursor ⟨transportOffset f⟩ (transportCall f) := by
  unfold filterSteps at h ⊢
  by_cases hstop : f.length < 14 ∨ ¬ EthIpv4 f
  · simp [hstop] at h
  rw [if_neg hstop] at h ⊢
  by_cases hstop' : ¬ Ipv4Valid f ∨ sourceAddr f ∈ whiteList ∨ sourceAddr f ∈ blackList
  · simp [hstop'] at h
  rw [if_neg hstop'] at h ⊢
  have hvalid : Ipv4Valid f := not_not.mp fun hbad ↦ hstop' (Or.inl hbad)
  have hfill : .fill m ∈ fillSteps f := by
    simpa [fill_not_mem_transportCall] using h
  refine ⟨hvalid, hfill, ?_⟩
  rw [lastCursor, lastCursor, ipParsed_of_valid hvalid, lastCursor_append, lastCursor_fillSteps]

/-! ## The sum -/

theorem accounted_tcp (hlen : f.length < 65536) (hip : Ipv4Valid f) (htcp : ipProtocol f = 6)
    (h : TcpValid f) (ports : UInt16 × UInt16) (seq : UInt32) :
    LengthAccounted (packetMeta f 20 ports seq) (transportOffset f + 4 * dataOffset f) ↔
      FixedSizes f := by
  obtain ⟨-, hihl, -⟩ := hip
  obtain ⟨-, hdoff, hend⟩ := h
  have hfixed : FixedSizes f ↔ ihl f = 5 ∧ dataOffset f = 5 := by simp [FixedSizes, htcp]
  rw [accounted_packetMeta hlen le_rfl, hfixed]
  unfold transportOffset at hend ⊢
  omega

theorem accounted_udp (hlen : f.length < 65536) (hip : Ipv4Valid f) (hudp : ipProtocol f = 17)
    (h : UdpValid f) (ports : UInt16 × UInt16) (seq : UInt32) :
    LengthAccounted (packetMeta f 8 ports seq) (transportOffset f + 8) ↔ FixedSizes f := by
  obtain ⟨-, hihl, -⟩ := hip
  have hend := h.1
  have hfixed : FixedSizes f ↔ ihl f = 5 := by simp [FixedSizes, hudp]
  rw [accounted_packetMeta hlen (by decide), hfixed]
  unfold transportOffset at hend ⊢
  omega

theorem accounted_icmp (hlen : f.length < 65536) (hip : Ipv4Valid f) (hicmp : ipProtocol f = 1)
    (ports : UInt16 × UInt16) (seq : UInt32) :
    (LengthAccounted (packetMeta f 8 ports seq) (icmpParsed f).nh.pos ↔
        FixedSizes f ∨ MissingIcmp f) ∧
      (LengthAccounted (packetMeta f 8 ports seq) (transportOffset f + 8) ↔ FixedSizes f) := by
  obtain ⟨-, hihl, hend⟩ := hip
  have hfixed : FixedSizes f ↔ ihl f = 5 ∧ 42 ≤ f.length := by simp [FixedSizes, hicmp]
  have hmissing : MissingIcmp f ↔ ihl f = 7 ∧ f.length < 50 := by simp [MissingIcmp, hicmp]
  rw [accounted_packetMeta hlen (by decide), accounted_packetMeta hlen (by decide), hfixed,
    hmissing]
  unfold icmpParsed
  unfold transportOffset at hend ⊢
  constructor
  · split
    · dsimp only
      omega
    · dsimp only
      omega
  · omega

theorem or_missingIcmp_iff (h : ipProtocol f ≠ 1) : FixedSizes f ∨ MissingIcmp f ↔ FixedSizes f :=
  or_iff_left fun hmissing ↦ h hmissing.1

/-- For a frame that reaches the metadata block, the payload length is right, counting the header
bytes the parsers have moved over, exactly for headers of the fixed sizes, but for a coincidence;
counting an ICMP header in any case, exactly for these. -/
theorem payload_length_iff (k : FilterState) (f : List UInt8) (hlen : f.length < 65536)
    {r : UInt32 × FilterState} (hrun : (xdpParserFuncSteps k f).run [] = .ok (r, steps))
    (hfill : .fill m ∈ steps) :
    (LengthAccounted m (lastCursor ⟨0⟩ steps).pos ↔ FixedSizes f ∨ MissingIcmp f) ∧
      (LengthAccounted m (headerBytes f) ↔ FixedSizes f) := by
  obtain ⟨r', -, hrun'⟩ := xdpParserFuncSteps_run k f
  obtain ⟨-, rfl⟩ := Prod.mk.inj (Except.ok.inj (hrun'.symm.trans hrun))
  obtain ⟨hip, hfill, hcursor⟩ := mem_filterSteps_fill hfill
  rw [hcursor]
  unfold headerBytes transportCall
  rcases mem_fillSteps hfill with ⟨htcp, h, rfl⟩ | ⟨hudp, h, rfl⟩ | ⟨hicmp, rfl⟩
  · have htcp' : tcpParsed f = ⟨(4 * dataOffset f : ℕ), ⟨transportOffset f + 4 * dataOffset f⟩,
        some (transportOffset f)⟩ := if_pos h
    rw [or_missingIcmp_iff (by simp [htcp]), if_pos htcp, if_pos htcp, lastCursor, htcp']
    exact ⟨accounted_tcp hlen hip htcp h _ _, accounted_tcp hlen hip htcp h _ _⟩
  · have htcp : ipProtocol f ≠ 6 := by simp [hudp]
    have hcall : (udpParsed f).nh = ⟨transportOffset f + 8⟩ := by
      rw [udpParsed, if_pos h.1]
    rw [or_missingIcmp_iff (by simp [hudp]), if_neg htcp, if_pos hudp, if_neg htcp, lastCursor,
      lastCursor, hcall]
    exact ⟨accounted_udp hlen hip hudp h _ _, accounted_udp hlen hip hudp h _ _⟩
  · have htcp : ipProtocol f ≠ 6 := by simp [hicmp]
    have hudp : ipProtocol f ≠ 17 := by simp [hicmp]
    rw [if_neg htcp, if_neg hudp, if_pos hicmp, if_neg htcp]
    exact accounted_icmp hlen hip hicmp _ _

def synFrame : List UInt8 :=
  ipv4Frame 6 0 [10, 0, 0, 7] [10, 10, 10, 10]
    ([0x30, 0x39, 0, 80, 0, 0, 0, 1, 0, 0, 0, 0, 0x50, 0x02] ++ List.replicate 6 0)

theorem synFrame_accounted :
    LengthAccounted (packetMeta synFrame 20 (ports synFrame) (sequenceNumber synFrame))
      (lastCursor ⟨0⟩ (filterSteps synFrame ∅ ∅)).pos := by
  obtain ⟨r, -, hrun⟩ := xdpParserFuncSteps_run (.init ∅ ∅) synFrame
  exact (payload_length_iff (.init ∅ ∅) synFrame (by decide) hrun (by decide)).1.mpr
    (Or.inl ⟨by decide, fun _ ↦ by decide, fun h ↦ absurd h (by decide)⟩)

/-- The payload is reported to be 65532 bytes long, in a frame of 38. -/
theorem truncated_icmp_not_accounted :
    ∃ r steps m, (xdpParserFuncSteps (.init ∅ ∅) shortIcmpFrame).run [] = .ok (r, steps) ∧
      .fill m ∈ steps ∧ m.dataLen = 65532 ∧ m.pktLen = 38 ∧
        ¬ LengthAccounted m (lastCursor ⟨0⟩ steps).pos ∧
          ¬ LengthAccounted m (headerBytes shortIcmpFrame) := by
  obtain ⟨r, -, hrun⟩ := xdpParserFuncSteps_run (.init ∅ ∅) shortIcmpFrame
  refine ⟨r, _, packetMeta shortIcmpFrame 8 (0, 0) 0, hrun, by decide, by decide, by decide, ?_, ?_⟩
  · exact fun h ↦ absurd h.2 (by decide)
  · exact fun h ↦ absurd h.2 (by decide)

end AntiDos
