import AntiDos.Filter.Headers

/-!
# The program agrees with the inspection of the fields

One lemma for each parser and each case of the switch says what it returns, as a function of the
fields of the frame. All reads are behind the checks of the parsers, so none faults.
-/

namespace AntiDos

open Bytes Faulting

variable (f : List UInt8)

/-! ## The parsers -/

theorem parseEthhdr_eq :
    parseEthhdr f ⟨0⟩ = .ok (if 14 ≤ f.length then
      ⟨(le16 (byte f 12) (byte f 13)).toNat, ⟨14⟩, some 0⟩ else ⟨-1, ⟨0⟩, none⟩) := by
  unfold parseEthhdr sizeofEthhdr
  dsimp only
  by_cases hlen : 14 ≤ f.length
  · rw [if_pos hlen, if_neg (by omega), load16_of_le (by omega)]
    rfl
  · rw [if_neg hlen, if_pos (by omega)]

theorem parseIphdr_eq :
    parseIphdr f ⟨14⟩ = .ok (if Ipv4Valid f then
      ⟨(ipProtocol f).toNat, ⟨transportOffset f⟩, some 14⟩ else ⟨-1, ⟨14⟩, none⟩) := by
  unfold parseIphdr sizeofIphdr
  dsimp only
  by_cases hlen : 34 ≤ f.length
  · have hsize : (byte f 14 &&& 0x0f).toNat * 4 = 4 * ihl f := by
      rw [and_low_nibble, ihl, Nat.mul_comm]
    rw [if_neg (by omega), load8_of_lt (by omega), ok_bind]
    rw [hsize]
    by_cases hihl : 5 ≤ ihl f
    · rw [if_neg (by omega)]
      by_cases hend : transportOffset f ≤ f.length
      · rw [if_neg (by unfold transportOffset at hend; omega), load8_of_lt (by omega),
          if_pos ⟨hlen, hihl, hend⟩]
        rfl
      · rw [if_pos (by unfold transportOffset at hend; omega), if_neg fun h ↦ hend h.2.2]
    · rw [if_pos (by omega), if_neg fun h ↦ hihl h.2.1]
  · rw [if_pos (by omega), if_neg fun h ↦ hlen h.1]

theorem parseTcphdr_eq :
    parseTcphdr f ⟨transportOffset f⟩ = .ok (if TcpValid f then
      ⟨(4 * dataOffset f : ℕ), ⟨transportOffset f + 4 * dataOffset f⟩, some (transportOffset f)⟩
      else ⟨-1, ⟨transportOffset f⟩, none⟩) := by
  unfold parseTcphdr sizeofTcphdr
  dsimp only
  by_cases hlen : transportOffset f + 20 ≤ f.length
  · have hsize : (byte f (transportOffset f + 12) >>> 4).toNat * 4 = 4 * dataOffset f := by
      rw [shift_high_nibble, dataOffset, Nat.mul_comm]
    rw [if_neg (by omega), load8_of_lt (by omega), ok_bind]
    rw [hsize]
    by_cases hdoff : 5 ≤ dataOffset f
    · rw [if_neg (by omega)]
      by_cases hend : transportOffset f + 4 * dataOffset f ≤ f.length
      · rw [if_neg (by omega), if_pos ⟨hlen, hdoff, hend⟩]
      · rw [if_pos (by omega), if_neg fun h ↦ hend h.2.2]
    · rw [if_pos (by omega), if_neg fun h ↦ hdoff h.2.1]
  · rw [if_pos (by omega), if_neg fun h ↦ hlen h.1]

theorem parseUdphdr_eq (h : transportOffset f + 8 ≤ f.length) :
    parseUdphdr f ⟨transportOffset f⟩ = .ok ⟨if 8 ≤ udpLength f then udpLength f - 8 else -1,
      ⟨transportOffset f + 8⟩, some (transportOffset f)⟩ := by
  unfold parseUdphdr sizeofUdphdr
  dsimp only
  have hlen : (bpfHtons (le16 (byte f (transportOffset f + 4))
      (byte f (transportOffset f + 4 + 1)))).toNat = udpLength f := bswap16_le16 _ _
  rw [if_neg (by omega), load16_of_le (by omega), ok_bind]
  rw [hlen]
  by_cases hudp : 8 ≤ udpLength f
  · rw [if_pos hudp, if_neg (by omega)]
    rfl
  · rw [if_neg hudp, if_pos (by omega)]

theorem parseUdphdr_short (h : ¬ transportOffset f + 8 ≤ f.length) :
    parseUdphdr f ⟨transportOffset f⟩ = .ok ⟨-1, ⟨transportOffset f⟩, none⟩ := by
  unfold parseUdphdr sizeofUdphdr
  dsimp only
  exact if_pos (by omega)

theorem parseIcmphdr_ok (nh : HdrCursor) : ∃ p, parseIcmphdr f nh = .ok p := by
  unfold parseIcmphdr sizeofIcmphdr
  dsimp only
  split
  · exact ⟨_, rfl⟩
  · rename_i hlen
    rw [load8_of_lt (by omega)]
    exact ⟨_, rfl⟩

/-! ## The cases of the switch -/

def packetRec : PacketRec where
  srcAddr := sourceAddr f
  destAddr := destAddr f
  totLen := le16 (byte f 16) (byte f 17)
  fragOff := le16 (byte f 20) (byte f 21)
  tcpFlags4 := 0

theorem tcpStupid_eq (b : UInt8) (hsyn : SynSet f ↔ b &&& 1 ≠ 0) :
    tcpStupid { packetRec f with tcpFlags4 := b } =
      if Fragmented f ∧ SynSet f then (true, note f msgFragmentedTcp) else (false, []) := by
  unfold tcpStupid
  have hfrag : tcpFragment (packetRec f).fragOff b = true ↔ Fragmented f ∧ SynSet f := by
    rw [tcpFragment, decide_eq_true_iff, hsyn]
    exact and_congr_left' (fragment_mask _ _)
  by_cases h : Fragmented f ∧ SynSet f
  · rw [if_pos h]
    exact if_pos (hfrag.mpr h)
  · rw [if_neg h]
    exact if_neg fun hfire ↦ h (hfrag.mp hfire)

theorem icmpStupid_eq :
    icmpStupid (packetRec f) =
      if Fragmented f then (true, note f msgFragmentedIcmp)
      else if 1024 < totalLength f then (true, note f msgLargeIcmp) else (false, []) := by
  have hfrag : icmpFragment (packetRec f).fragOff = true ↔ Fragmented f := by
    rw [icmpFragment, decide_eq_true_iff]
    exact fragment_mask _ _
  have hlarge : icmpLargePacket (packetRec f).totLen = true ↔ 1024 < totalLength f := by
    rw [icmpLargePacket, decide_eq_true_iff, UInt16.lt_iff_toNat_lt, totalLength]
    exact iff_of_eq (congrArg _ (bswap16_le16 _ _))
  unfold icmpStupid
  rw [ite_congr (propext hfrag) (fun _ ↦ rfl) fun _ ↦
    ite_congr (propext hlarge) (fun _ ↦ rfl) fun _ ↦ rfl]
  rfl

def contribution (ports : UInt16 × UInt16) (seq : UInt32) : PktMeta :=
  { PktMeta.zero with port16 := ports, seq := seq }

theorem tcpCase_eq :
    tcpCase f ⟨transportOffset f⟩ (packetRec f) = .ok
      (if ¬ TcpValid f then (.out xdpDrop .zero, [])
      else if Fragmented f ∧ SynSet f then (.out xdpDrop .zero, note f msgFragmentedTcp)
      else (.done 20 (contribution (ports f) (sequenceNumber f)), [])) := by
  unfold tcpCase
  rw [parseTcphdr_eq, ok_bind]
  by_cases hvalid : TcpValid f
  · have hlen : transportOffset f + 20 ≤ f.length := hvalid.1
    rw [if_pos hvalid, if_neg (by dsimp only; omega), if_neg (not_not_intro hvalid)]
    simp only [deref, ok_bind]
    rw [load8_of_lt (by omega), ok_bind, tcpStupid_eq f _ (syn_bit _).symm]
    by_cases hdrop : Fragmented f ∧ SynSet f
    · rw [if_pos hdrop, if_pos hdrop]
      rfl
    · rw [if_neg hdrop, if_neg hdrop, load16_of_le (by omega), load16_of_le (by omega),
        load32_of_le (by omega)]
      rfl
  · rw [if_neg hvalid, if_pos hvalid]
    rfl

theorem udpCase_eq :
    udpCase f ⟨transportOffset f⟩ = .ok
      (if ¬ UdpValid f then (.out xdpDrop .zero, [])
      else (.done 8 (contribution (ports f) 0), [])) := by
  unfold udpCase
  by_cases hlen : transportOffset f + 8 ≤ f.length
  · rw [parseUdphdr_eq f hlen, ok_bind]
    by_cases hudp : 8 ≤ udpLength f
    · rw [if_pos hudp, if_neg (by dsimp only; omega), if_neg (not_not_intro ⟨hlen, hudp⟩)]
      simp only [deref, ok_bind]
      rw [load16_of_le (by omega), load16_of_le (by omega)]
      rfl
    · rw [if_neg hudp, if_pos (show (-1 : Int) < 0 by decide), if_pos fun h ↦ hudp h.2]
  · rw [parseUdphdr_short f hlen, ok_bind, if_pos (show (-1 : Int) < 0 by decide),
      if_pos fun h ↦ hlen h.1]

theorem icmpCase_eq (nh : HdrCursor) :
    icmpCase f nh (packetRec f) = .ok
      (if Fragmented f then (.out xdpDrop .zero, note f msgFragmentedIcmp)
      else if 1024 < totalLength f then (.out xdpDrop .zero, note f msgLargeIcmp)
      else (.done 8 (contribution (0, 0) 0), [])) := by
  obtain ⟨p, hp⟩ := parseIcmphdr_ok f nh
  unfold icmpCase
  rw [hp, ok_bind, icmpStupid_eq]
  by_cases hfrag : Fragmented f
  · rw [if_pos hfrag, if_pos hfrag]
    rfl
  · rw [if_neg hfrag, if_neg hfrag]
    by_cases hlarge : 1024 < totalLength f
    · rw [if_pos hlarge, if_pos hlarge]
      rfl
    · rw [if_neg hlarge, if_neg hlarge]
      rfl

/-! ## The program -/

theorem fillMeta_eq (h : Ipv4Valid f) (size : ℕ) (off : UInt32)
    (hoff : (off + UInt32.ofNat 34).toUInt64 = UInt64.ofNat (34 + size))
    (ports : UInt16 × UInt16) (seq : UInt32) :
    fillMeta f 8 14 off (contribution ports seq) = .ok (packetMeta f size ports seq) := by
  have hlen : 34 ≤ f.length := h.1
  unfold fillMeta sizeofEthhdr sizeofIphdr
  rw [load32_of_le (by omega), load32_of_le (by omega), load8_of_lt (by omega)]
  simp only [ok_bind, hoff]
  rfl

theorem afterSwitch_out (ethType : Int) (iphdr : ℕ) (action : UInt32) (m : PktMeta)
    (l : List Printk) :
    afterSwitch f ethType iphdr (.out action m, l) = .ok (.out action m, l) := rfl

theorem afterSwitch_done (h : Ipv4Valid f) (size : ℕ) (off : UInt32)
    (hoff : (off + UInt32.ofNat 34).toUInt64 = UInt64.ofNat (34 + size))
    (ports : UInt16 × UInt16) (seq : UInt32) (l : List Printk) :
    afterSwitch f 8 14 (.done off (contribution ports seq), l) =
      .ok (.out xdpPass (packetMeta f size ports seq), l) := by
  dsimp only [afterSwitch]
  rw [fillMeta_eq f h size off hoff, ok_bind]

theorem protocol_eq_iff (n : UInt8) :
    ((ipProtocol f).toNat : Int) = n.toNat ↔ ipProtocol f = n := by
  rw [Int.ofNat_inj, UInt8.toNat_inj]

theorem switch_eq (h : Ipv4Valid f) :
    protocolSwitch f (ipProtocol f).toNat ⟨transportOffset f⟩ (packetRec f) >>=
      afterSwitch f 8 14 = .ok (inspectTransport f) := by
  have hsix : ((ipProtocol f).toNat : Int) = 6 ↔ ipProtocol f = 6 := protocol_eq_iff f 6
  have hseventeen : ((ipProtocol f).toNat : Int) = 17 ↔ ipProtocol f = 17 := protocol_eq_iff f 17
  have hone : ((ipProtocol f).toNat : Int) = 1 ↔ ipProtocol f = 1 := protocol_eq_iff f 1
  simp only [protocolSwitch, inspectTransport, hsix, hseventeen, hone]
  by_cases htcp : ipProtocol f = 6
  · rw [if_pos htcp, if_pos htcp, tcpCase_eq, ok_bind]
    by_cases hvalid : TcpValid f
    · rw [if_neg (not_not_intro hvalid), if_neg (not_not_intro hvalid)]
      by_cases hdrop : Fragmented f ∧ SynSet f
      · rw [if_pos hdrop, if_pos hdrop, afterSwitch_out]
      · rw [if_neg hdrop, if_neg hdrop, afterSwitch_done f h 20 20 rfl]
    · rw [if_pos hvalid, if_pos hvalid, afterSwitch_out]
  rw [if_neg htcp, if_neg htcp]
  by_cases hudp : ipProtocol f = 17
  · rw [if_pos hudp, if_pos hudp, udpCase_eq, ok_bind]
    by_cases hvalid : UdpValid f
    · rw [if_neg (not_not_intro hvalid), if_neg (not_not_intro hvalid),
        afterSwitch_done f h 8 8 rfl]
    · rw [if_pos hvalid, if_pos hvalid, afterSwitch_out]
  rw [if_neg hudp, if_neg hudp]
  by_cases hicmp : ipProtocol f = 1
  · rw [if_pos hicmp, if_pos hicmp, icmpCase_eq, ok_bind]
    by_cases hfrag : Fragmented f
    · rw [if_pos hfrag, if_pos hfrag, afterSwitch_out]
    · rw [if_neg hfrag, if_neg hfrag]
      by_cases hlarge : 1024 < totalLength f
      · rw [if_pos hlarge, if_pos hlarge, afterSwitch_out]
      · rw [if_neg hlarge, if_neg hlarge, afterSwitch_done f h 8 8 rfl]
  · rw [if_neg hicmp, if_neg hicmp]
    rfl

theorem ipv4Case_eq (k : FilterState) :
    ipv4Case k f 8 ⟨14⟩ = .ok
      (if ¬ Ipv4Valid f then (.out xdpDrop .zero, [])
      else if sourceAddr f ∈ k.whiteList then (.ret xdpPass, note f msgWhiteList)
      else if sourceAddr f ∈ k.blackList then (.ret xdpDrop, note f msgBlackList)
      else inspectTransport f) := by
  unfold ipv4Case
  rw [parseIphdr_eq, ok_bind]
  by_cases h : Ipv4Valid f
  · have hlen : 34 ≤ f.length := h.1
    rw [if_pos h, if_neg (by dsimp only; omega), if_neg (not_not_intro h)]
    have hsrc : load32 FilterFault.outside f (14 + 12) = .ok (sourceAddr f) :=
      load32_of_le (by omega)
    have hdst : load32 FilterFault.outside f (14 + 16) = .ok (destAddr f) :=
      load32_of_le (by omega)
    simp only [deref, ok_bind, hsrc, hdst, inWhiteList, inBlackList, decide_eq_true_eq]
    by_cases hwhite : sourceAddr f ∈ k.whiteList
    · rw [if_pos hwhite, if_pos hwhite]
      rfl
    rw [if_neg hwhite, if_neg hwhite]
    by_cases hblack : sourceAddr f ∈ k.blackList
    · rw [if_pos hblack, if_pos hblack]
      rfl
    rw [if_neg hblack, if_neg hblack, load16_of_le (by omega), load16_of_le (by omega), ok_bind,
      ok_bind]
    exact switch_eq f h
  · rw [if_neg h, if_pos h]
    rfl

theorem ethIpv4_iff : ((le16 (byte f 12) (byte f 13)).toNat : Int) = 8 ↔ EthIpv4 f := by
  have h12 := (byte f 12).toNat_lt
  have h13 := (byte f 13).toNat_lt
  rw [le16_toNat, EthIpv4, ← UInt8.toNat_inj, ← UInt8.toNat_inj]
  change _ ↔ _ = 8 ∧ _ = 0
  omega

/-- On every frame the program reads in bounds and does what the inspection of the fields says. -/
theorem parsePacket_eq (k : FilterState) :
    parsePacket k f = .ok (inspect f k.whiteList k.blackList) := by
  have hhtons : ((bpfHtons 0x0800).toNat : Int) = 8 := by decide
  unfold parsePacket inspect
  rw [parseEthhdr_eq, ok_bind, hhtons]
  by_cases hlen : 14 ≤ f.length
  · rw [if_pos hlen, if_neg (by dsimp only; omega), if_neg (by omega : ¬ f.length < 14)]
    by_cases heth : EthIpv4 f
    · have hret := (ethIpv4_iff f).mpr heth
      rw [if_pos hret, if_neg (not_not_intro heth)]
      dsimp only
      rw [hret, ipv4Case_eq]
    · rw [if_neg fun heq ↦ heth ((ethIpv4_iff f).mp heq), if_pos heth]
  · rw [if_neg hlen, if_pos (show (-1 : Int) < 0 by decide), if_pos (by omega : f.length < 14)]

end AntiDos
