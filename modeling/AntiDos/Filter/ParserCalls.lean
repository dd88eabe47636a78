import AntiDos.Filter.Verdict
import AntiDos.Lib.Logged

/-!
# The filter program, with its steps written down

The same program once more, which notes each call of a header parser, with the cursor before it and
what it leaves, and the metadata block. It does what the program does, and the notes of every frame
are read off its fields.
-/

namespace AntiDos

open Bytes Faulting Logging

/-! ## The steps -/

inductive HeaderParser where
  | ethhdr
  | iphdr
  | icmphdr
  | udphdr
  | tcphdr
  deriving DecidableEq

def HeaderParser.parse : HeaderParser → List UInt8 → HdrCursor → Except FilterFault Parsed
  | .ethhdr => parseEthhdr
  | .iphdr => parseIphdr
  | .icmphdr => parseIcmphdr
  | .udphdr => parseUdphdr
  | .tcphdr => parseTcphdr

/-- `nh` is the cursor before the call. -/
structure ParserCall where
  parser : HeaderParser
  nh : HdrCursor
  parsed : Parsed
  deriving DecidableEq

/-- `fill` is the metadata block, with the record it leaves. -/
inductive FilterStep where
  | parse (call : ParserCall)
  | fill (pktMeta : PktMeta)
  deriving DecidableEq

abbrev Steps (α : Type) : Type := Logged FilterStep FilterFault α

def call (parser : HeaderParser) (f : List UInt8) (nh : HdrCursor) : Steps Parsed := do
  let p ← parser.parse f nh
  tell (.parse ⟨parser, nh, p⟩)
  pure p

/-! ## The program -/

def tcpCaseSteps (f : List UInt8) (nh : HdrCursor) (pkt : PacketRec) :
    Steps (CaseEnd × List Printk) := do
  let p ← call .tcphdr f nh
  if p.ret < 0 then pure (.out xdpDrop .zero, [])
  else
    let tcphdr ← deref p.hdr
    let b ← load8 FilterFault.outside f (tcphdr + 13)
    let r := tcpStupid { pkt with tcpFlags4 := (b >>> 1) &&& 1 }
    if r.1 then pure (.out xdpDrop .zero, r.2)
    else
      let source ← load16 FilterFault.outside f tcphdr
      let dest ← load16 FilterFault.outside f (tcphdr + 2)
      let seq ← load32 FilterFault.outside f (tcphdr + 4)
      pure (.done sizeofTcphdr.toUInt32 { PktMeta.zero with port16 := (source, dest), seq := seq },
        r.2)

def udpCaseSteps (f : List UInt8) (nh : HdrCursor) : Steps (CaseEnd × List Printk) := do
  let p ← call .udphdr f nh
  if p.ret < 0 then pure (.out xdpDrop .zero, [])
  else
    let udphdr ← deref p.hdr
    let source ← load16 FilterFault.outside f udphdr
    let dest ← load16 FilterFault.outside f (udphdr + 2)
    pure (.done sizeofUdphdr.toUInt32 { PktMeta.zero with port16 := (source, dest) }, [])

def icmpCaseSteps (f : List UInt8) (nh : HdrCursor) (pkt : PacketRec) :
    Steps (CaseEnd × List Printk) := do
  let _ ← call .icmphdr f nh
  let r := icmpStupid pkt
  if r.1 then pure (.out xdpDrop .zero, r.2)
  else pure (.done sizeofIcmphdr.toUInt32 { PktMeta.zero with port16 := (0, 0) }, r.2)

def protocolSwitchSteps (f : List UInt8) (ipType : Int) (nh : HdrCursor) (pkt : PacketRec) :
    Steps (CaseEnd × List Printk) :=
  if ipType = 6 then tcpCaseSteps f nh pkt
  else if ipType = 17 then udpCaseSteps f nh
  else if ipType = 1 then icmpCaseSteps f nh pkt
  else pure (.out xdpPass .zero, [])

def afterSwitchSteps (f : List UInt8) (ethType : Int) (iphdr : ℕ) (r : CaseEnd × List Printk) :
    Steps (ProgramEnd × List Printk) :=
  match r.1 with
  | .out action m => pure (.out action m, r.2)
  | .done off m => do
      let m ← fillMeta f ethType iphdr off m
      tell (.fill m)
      pure (.out xdpPass m, r.2)

def ipv4CaseSteps (k : FilterState) (f : List UInt8) (ethType : Int) (nh : HdrCursor) :
    Steps (ProgramEnd × List Printk) := do
  let ip ← call .iphdr f nh
  if ip.ret < 0 then pure (.out xdpDrop .zero, [])
  else
    let iphdr ← deref ip.hdr
    let saddr ← load32 FilterFault.outside f (iphdr + 12)
    let daddr ← load32 FilterFault.outside f (iphdr + 16)
    if inWhiteList k.whiteList saddr then pure (.ret xdpPass, [⟨msgWhiteList, saddr, daddr⟩])
    else if inBlackList k.blackList saddr then
      pure (.ret xdpDrop, [⟨msgBlackList, saddr, daddr⟩])
    else
      let totLen ← load16 FilterFault.outside f (iphdr + 2)
      let fragOff ← load16 FilterFault.outside f (iphdr + 6)
      let r ← protocolSwitchSteps f ip.ret ip.nh ⟨saddr, daddr, totLen, fragOff, 0⟩
      afterSwitchSteps f ethType iphdr r

def parsePacketSteps (k : FilterState) (f : List UInt8) : Steps (ProgramEnd × List Printk) := do
  let eth ← call .ethhdr f ⟨0⟩
  if eth.ret < 0 then pure (.out xdpDrop .zero, [])
  else if eth.ret = (bpfHtons 0x0800).toNat then ipv4CaseSteps k f eth.ret eth.nh
  else pure (.out xdpPass .zero, [])

def xdpParserFuncSteps (k : FilterState) (f : List UInt8) : Steps (UInt32 × FilterState) := do
  let r ← parsePacketSteps k f
  let k := { k with trace := k.trace ++ r.2 }
  match r.1 with
  | .ret action => pure (action, k)
  | .out action m => pure (xdpStatsRecordAction f.length action m k)

/-! ## What is written down -/

variable {f : List UInt8} {nh : HdrCursor} {p : Parsed} {pkt : PacketRec} {k : FilterState}

theorem does_call (parser : HeaderParser) (hp : parser.parse f nh = .ok p) :
    Does (call parser f nh) (.ok p) [.parse ⟨parser, nh, p⟩] := by
  unfold call
  rw [hp]
  exact (does_lift (.ok p)).bind_ok ((does_tell _).bind_ok (does_pure p))

theorem tcpCaseSteps_does (pkt : PacketRec) (hp : parseTcphdr f nh = .ok p) :
    Does (tcpCaseSteps f nh pkt) (tcpCase f nh pkt) [.parse ⟨.tcphdr, nh, p⟩] := by
  unfold tcpCaseSteps tcpCase
  rw [hp]
  refine (does_call .tcphdr hp).bind_cons (Does.ite (does_pure _) ?_)
  refine (does_lift _).bind fun tcphdr ↦ (does_lift _).bind fun b ↦ ?_
  refine Does.ite (does_pure _) ((does_lift _).bind fun source ↦ ?_)
  exact (does_lift _).bind fun dest ↦ (does_lift _).bind fun seq ↦ does_pure _

theorem udpCaseSteps_does (hp : parseUdphdr f nh = .ok p) :
    Does (udpCaseSteps f nh) (udpCase f nh) [.parse ⟨.udphdr, nh, p⟩] := by
  unfold udpCaseSteps udpCase
  rw [hp]
  refine (does_call .udphdr hp).bind_cons (Does.ite (does_pure _) ?_)
  refine (does_lift _).bind fun udphdr ↦ (does_lift _).bind fun source ↦ ?_
  exact (does_lift _).bind fun dest ↦ does_pure _

theorem icmpCaseSteps_does (pkt : PacketRec) (hp : parseIcmphdr f nh = .ok p) :
    Does (icmpCaseSteps f nh pkt) (icmpCase f nh pkt) [.parse ⟨.icmphdr, nh, p⟩] := by
  unfold icmpCaseSteps icmpCase
  rw [hp]
  exact (does_call .icmphdr hp).bind_cons (Does.ite (does_pure _) (does_pure _))

theorem afterSwitchSteps_out (ethType : Int) (iphdr : ℕ) (action : UInt32) (m : PktMeta)
    (l : List Printk) :
    Does (afterSwitchSteps f ethType iphdr (.out action m, l)) (.ok (.out action m, l)) [] :=
  does_pure _

theorem afterSwitchSteps_done (h : Ipv4Valid f) (size : ℕ) (off : UInt32)
    (hoff : (off + UInt32.ofNat 34).toUInt64 = UInt64.ofNat (34 + size))
    (ports : UInt16 × UInt16) (seq : UInt32) (l : List Printk) :
    Does (afterSwitchSteps f 8 14 (.done off (contribution ports seq), l))
      (.ok (.out xdpPass (packetMeta f size ports seq), l))
      [.fill (packetMeta f size ports seq)] := by
  dsimp only [afterSwitchSteps]
  rw [fillMeta_eq f h size off hoff]
  exact (does_lift (.ok _)).bind_ok ((does_tell _).bind_ok (does_pure _))

/-! ## What is written down, read off the fields -/

section Fields

variable (f : List UInt8) (whiteList blackList : Finset UInt32)

def ethParsed : Parsed :=
  if 14 ≤ f.length then ⟨(le16 (byte f 12) (byte f 13)).toNat, ⟨14⟩, some 0⟩ else ⟨-1, ⟨0⟩, none⟩

def ipParsed : Parsed :=
  if Ipv4Valid f then ⟨(ipProtocol f).toNat, ⟨transportOffset f⟩, some 14⟩ else ⟨-1, ⟨14⟩, none⟩

def tcpParsed : Parsed :=
  if TcpValid f then
    ⟨(4 * dataOffset f : ℕ), ⟨transportOffset f + 4 * dataOffset f⟩, some (transportOffset f)⟩
  else ⟨-1, ⟨transportOffset f⟩, none⟩

def udpParsed : Parsed :=
  if transportOffset f + 8 ≤ f.length then
    ⟨if 8 ≤ udpLength f then udpLength f - 8 else -1, ⟨transportOffset f + 8⟩,
      some (transportOffset f)⟩
  else ⟨-1, ⟨transportOffset f⟩, none⟩

def icmpParsed : Parsed :=
  if transportOffset f + 8 ≤ f.length then
    ⟨(byte f (transportOffset f)).toNat, ⟨transportOffset f + 8⟩, some (transportOffset f)⟩
  else ⟨-1, ⟨transportOffset f⟩, none⟩

def transportCall : List FilterStep :=
  if ipProtocol f = 6 then [.parse ⟨.tcphdr, ⟨transportOffset f⟩, tcpParsed f⟩]
  else if ipProtocol f = 17 then [.parse ⟨.udphdr, ⟨transportOffset f⟩, udpParsed f⟩]
  else if ipProtocol f = 1 then [.parse ⟨.icmphdr, ⟨transportOffset f⟩, icmpParsed f⟩]
  else []

/-- The metadata block is reached by the packets of the three protocols that pass. -/
def fillSteps : List FilterStep :=
  if ipProtocol f = 6 ∨ ipProtocol f = 17 ∨ ipProtocol f = 1 then
    match (inspectTransport f).1 with
    | .out action m => if action = xdpPass then [.fill m] else []
    | .ret _ => []
  else []

def filterSteps : List FilterStep :=
  .parse ⟨.ethhdr, ⟨0⟩, ethParsed f⟩ ::
    if f.length < 14 ∨ ¬ EthIpv4 f then []
    else
      .parse ⟨.iphdr, ⟨14⟩, ipParsed f⟩ ::
        if ¬ Ipv4Valid f ∨ sourceAddr f ∈ whiteList ∨ sourceAddr f ∈ blackList then []
        else transportCall f ++ fillSteps f

end Fields

theorem ethParsed_of_le (hlen : 14 ≤ f.length) :
    ethParsed f = ⟨(le16 (byte f 12) (byte f 13)).toNat, ⟨14⟩, some 0⟩ := if_pos hlen

theorem ipParsed_of_valid (h : Ipv4Valid f) :
    ipParsed f = ⟨(ipProtocol f).toNat, ⟨transportOffset f⟩, some 14⟩ := if_pos h

theorem parseUdphdr_parsed (f : List UInt8) :
    parseUdphdr f ⟨transportOffset f⟩ = .ok (udpParsed f) := by
  unfold udpParsed
  split
  · rename_i hlen
    exact parseUdphdr_eq f hlen
  · rename_i hlen
    exact parseUdphdr_short f hlen

theorem parseIcmphdr_parsed (f : List UInt8) :
    parseIcmphdr f ⟨transportOffset f⟩ = .ok (icmpParsed f) := by
  unfold parseIcmphdr sizeofIcmphdr icmpParsed
  dsimp only
  by_cases hlen : transportOffset f + 8 ≤ f.length
  · rw [if_pos hlen, if_neg (by omega), load8_of_lt (by omega)]
    rfl
  · rw [if_neg hlen, if_pos (by omega)]

theorem switchSteps_does (h : Ipv4Valid f) :
    Does (protocolSwitchSteps f (ipProtocol f).toNat ⟨transportOffset f⟩ (packetRec f) >>=
        afterSwitchSteps f 8 14)
      (.ok (inspectTransport f)) (transportCall f ++ fillSteps f) := by
  have hsix : ((ipProtocol f).toNat : Int) = 6 ↔ ipProtocol f = 6 := protocol_eq_iff f 6
  have hseventeen : ((ipProtocol f).toNat : Int) = 17 ↔ ipProtocol f = 17 := protocol_eq_iff f 17
  have hone : ((ipProtocol f).toNat : Int) = 1 ↔ ipProtocol f = 1 := protocol_eq_iff f 1
  simp only [protocolSwitchSteps, transportCall, fillSteps, inspectTransport, hsix, hseventeen,
    hone]
  by_cases htcp : ipProtocol f = 6
  · have hcase := tcpCaseSteps_does (packetRec f) (parseTcphdr_eq f)
    rw [tcpCase_eq] at hcase
    simp only [htcp, if_true, true_or]
    refine hcase.bind_ok ?_
    by_cases hvalid : TcpValid f
    · by_cases hdrop : Fragmented f ∧ SynSet f
      · simp only [hvalid, hdrop, not_true_eq_false, if_true, if_false, and_self]
        exact afterSwitchSteps_out _ _ _ _ _
      · simp only [hvalid, hdrop, not_true_eq_false, if_true, if_false]
        exact afterSwitchSteps_done h 20 20 rfl _ _ _
    · simp only [hvalid, not_false_eq_true, if_true]
      exact afterSwitchSteps_out _ _ _ _ _
  by_cases hudp : ipProtocol f = 17
  · have hcase := udpCaseSteps_does (parseUdphdr_parsed f)
    rw [udpCase_eq] at hcase
    simp only [hudp, if_true, true_or, or_true]
    refine hcase.bind_ok ?_
    by_cases hvalid : UdpValid f
    · simp only [hvalid, not_true_eq_false, if_false]
      exact afterSwitchSteps_done h 8 8 rfl _ _ _
    · simp only [hvalid, not_false_eq_true, if_true]
      exact afterSwitchSteps_out _ _ _ _ _
  by_cases hicmp : ipProtocol f = 1
  · have hcase := icmpCaseSteps_does (packetRec f) (parseIcmphdr_parsed f)
    rw [icmpCase_eq] at hcase
    simp only [hicmp, if_true, or_true]
    refine hcase.bind_ok ?_
    by_cases hfrag : Fragmented f
    · simp only [hfrag, if_true]
      exact afterSwitchSteps_out _ _ _ _ _
    · by_cases hlarge : 1024 < totalLength f
      · simp only [hfrag, hlarge, if_true, if_false]
        exact afterSwitchSteps_out _ _ _ _ _
      · simp only [hfrag, hlarge, if_false]
        exact afterSwitchSteps_done h 8 8 rfl _ _ _
  · simp only [htcp, hudp, hicmp, if_false, or_false]
    exact (does_pure _).bind_ok (afterSwitchSteps_out _ _ _ _ _)

theorem ipv4CaseSteps_does (f : List UInt8) (k : FilterState) :
    Does (ipv4CaseSteps k f 8 ⟨14⟩) (ipv4Case k f 8 ⟨14⟩)
      (.parse ⟨.iphdr, ⟨14⟩, ipParsed f⟩ ::
        if ¬ Ipv4Valid f ∨ sourceAddr f ∈ k.whiteList ∨ sourceAddr f ∈ k.blackList then []
        else transportCall f ++ fillSteps f) := by
  rw [ipv4Case_eq]
  unfold ipv4CaseSteps
  refine (does_call .iphdr (parseIphdr_eq f)).bind_cons ?_
  by_cases h : Ipv4Valid f
  · have hlen : 34 ≤ f.length := h.1
    have hsrc : load32 FilterFault.outside f (14 + 12) = .ok (sourceAddr f) :=
      load32_of_le (by omega)
    have hdst : load32 FilterFault.outside f (14 + 16) = .ok (destAddr f) :=
      load32_of_le (by omega)
    have htot : load16 FilterFault.outside f (14 + 2) = .ok (packetRec f).totLen :=
      load16_of_le (by omega)
    have hoff : load16 FilterFault.outside f (14 + 6) = .ok (packetRec f).fragOff :=
      load16_of_le (by omega)
    rw [if_pos h, if_neg (by dsimp only; omega), if_neg (not_not_intro h)]
    refine (does_lift (.ok 14)).bind_value ?_
    rw [hsrc, hdst]
    refine (does_lift (.ok _)).bind_value ((does_lift (.ok _)).bind_value ?_)
    simp only [inWhiteList, inBlackList, decide_eq_true_eq]
    by_cases hwhite : sourceAddr f ∈ k.whiteList
    · simp only [hwhite, true_or, or_true, if_true]
      exact does_pure _
    by_cases hblack : sourceAddr f ∈ k.blackList
    · simp only [hwhite, hblack, or_true, if_true, if_false]
      exact does_pure _
    simp only [hwhite, hblack, h, not_true_eq_false, or_self, if_false]
    rw [htot, hoff]
    exact (does_lift (.ok _)).bind_value ((does_lift (.ok _)).bind_value (switchSteps_does h))
  · rw [if_neg h, if_pos h, if_pos (Or.inl h)]
    exact does_pure _

/-- On every frame the instrumented program does what the program does, and writes down the steps
read off the fields. -/
theorem parsePacketSteps_does (k : FilterState) (f : List UInt8) :
    Does (parsePacketSteps k f) (parsePacket k f)
      (filterSteps f k.whiteList k.blackList) := by
  have hhtons : ((bpfHtons 0x0800).toNat : Int) = 8 := by decide
  unfold parsePacketSteps parsePacket filterSteps
  rw [parseEthhdr_eq, ok_bind, hhtons]
  refine (does_call .ethhdr (parseEthhdr_eq f)).bind_cons ?_
  by_cases hlen : 14 ≤ f.length
  · have hshort : ¬ f.length < 14 := Nat.not_lt.mpr hlen
    have hnonneg : ¬ ((le16 (byte f 12) (byte f 13)).toNat : Int) < 0 := by omega
    rw [if_pos hlen]
    dsimp only
    rw [if_neg hnonneg, if_neg hnonneg]
    by_cases heth : EthIpv4 f
    · have hret := (ethIpv4_iff f).mpr heth
      simp only [hret, if_true, hshort, heth, not_true_eq_false, or_self, if_false]
      exact ipv4CaseSteps_does f k
    · have hret := mt (ethIpv4_iff f).mp heth
      simp only [hret, if_false, heth, not_false_eq_true, or_true, if_true]
      exact does_pure _
  · rw [if_neg hlen, if_pos (show (-1 : Int) < 0 by decide), if_pos (Or.inl (Nat.not_le.mp hlen)),
      if_pos (show (-1 : Int) < 0 by decide)]
    exact does_pure _

theorem xdpParserFuncSteps_does (k : FilterState) (f : List UInt8) :
    Does (xdpParserFuncSteps k f) (xdpParserFunc k f)
      (filterSteps f k.whiteList k.blackList) := by
  have hparse := parsePacketSteps_does k f
  unfold xdpParserFuncSteps xdpParserFunc
  rw [parsePacket_eq] at hparse ⊢
  rw [ok_bind, ← List.append_nil (filterSteps f k.whiteList k.blackList)]
  refine hparse.bind_ok ?_
  cases (inspect f k.whiteList k.blackList).1 with
  | ret action => exact does_pure _
  | out action m => exact does_pure _

theorem xdpParserFuncSteps_run (k : FilterState) (f : List UInt8) :
    ∃ r, xdpParserFunc k f = .ok r ∧
      (xdpParserFuncSteps k f).run [] = .ok (r, filterSteps f k.whiteList k.blackList) := by
  have hdoes := xdpParserFuncSteps_does k f
  obtain ⟨r, hr⟩ : ∃ r, xdpParserFunc k f = .ok r := by
    rw [xdpParserFunc_eq]
    dsimp only
    cases (inspect f k.whiteList k.blackList).1 with
    | ret action => exact ⟨_, rfl⟩
    | out action m => exact ⟨_, rfl⟩
  rw [hr] at hdoes
  exact ⟨r, hr, hdoes.run_eq⟩

end AntiDos
