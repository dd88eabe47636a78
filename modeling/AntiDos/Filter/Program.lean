import AntiDos.Filter.CheckRules
import AntiDos.Packet
import Mathlib.Logic.Function.Basic

/-!
# The filter program

`xdp_parser_func` decides on one frame: it parses the headers, asks the two lists and the rules,
and, unless a list has decided, counts the frame under its verdict and reports it to user space when
it passes.
-/

namespace AntiDos

open Bytes Faulting

/-! ## Verdicts -/

abbrev xdpAborted : UInt32 := 0

abbrev xdpDrop : UInt32 := 1

abbrev xdpPass : UInt32 := 2

@[simp] theorem xdpAborted_ne_xdpPass : xdpAborted ≠ xdpPass := by decide

@[simp] theorem xdpDrop_ne_xdpPass : xdpDrop ≠ xdpPass := by decide

abbrev xdpActionMax : UInt32 := 5

/-! ## The state the program works on -/

structure DataRec where
  rxPackets : UInt64
  rxBytes : UInt64
  deriving DecidableEq

/-- One `bpf_perf_event_output`. -/
structure PerfOutput where
  flags : UInt64
  pktMeta : PktMeta
  deriving DecidableEq

/-- The maps as the CPU that runs the program sees them, the trace pipe, and the records submitted
to the perf ring. `stats a` is `none` when the lookup of action `a` fails. -/
structure FilterState where
  whiteList : Finset UInt32
  blackList : Finset UInt32
  stats : UInt32 → Option DataRec
  trace : List Printk
  perf : List PerfOutput

abbrev bpfFCurrentCpu : UInt64 := 0xffffffff

/-- `xdp_stats_record_action`, on a frame of `len` bytes. -/
def xdpStatsRecordAction (len : ℕ) (action : UInt32) (pkt : PktMeta) (k : FilterState) :
    UInt32 × FilterState :=
  if xdpActionMax ≤ action then (xdpAborted, k)
  else
    match k.stats action with
    | none => (xdpAborted, k)
    | some rec =>
        let rec' : DataRec := ⟨rec.rxPackets + 1, rec.rxBytes + UInt64.ofNat len⟩
        let k := { k with stats := Function.update k.stats action (some rec') }
        if action ≠ xdpPass then (action, k)
        else
          let flags := pkt.pktLen.toUInt64 <<< 32 ||| bpfFCurrentCpu
          (action, { k with perf := k.perf ++ [⟨flags, pkt⟩] })

/-! ## The transport headers -/

/-- How a case of the protocol switch ends: by `goto out` with the action and the metadata so far,
or by `break` with the size added to `off`. -/
inductive CaseEnd where
  | out (action : UInt32) (pktMeta : PktMeta)
  | done (off : UInt32) (pktMeta : PktMeta)

def deref : Option ℕ → Except FilterFault ℕ
  | some p => .ok p
  | none => .error .unset

def tcpCase (f : List UInt8) (nh : HdrCursor) (pkt : PacketRec) :
    Except FilterFault (CaseEnd × List Printk) := do
  let p ← parseTcphdr f nh
  if p.ret < 0 then .ok (.out xdpDrop .zero, [])
  else
    let tcphdr ← deref p.hdr
    let b ← load8 .outside f (tcphdr + 13)
    let r := tcpStupid { pkt with tcpFlags4 := (b >>> 1) &&& 1 }
    if r.1 then .ok (.out xdpDrop .zero, r.2)
    else
      let source ← load16 .outside f tcphdr
      let dest ← load16 .outside f (tcphdr + 2)
      let seq ← load32 .outside f (tcphdr + 4)
      .ok (.done sizeofTcphdr.toUInt32 { PktMeta.zero with port16 := (source, dest), seq := seq },
        r.2)

def udpCase (f : List UInt8) (nh : HdrCursor) : Except FilterFault (CaseEnd × List Printk) := do
  let p ← parseUdphdr f nh
  if p.ret < 0 then .ok (.out xdpDrop .zero, [])
  else
    let udphdr ← deref p.hdr
    let source ← load16 .outside f udphdr
    let dest ← load16 .outside f (udphdr + 2)
    .ok (.done sizeofUdphdr.toUInt32 { PktMeta.zero with port16 := (source, dest) }, [])

/-- `case IPPROTO_ICMP`. What `parse_icmphdr` returns is not looked at. -/
def icmpCase (f : List UInt8) (nh : HdrCursor) (pkt : PacketRec) :
    Except FilterFault (CaseEnd × List Printk) := do
  let _ ← parseIcmphdr f nh
  let r := icmpStupid pkt
  if r.1 then .ok (.out xdpDrop .zero, r.2)
  else .ok (.done sizeofIcmphdr.toUInt32 { PktMeta.zero with port16 := (0, 0) }, r.2)

def protocolSwitch (f : List UInt8) (ipType : Int) (nh : HdrCursor) (pkt : PacketRec) :
    Except FilterFault (CaseEnd × List Printk) :=
  if ipType = 6 then tcpCase f nh pkt
  else if ipType = 17 then udpCase f nh
  else if ipType = 1 then icmpCase f nh pkt
  else .ok (.out xdpPass .zero, [])

/-! ## The program -/

/-- How the program ends: with a verdict of its own, or at `out`. -/
inductive ProgramEnd where
  | ret (action : UInt32)
  | out (action : UInt32) (pktMeta : PktMeta)
  deriving DecidableEq

/-- The metadata of a packet that passes its case of the switch. -/
def fillMeta (f : List UInt8) (ethType : Int) (iphdr : ℕ) (off : UInt32) (m : PktMeta) :
    Except FilterFault PktMeta := do
  let off := off + UInt32.ofNat (sizeofEthhdr + sizeofIphdr)
  let saddr ← load32 .outside f (iphdr + 12)
  let daddr ← load32 .outside f (iphdr + 16)
  let protocol ← load8 .outside f (iphdr + 9)
  .ok { m with
    pktLen := (UInt64.ofNat f.length).toUInt16
    dataLen := (UInt64.ofNat f.length - off.toUInt64).toUInt16
    l3Proto := bpfHtons (UInt16.ofNat ethType.toNat)
    src := saddr
    dst := daddr
    l4Proto := protocol.toUInt16 }

/-- What follows a case of the switch: the jump to `out`, or the metadata block. -/
def afterSwitch (f : List UInt8) (ethType : Int) (iphdr : ℕ) (r : CaseEnd × List Printk) :
    Except FilterFault (ProgramEnd × List Printk) :=
  match r.1 with
  | .out action m => .ok (.out action m, r.2)
  | .done off m => do
      let m ← fillMeta f ethType iphdr off m
      .ok (.out xdpPass m, r.2)

/-- `case bpf_htons(ETH_P_IP)`. -/
def ipv4Case (k : FilterState) (f : List UInt8) (ethType : Int) (nh : HdrCursor) :
    Except FilterFault (ProgramEnd × List Printk) := do
  let ip ← parseIphdr f nh
  if ip.ret < 0 then .ok (.out xdpDrop .zero, [])
  else
    let iphdr ← deref ip.hdr
    let saddr ← load32 .outside f (iphdr + 12)
    let daddr ← load32 .outside f (iphdr + 16)
    if inWhiteList k.whiteList saddr then .ok (.ret xdpPass, [⟨msgWhiteList, saddr, daddr⟩])
    else if inBlackList k.blackList saddr then .ok (.ret xdpDrop, [⟨msgBlackList, saddr, daddr⟩])
    else
      let totLen ← load16 .outside f (iphdr + 2)
      let fragOff ← load16 .outside f (iphdr + 6)
      let r ← protocolSwitch f ip.ret ip.nh ⟨saddr, daddr, totLen, fragOff, 0⟩
      afterSwitch f ethType iphdr r

/-- `xdp_parser_func` up to `out`. -/
def parsePacket (k : FilterState) (f : List UInt8) :
    Except FilterFault (ProgramEnd × List Printk) := do
  let eth ← parseEthhdr f ⟨0⟩
  if eth.ret < 0 then .ok (.out xdpDrop .zero, [])
  else if eth.ret = (bpfHtons 0x0800).toNat then ipv4Case k f eth.ret eth.nh
  else .ok (.out xdpPass .zero, [])

/-- `xdp_parser_func`: the verdict on a frame, and the state after it. -/
def xdpParserFunc (k : FilterState) (f : List UInt8) :
    Except FilterFault (UInt32 × FilterState) := do
  let r ← parsePacket k f
  let k := { k with trace := k.trace ++ r.2 }
  match r.1 with
  | .ret action => .ok (action, k)
  | .out action m => .ok (xdpStatsRecordAction f.length action m k)

end AntiDos
