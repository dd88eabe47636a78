import AntiDos.Filter.Parsing
import Mathlib.Data.Finset.Basic

/-!
# The rules of the filter

`check_rules.h`: the two address lists, and the rules that drop fragmented and large ICMP packets
and fragmented SYN segments. Each rule that fires writes a line to the trace pipe.
-/

namespace AntiDos

open Bytes

/-- One `bpf_printk`. Every line of the filter has two arguments, a source and a destination. -/
structure Printk where
  fmt : String
  src : UInt32
  dst : UInt32
  deriving DecidableEq

/-- `struct packet_rec`, less the fields that no rule reads; `tcpFlags4` is `tcp_flags[4]`. -/
structure PacketRec where
  srcAddr : UInt32
  destAddr : UInt32
  totLen : UInt16
  fragOff : UInt16
  tcpFlags4 : UInt8

abbrev ipMf : UInt16 := 0x2000

abbrev ipOffmask : UInt16 := 0x1fff

def inWhiteList (whiteList : Finset UInt32) (srcAddr : UInt32) : Bool := srcAddr ∈ whiteList

def inBlackList (blackList : Finset UInt32) (srcAddr : UInt32) : Bool := srcAddr ∈ blackList

def icmpFragment (fragOff : UInt16) : Bool := fragOff &&& bpfHtons (ipMf ||| ipOffmask) ≠ 0

def icmpLargePacket (totLen : UInt16) : Bool := 0x0400 < bpfHtons totLen

def msgFragmentedIcmp : String :=
  "action: DROP, src: %u, dst: %u, reason_id: Fragmented ICMP Packet\n"

def msgLargeIcmp : String := "action: DROP, src: %u, dst: %u, reason_id: Large ICMP Packet\n"

def msgFragmentedTcp : String :=
  "action: DROP, src: %u, dst: %u, reason_id: Fragmented TCP Packet\n"

def msgWhiteList : String := "action: PASS, src: %u, dst: %u, reason_1: IP in WHITE LIST\n"

def msgBlackList : String := "action: DROP, src: %u, dst: %u, reason_1: IP in BLACK LIST\n"

/-- `icmp_stupid`, with the lines it writes. -/
def icmpStupid (pkt : PacketRec) : Bool × List Printk :=
  if icmpFragment pkt.fragOff then (true, [⟨msgFragmentedIcmp, pkt.srcAddr, pkt.destAddr⟩])
  else if icmpLargePacket pkt.totLen then (true, [⟨msgLargeIcmp, pkt.srcAddr, pkt.destAddr⟩])
  else (false, [])

def tcpFragment (fragOff : UInt16) (synFlag : UInt8) : Bool :=
  fragOff &&& bpfHtons (ipMf ||| ipOffmask) ≠ 0 ∧ synFlag &&& 1 ≠ 0

/-- `tcp_stupid`, with the lines it writes. -/
def tcpStupid (pkt : PacketRec) : Bool × List Printk :=
  if tcpFragment pkt.fragOff pkt.tcpFlags4 then
    (true, [⟨msgFragmentedTcp, pkt.srcAddr, pkt.destAddr⟩])
  else (false, [])

end AntiDos
