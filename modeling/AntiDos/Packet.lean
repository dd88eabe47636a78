import Mathlib.Data.Nat.Notation

/-!
# The record the filter sends to the policy engine

The kernel program fills one `struct pkt_meta` for each packet and submits it to the perf ring; the
user-space poller queues it. Addresses are the raw 32-bit words of the IPv4 header, in network
byte order, and are never converted on the way.
-/

namespace AntiDos

/-- `struct pkt_meta`. -/
structure PktMeta where
  src : UInt32
  dst : UInt32
  port16 : UInt16 × UInt16
  l3Proto : UInt16
  l4Proto : UInt16
  dataLen : UInt16
  pktLen : UInt16
  seq : UInt32
  deriving DecidableEq

def PktMeta.zero : PktMeta := ⟨0, 0, (0, 0), 0, 0, 0, 0, 0⟩

end AntiDos
