import AntiDos.Lib.Bytes

/-!
# The header parsers

`parsing.h` moves a cursor over the bytes of a frame. Each parser checks that its header lies in
front of the end of the frame, moves the cursor past it, hands out a pointer to it, and returns a
field of it, or a negative value. Pointers are offsets from the start of the frame. The program runs
on a little-endian machine.
-/

namespace AntiDos

open Bytes Faulting

/-- A read outside the frame, or through a pointer no parser has set. -/
inductive FilterFault where
  | outside (offset : ℕ)
  | unset
  deriving DecidableEq

structure HdrCursor where
  pos : ℕ
  deriving DecidableEq

/-- What a parser returns, the cursor it leaves, and the header pointer if it has set it. -/
structure Parsed where
  ret : Int
  nh : HdrCursor
  hdr : Option ℕ
  deriving DecidableEq

abbrev sizeofEthhdr : ℕ := 14

abbrev sizeofIphdr : ℕ := 20

abbrev sizeofIcmphdr : ℕ := 8

abbrev sizeofUdphdr : ℕ := 8

abbrev sizeofTcphdr : ℕ := 20

/-- `bpf_htons` and `bpf_ntohs`. -/
def bpfHtons (x : UInt16) : UInt16 := bswap16 x

def parseEthhdr (f : List UInt8) (nh : HdrCursor) : Except FilterFault Parsed :=
  let eth := nh.pos
  if eth + sizeofEthhdr > f.length then .ok ⟨-1, nh, none⟩
  else do
    let hProto ← load16 .outside f (eth + 12)
    .ok ⟨hProto.toNat, ⟨nh.pos + sizeofEthhdr⟩, some eth⟩

/-- `parse_iphdr`; `ihl` is the low half of the first byte. -/
def parseIphdr (f : List UInt8) (nh : HdrCursor) : Except FilterFault Parsed :=
  let iph := nh.pos
  if iph + sizeofIphdr > f.length then .ok ⟨-1, nh, none⟩
  else do
    let b ← load8 .outside f iph
    let hdrsize := (b &&& 0x0f).toNat * 4
    if hdrsize < sizeofIphdr then .ok ⟨-1, nh, none⟩
    else if nh.pos + hdrsize > f.length then .ok ⟨-1, nh, none⟩
    else do
      let protocol ← load8 .outside f (iph + 9)
      .ok ⟨protocol.toNat, ⟨nh.pos + hdrsize⟩, some iph⟩

def parseIcmphdr (f : List UInt8) (nh : HdrCursor) : Except FilterFault Parsed :=
  let icmph := nh.pos
  if icmph + sizeofIcmphdr > f.length then .ok ⟨-1, nh, none⟩
  else do
    let type ← load8 .outside f icmph
    .ok ⟨type.toNat, ⟨icmph + sizeofIcmphdr⟩, some icmph⟩

/-- `parse_udphdr`: the cursor and the pointer are set before the length is checked. -/
def parseUdphdr (f : List UInt8) (nh : HdrCursor) : Except FilterFault Parsed :=
  let h := nh.pos
  if h + sizeofUdphdr > f.length then .ok ⟨-1, nh, none⟩
  else do
    let len ← load16 .outside f (h + 4)
    let len : Int := (bpfHtons len).toNat - sizeofUdphdr
    if len < 0 then .ok ⟨-1, ⟨h + sizeofUdphdr⟩, some h⟩
    else .ok ⟨len, ⟨h + sizeofUdphdr⟩, some h⟩

/-- `parse_tcphdr`; `doff` is the high half of byte 12. -/
def parseTcphdr (f : List UInt8) (nh : HdrCursor) : Except FilterFault Parsed :=
  let h := nh.pos
  if h + sizeofTcphdr > f.length then .ok ⟨-1, nh, none⟩
  else do
    let b ← load8 .outside f (h + 12)
    let len := (b >>> 4).toNat * 4
    if len < sizeofTcphdr then .ok ⟨-1, nh, none⟩
    else if nh.pos + len > f.length then .ok ⟨-1, nh, none⟩
    else .ok ⟨len, ⟨nh.pos + len⟩, some h⟩

end AntiDos
