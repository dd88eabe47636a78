import AntiDos.Filter.Program
import Mathlib.Algebra.Group.Nat.Defs

/-!
# The headers of a frame

The fields of an Ethernet frame with an IPv4 packet, read off its bytes, and the filter as a
function of them. The program agrees with this function on every frame, so none of its reads leaves
the frame, and none goes through a pointer that no parser has set.
-/

namespace AntiDos

open Bytes Faulting

variable (f : List UInt8)

/-! ## Fields -/

def EthIpv4 : Prop := byte f 12 = 0x08 ∧ byte f 13 = 0x00

/-- The header length of the IPv4 header in 32-bit words. -/
def ihl : ℕ := (byte f 14).toNat % 16

def transportOffset : ℕ := 14 + 4 * ihl f

def Ipv4Valid : Prop := 34 ≤ f.length ∧ 5 ≤ ihl f ∧ transportOffset f ≤ f.length

def totalLength : ℕ := be16 (byte f 16) (byte f 17)

def MoreFragments : Prop := byte f 20 &&& 0x20 ≠ 0

/-- The fragment offset, in units of eight bytes. -/
def fragmentOffset : ℕ := be16 (byte f 20) (byte f 21) % 2 ^ 13

def Fragmented : Prop := MoreFragments f ∨ fragmentOffset f ≠ 0

def ipProtocol : UInt8 := byte f 23

def sourceAddr : UInt32 := le32 (byte f 26) (byte f 27) (byte f 28) (byte f 29)

def destAddr : UInt32 := le32 (byte f 30) (byte f 31) (byte f 32) (byte f 33)

/-- The length of the TCP header in 32-bit words. -/
def dataOffset : ℕ := (byte f (transportOffset f + 12)).toNat / 16

def TcpValid : Prop :=
  transportOffset f + 20 ≤ f.length ∧ 5 ≤ dataOffset f ∧
    transportOffset f + 4 * dataOffset f ≤ f.length

def SynSet : Prop := byte f (transportOffset f + 13) &&& 0x02 ≠ 0

def udpLength : ℕ := be16 (byte f (transportOffset f + 4)) (byte f (transportOffset f + 5))

def UdpValid : Prop := transportOffset f + 8 ≤ f.length ∧ 8 ≤ udpLength f

instance : Decidable (EthIpv4 f) := inferInstanceAs (Decidable (_ ∧ _))

instance : Decidable (Ipv4Valid f) := inferInstanceAs (Decidable (_ ∧ _ ∧ _))

instance : Decidable (Fragmented f) := inferInstanceAs (Decidable (_ ≠ _ ∨ _ ≠ _))

instance : Decidable (TcpValid f) := inferInstanceAs (Decidable (_ ∧ _ ∧ _))

instance : Decidable (SynSet f) := inferInstanceAs (Decidable (_ ≠ _))

instance : Decidable (UdpValid f) := inferInstanceAs (Decidable (_ ∧ _))

/-! ## The filter on fields -/

/-- The metadata of a passed packet, given what its transport header contributes. -/
def packetMeta (size : ℕ) (ports : UInt16 × UInt16) (seq : UInt32) : PktMeta where
  src := sourceAddr f
  dst := destAddr f
  port16 := ports
  l3Proto := 0x0800
  l4Proto := (ipProtocol f).toUInt16
  dataLen := (UInt64.ofNat f.length - UInt64.ofNat (34 + size)).toUInt16
  pktLen := (UInt64.ofNat f.length).toUInt16
  seq := seq

def transportWord (i : ℕ) : UInt16 :=
  le16 (byte f (transportOffset f + i)) (byte f (transportOffset f + (i + 1)))

def ports : UInt16 × UInt16 := (transportWord f 0, transportWord f 2)

def sequenceNumber : UInt32 :=
  le32 (byte f (transportOffset f + 4)) (byte f (transportOffset f + 5))
    (byte f (transportOffset f + 6)) (byte f (transportOffset f + 7))

def note (msg : String) : List Printk := [⟨msg, sourceAddr f, destAddr f⟩]

/-- What becomes of a valid IPv4 packet whose source is on no list. -/
def inspectTransport : ProgramEnd × List Printk :=
  if ipProtocol f = 6 then
    if ¬ TcpValid f then (.out xdpDrop .zero, [])
    else if Fragmented f ∧ SynSet f then (.out xdpDrop .zero, note f msgFragmentedTcp)
    else (.out xdpPass (packetMeta f 20 (ports f) (sequenceNumber f)), [])
  else if ipProtocol f = 17 then
    if ¬ UdpValid f then (.out xdpDrop .zero, [])
    else (.out xdpPass (packetMeta f 8 (ports f) 0), [])
  else if ipProtocol f = 1 then
    if Fragmented f then (.out xdpDrop .zero, note f msgFragmentedIcmp)
    else if 1024 < totalLength f then (.out xdpDrop .zero, note f msgLargeIcmp)
    else (.out xdpPass (packetMeta f 8 (0, 0) 0), [])
  else (.out xdpPass .zero, [])

def inspect (whiteList blackList : Finset UInt32) : ProgramEnd × List Printk :=
  if f.length < 14 then (.out xdpDrop .zero, [])
  else if ¬ EthIpv4 f then (.out xdpPass .zero, [])
  else if ¬ Ipv4Valid f then (.out xdpDrop .zero, [])
  else if sourceAddr f ∈ whiteList then (.ret xdpPass, note f msgWhiteList)
  else if sourceAddr f ∈ blackList then (.ret xdpDrop, note f msgBlackList)
  else inspectTransport f

/-! ## Widths, masks and shifts -/

variable {f}

theorem packetMeta_pktLen (size : ℕ) (ports : UInt16 × UInt16) (seq : UInt32) :
    (packetMeta f size ports seq).pktLen.toNat = f.length % 2 ^ 16 := by
  simp only [packetMeta, UInt64.toNat_toUInt16, UInt64.toNat_ofNat']
  omega

theorem and_low_nibble (b : UInt8) : (b &&& 0x0f).toNat = b.toNat % 16 := by
  rw [UInt8.toNat_and]
  exact Nat.and_two_pow_sub_one_eq_mod b.toNat 4

theorem shift_high_nibble (b : UInt8) : (b >>> 4).toNat = b.toNat / 16 := by
  rw [UInt8.toNat_shiftRight]
  exact Nat.shiftRight_eq_div_pow _ _

theorem syn_bit (b : UInt8) : ((b >>> 1) &&& 1) &&& 1 ≠ 0 ↔ b &&& 0x02 ≠ 0 :=
  forall_byte (p := fun b ↦ ((b >>> 1) &&& 1) &&& 1 ≠ 0 ↔ b &&& 0x02 ≠ 0) (by decide +kernel) b

theorem flags_byte (b : UInt8) :
    b &&& 0x3f = 0 ↔ b &&& 0x20 = 0 ∧ b.toNat % 32 = 0 :=
  forall_byte (p := fun b ↦ b &&& 0x3f = 0 ↔ b &&& 0x20 = 0 ∧ b.toNat % 32 = 0)
    (by decide +kernel) b

theorem offset_byte (b : UInt8) : b &&& 0xff = 0 ↔ b.toNat = 0 :=
  forall_byte (p := fun b ↦ b &&& 0xff = 0 ↔ b.toNat = 0) (by decide +kernel) b

theorem fragment_mask (a b : UInt8) :
    le16 a b &&& bpfHtons (ipMf ||| ipOffmask) ≠ 0 ↔
      a &&& 0x20 ≠ 0 ∨ be16 a b % 2 ^ 13 ≠ 0 := by
  have hmask : bpfHtons (ipMf ||| ipOffmask) = le16 0x3f 0xff := by decide
  have ha := a.toNat_lt
  have hb := b.toNat_lt
  have hoffset : be16 a b % 2 ^ 13 = 0 ↔ a.toNat % 32 = 0 ∧ b.toNat = 0 := by
    rw [be16]
    omega
  rw [hmask, Ne, le16_and_eq_zero_iff, flags_byte, offset_byte, Ne, Ne, hoffset]
  tauto

end AntiDos
