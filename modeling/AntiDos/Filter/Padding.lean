import AntiDos.Filter.Fragments
import AntiDos.Filter.Reports
import Mathlib.Algebra.Group.Nat.Defs

/-!
# What stands behind the datagram

The transport parsers are bounded by the end of the frame, not by the end of the IP datagram, and
they are run on every fragment. So a verdict may depend on Ethernet padding, and on the payload of
a fragment that has no transport header. The frames whose verdict is settled by the bytes that count
are described exactly.
-/

namespace AntiDos

open Bytes

/-! ## Alike frames -/

/-- The frames have the same Ethernet header and the same IPv4 header, and either carry a later
fragment or hold the same whole datagram. -/
structure Alike (f g : List UInt8) : Prop where
  left : transportOffset f ≤ f.length
  right : transportOffset f ≤ g.length
  headers : ∀ i < transportOffset f, byte f i = byte g i
  datagram : fragmentOffset f ≠ 0 ∨ (14 + totalLength f ≤ f.length ∧
    14 + totalLength f ≤ g.length ∧ ∀ i < 14 + totalLength f, byte f i = byte g i)

/-- Where the bytes end that alike frames have in common. -/
def commonEnd (f : List UInt8) : ℕ :=
  if fragmentOffset f ≠ 0 then transportOffset f else max (transportOffset f) (14 + totalLength f)

variable {f g : List UInt8} {whiteList blackList : Finset UInt32} {k : FilterState}

theorem transportOffset_le_commonEnd (f : List UInt8) : transportOffset f ≤ commonEnd f := by
  unfold commonEnd
  split
  · exact le_rfl
  · exact le_max_left _ _

theorem alike_iff :
    Alike f g ↔ commonEnd f ≤ f.length ∧ commonEnd f ≤ g.length ∧
      ∀ i < commonEnd f, byte f i = byte g i := by
  unfold commonEnd
  by_cases hoffset : fragmentOffset f ≠ 0
  · rw [if_pos hoffset]
    exact ⟨fun h ↦ ⟨h.left, h.right, h.headers⟩, fun h ↦ ⟨h.1, h.2.1, h.2.2, Or.inl hoffset⟩⟩
  · rw [if_neg hoffset]
    constructor
    · intro h
      obtain ⟨hleft, hright, hbytes⟩ := h.datagram.resolve_left hoffset
      refine ⟨max_le h.left hleft, max_le h.right hright, fun i hi ↦ ?_⟩
      rcases lt_max_iff.mp hi with hi | hi
      · exact h.headers i hi
      · exact hbytes i hi
    · rintro ⟨hleft, hright, hbytes⟩
      rw [max_le_iff] at hleft hright
      refine ⟨hleft.1, hright.1, fun i hi ↦ hbytes i (lt_max_of_lt_left hi), Or.inr ?_⟩
      exact ⟨hleft.2, hright.2, fun i hi ↦ hbytes i (lt_max_of_lt_right hi)⟩

/-! ## The fields of alike frames -/

section Fields

variable (h : Alike f g) (hvalid : Ipv4Valid f)
include h hvalid

theorem Alike.byte_eq {i : ℕ} (hi : i < 34) : byte g i = byte f i := by
  have hihl := hvalid.2.1
  exact (h.headers i (by unfold transportOffset; omega)).symm

theorem Alike.transportOffset_eq : transportOffset g = transportOffset f := by
  rw [transportOffset, ihl, h.byte_eq hvalid (by omega)]
  rfl

theorem Alike.ethIpv4_iff : EthIpv4 g ↔ EthIpv4 f := by
  rw [EthIpv4, h.byte_eq hvalid (by omega), h.byte_eq hvalid (by omega)]
  rfl

theorem Alike.ipv4Valid : Ipv4Valid g := by
  have hoffset := h.transportOffset_eq hvalid
  have hihl := hvalid.2.1
  have hright := h.right
  unfold Ipv4Valid
  unfold transportOffset at hoffset hright ⊢
  omega

theorem Alike.sourceAddr_eq : sourceAddr g = sourceAddr f := by
  unfold sourceAddr
  rw [h.byte_eq hvalid (by omega), h.byte_eq hvalid (by omega), h.byte_eq hvalid (by omega),
    h.byte_eq hvalid (by omega)]

theorem Alike.ipProtocol_eq : ipProtocol g = ipProtocol f := h.byte_eq hvalid (by omega)

theorem Alike.totalLength_eq : totalLength g = totalLength f := by
  unfold totalLength
  rw [h.byte_eq hvalid (by omega), h.byte_eq hvalid (by omega)]

theorem Alike.moreFragments_iff : MoreFragments g ↔ MoreFragments f := by
  unfold MoreFragments
  rw [h.byte_eq hvalid (by omega)]

theorem Alike.fragmentOffset_eq : fragmentOffset g = fragmentOffset f := by
  unfold fragmentOffset
  rw [h.byte_eq hvalid (by omega), h.byte_eq hvalid (by omega)]

theorem Alike.byte_transport {i : ℕ} (hi : transportOffset f + i < commonEnd f) :
    byte g (transportOffset g + i) = byte f (transportOffset f + i) := by
  rw [h.transportOffset_eq hvalid]
  exact ((alike_iff.mp h).2.2 _ hi).symm

end Fields

/-! ## Other ends -/

/-- The common bytes of `f`, and eighty bytes after them that `h` gives. -/
def withTail (f : List UInt8) (h : ℕ → UInt8) : List UInt8 :=
  f.take (commonEnd f) ++ (List.range 80).map fun i ↦ h (commonEnd f + i)

theorem alike_take (hf : commonEnd f ≤ f.length) : Alike f (f.take (commonEnd f)) :=
  alike_iff.mpr ⟨hf, by simp [hf], fun i hi ↦ (byte_take hi).symm⟩

theorem length_withTail (hf : commonEnd f ≤ f.length) (h : ℕ → UInt8) :
    (withTail f h).length = commonEnd f + 80 := by
  simp [withTail, hf]

theorem byte_withTail_left (hf : commonEnd f ≤ f.length) (h : ℕ → UInt8) {i : ℕ}
    (hi : i < commonEnd f) : byte (withTail f h) i = byte f i := by
  rw [withTail, byte_append_left (by simp [hf, hi]), byte_take hi]

theorem byte_withTail_right (hf : commonEnd f ≤ f.length) (h : ℕ → UInt8) {i : ℕ}
    (hi : commonEnd f ≤ i) (hi' : i < commonEnd f + 80) : byte (withTail f h) i = h i := by
  obtain ⟨j, rfl⟩ := Nat.exists_eq_add_of_le hi
  have hlen : (f.take (commonEnd f)).length = commonEnd f := by simp [hf]
  have hj : j < 80 := by omega
  have hright := byte_append_right (f.take (commonEnd f))
    ((List.range 80).map fun i ↦ h (commonEnd f + i)) j
  rw [hlen] at hright
  rw [withTail, hright]
  simp [byte, List.getD_eq_getElem?_getD, hj]

theorem alike_withTail (hf : commonEnd f ≤ f.length) (h : ℕ → UInt8) : Alike f (withTail f h) := by
  refine alike_iff.mpr ⟨hf, ?_, fun i hi ↦ (byte_withTail_left hf h hi).symm⟩
  rw [length_withTail hf]
  omega

/-! ## Settled headers -/

/-- The common bytes show that the segment is dropped, or its whole header. -/
def TcpSettled (f : List UInt8) : Prop :=
  (transportOffset f + 13 ≤ commonEnd f ∧ dataOffset f < 5) ∨
    (transportOffset f + 14 ≤ commonEnd f ∧ SynSet f ∧ Fragmented f) ∨
      (transportOffset f + 20 ≤ commonEnd f ∧
        transportOffset f + 4 * dataOffset f ≤ commonEnd f)

def UdpSettled (f : List UInt8) : Prop :=
  (transportOffset f + 6 ≤ commonEnd f ∧ udpLength f < 8) ∨
    transportOffset f + 8 ≤ commonEnd f

section Settled

variable (hvalid : Ipv4Valid f)
include hvalid

theorem Alike.fragmented_iff (h : Alike f g) : Fragmented g ↔ Fragmented f := by
  rw [Fragmented, h.moreFragments_iff hvalid, h.fragmentOffset_eq hvalid]
  rfl

theorem Alike.dataOffset_eq (h : Alike f g) (hend : transportOffset f + 13 ≤ commonEnd f) :
    dataOffset g = dataOffset f := by
  unfold dataOffset
  rw [h.byte_transport hvalid (by omega)]

theorem Alike.synSet_iff (h : Alike f g) (hend : transportOffset f + 14 ≤ commonEnd f) :
    SynSet g ↔ SynSet f := by
  unfold SynSet
  rw [h.byte_transport hvalid (by omega)]

theorem Alike.udpLength_eq (h : Alike f g) (hend : transportOffset f + 6 ≤ commonEnd f) :
    udpLength g = udpLength f := by
  unfold udpLength
  rw [h.byte_transport hvalid (by omega), h.byte_transport hvalid (by omega)]

theorem TcpSettled.dropped_iff (hf : TcpSettled f) (h : Alike f g) :
    TcpDropped g ↔ TcpDropped f := by
  obtain ⟨hleft, hright, -⟩ := alike_iff.mp h
  have hfrag := h.fragmented_iff hvalid
  rw [tcpDropped_iff, tcpDropped_iff, hfrag]
  rcases hf with ⟨hend, hdoff⟩ | ⟨hend, hdrop⟩ | ⟨hend, hlen⟩
  · have hg := h.dataOffset_eq hvalid hend
    exact iff_of_true (Or.inl fun hv ↦ by have := hv.2.1; omega)
      (Or.inl fun hv ↦ by have := hv.2.1; omega)
  · rw [h.synSet_iff hvalid hend]
    exact iff_of_true (Or.inr hdrop.symm) (Or.inr hdrop.symm)
  · rw [h.synSet_iff hvalid (by omega), TcpValid, TcpValid, h.dataOffset_eq hvalid (by omega),
      h.transportOffset_eq hvalid]
    have hg : transportOffset f + 20 ≤ g.length ∧
        transportOffset f + 4 * dataOffset f ≤ g.length := by omega
    have hf' : transportOffset f + 20 ≤ f.length ∧
        transportOffset f + 4 * dataOffset f ≤ f.length := by omega
    simp [hg, hf']

theorem UdpSettled.dropped_iff (hf : UdpSettled f) (h : Alike f g) :
    UdpDropped g ↔ UdpDropped f := by
  obtain ⟨hleft, hright, -⟩ := alike_iff.mp h
  rw [UdpDropped, UdpDropped, h.transportOffset_eq hvalid]
  rcases hf with ⟨hend, hlen⟩ | hend
  · have hg := h.udpLength_eq hvalid hend
    exact iff_of_true (Or.inr (by omega)) (Or.inr hlen)
  · rw [h.udpLength_eq hvalid (by omega)]
    omega

/-- Without what settles it, a TCP frame is dropped when it ends with the common bytes, and passed
with a tail that completes a header without SYN. -/
theorem exists_tcp_of_not_settled (hf : commonEnd f ≤ f.length) (hnot : ¬ TcpSettled f) :
    (∃ g, Alike f g ∧ TcpDropped g) ∧ ∃ g, Alike f g ∧ ¬ TcpDropped g := by
  unfold TcpSettled at hnot
  push Not at hnot
  obtain ⟨hdoff, hsyn, hlen⟩ := hnot
  constructor
  · have h := alike_take hf
    refine ⟨_, h, ?_⟩
    unfold TcpDropped
    rw [h.transportOffset_eq hvalid, List.length_take, min_eq_left hf]
    by_cases hshort : commonEnd f < transportOffset f + 20
    · exact Or.inl hshort
    · rw [h.dataOffset_eq hvalid (by omega)]
      have := hlen (by omega)
      omega
  · let tail : ℕ → UInt8 := fun i ↦ if i = transportOffset f + 12 then 0x50 else 0
    have h := alike_withTail hf tail
    have hoffset := transportOffset_le_commonEnd f
    refine ⟨_, h, ?_⟩
    have hg : 5 ≤ dataOffset (withTail f tail) := by
      by_cases hend : transportOffset f + 13 ≤ commonEnd f
      · rw [h.dataOffset_eq hvalid hend]
        exact hdoff hend
      · unfold dataOffset
        rw [h.transportOffset_eq hvalid, byte_withTail_right hf tail (by omega) (by omega)]
        simp [tail]
    have hsyn' : ¬ (Fragmented (withTail f tail) ∧ SynSet (withTail f tail)) := by
      rw [h.fragmented_iff hvalid]
      by_cases hend : transportOffset f + 14 ≤ commonEnd f
      · rw [h.synSet_iff hvalid hend]
        exact fun hdrop ↦ hsyn hend hdrop.2 hdrop.1
      · rintro ⟨-, hset⟩
        unfold SynSet at hset
        rw [h.transportOffset_eq hvalid, byte_withTail_right hf tail (by omega) (by omega)] at hset
        simp [tail] at hset
    have hle : dataOffset (withTail f tail) ≤ 15 := by
      unfold dataOffset
      have := (byte (withTail f tail) (transportOffset (withTail f tail) + 12)).toNat_lt
      omega
    rw [tcpDropped_iff, not_or, not_not]
    refine ⟨⟨?_, hg, ?_⟩, hsyn'⟩
    · rw [h.transportOffset_eq hvalid, length_withTail hf]
      omega
    · rw [h.transportOffset_eq hvalid, length_withTail hf]
      omega

/-- Without what settles it, a UDP frame is dropped when it ends with the common bytes, and passed
with a tail that completes a header of a valid length. -/
theorem exists_udp_of_not_settled (hf : commonEnd f ≤ f.length) (hnot : ¬ UdpSettled f) :
    (∃ g, Alike f g ∧ UdpDropped g) ∧ ∃ g, Alike f g ∧ ¬ UdpDropped g := by
  unfold UdpSettled at hnot
  push Not at hnot
  obtain ⟨hlen, hend⟩ := hnot
  constructor
  · have h := alike_take hf
    refine ⟨_, h, Or.inl ?_⟩
    rwa [h.transportOffset_eq hvalid, List.length_take, min_eq_left hf]
  · let tail : ℕ → UInt8 := fun i ↦ if i = transportOffset f + 5 then 8 else 0
    have h := alike_withTail hf tail
    have hoffset := transportOffset_le_commonEnd f
    refine ⟨_, h, ?_⟩
    have hg : 8 ≤ udpLength (withTail f tail) := by
      by_cases hsix : transportOffset f + 6 ≤ commonEnd f
      · rw [h.udpLength_eq hvalid hsix]
        exact hlen hsix
      · unfold udpLength be16
        rw [h.transportOffset_eq hvalid, byte_withTail_right hf tail (i := transportOffset f + 5)
          (by omega) (by omega)]
        simp [tail]
    rw [udpDropped_iff, not_not]
    refine ⟨?_, hg⟩
    rw [h.transportOffset_eq hvalid, length_withTail hf]
    omega

end Settled

/-! ## Settled verdicts -/

def SameVerdict (k : FilterState) (f g : List UInt8) : Prop :=
  ∃ v k₁ k₂, xdpParserFunc k f = .ok (v, k₁) ∧ xdpParserFunc k g = .ok (v, k₂)

/-- The program returns the verdict on `f` for every frame alike. -/
def SameForAlike (k : FilterState) (f : List UInt8) : Prop := ∀ g, Alike f g → SameVerdict k f g

/-- A list decides, or the protocol has no header that decides, or the common bytes settle it. -/
def Settled (f : List UInt8) (whiteList blackList : Finset UInt32) : Prop :=
  sourceAddr f ∈ whiteList ∨ sourceAddr f ∈ blackList ∨
    ((ipProtocol f = 6 → TcpSettled f) ∧ (ipProtocol f = 17 → UdpSettled f))

theorem sameVerdict_iff (hstats : k.StatsPresent) :
    SameVerdict k f g ↔
      (Dropped g k.whiteList k.blackList ↔ Dropped f k.whiteList k.blackList) := by
  obtain ⟨k₁, hk₁⟩ := xdpParserFunc_action f hstats
  obtain ⟨k₂, hk₂⟩ := xdpParserFunc_action g hstats
  rw [inspect_action] at hk₁ hk₂
  unfold SameVerdict
  rw [hk₁, hk₂]
  by_cases hf : Dropped f k.whiteList k.blackList <;>
    by_cases hg : Dropped g k.whiteList k.blackList <;>
      simp [hf, hg, xdpDrop_ne_xdpPass, xdpDrop_ne_xdpPass.symm]

theorem transportDropped_congr (hprotocol : ipProtocol g = ipProtocol f)
    (hicmp : IcmpDropped g ↔ IcmpDropped f) :
    (TransportDropped g ↔ TransportDropped f) ↔
      (ipProtocol f = 6 → (TcpDropped g ↔ TcpDropped f)) ∧
        (ipProtocol f = 17 → (UdpDropped g ↔ UdpDropped f)) := by
  unfold TransportDropped
  rw [hprotocol, hicmp]
  by_cases htcp : ipProtocol f = 6
  · simp [htcp]
  · by_cases hudp : ipProtocol f = 17
    · simp [hudp]
    · simp [htcp, hudp]

theorem Alike.icmpDropped_iff (h : Alike f g) (hvalid : Ipv4Valid f) :
    IcmpDropped g ↔ IcmpDropped f := by
  rw [AntiDos.icmpDropped_iff, AntiDos.icmpDropped_iff, h.fragmented_iff hvalid,
    h.totalLength_eq hvalid]

theorem Alike.dropped_congr (h : Alike f g) (heth : EthIpv4 f) (hvalid : Ipv4Valid f) :
    (Dropped g whiteList blackList ↔ Dropped f whiteList blackList) ↔
      sourceAddr f ∈ whiteList ∨ sourceAddr f ∈ blackList ∨
        ((ipProtocol f = 6 → (TcpDropped g ↔ TcpDropped f)) ∧
          (ipProtocol f = 17 → (UdpDropped g ↔ UdpDropped f))) := by
  have hvalid' := h.ipv4Valid hvalid
  have hf : ¬ f.length < 14 := by
    have := hvalid.1
    omega
  have hg : ¬ g.length < 14 := by
    have := hvalid'.1
    omega
  rw [← transportDropped_congr (h.ipProtocol_eq hvalid) (h.icmpDropped_iff hvalid), dropped_iff,
    dropped_iff, h.sourceAddr_eq hvalid, h.ethIpv4_iff hvalid]
  by_cases hwhite : sourceAddr f ∈ whiteList
  · simp [hf, hg, hvalid, hvalid', hwhite]
  · by_cases hblack : sourceAddr f ∈ blackList
    · simp [hf, hg, hvalid, hvalid', hwhite, hblack]
    · simp [hf, hg, hvalid, hvalid', hwhite, hblack, heth]

/-- A frame that holds its datagram gets the verdict of every frame alike exactly when a list or the
bytes they have in common settle it. -/
theorem alike_sameVerdict_iff (k : FilterState) (hstats : k.StatsPresent) (f : List UInt8)
    (heth : EthIpv4 f) (hvalid : Ipv4Valid f) (hf : Alike f f) :
    SameForAlike k f ↔ Settled f k.whiteList k.blackList := by
  have hcommon := (alike_iff.mp hf).1
  constructor
  · intro h
    by_contra hnot
    unfold Settled at hnot
    push Not at hnot
    obtain ⟨hwhite, hblack, htransport⟩ := hnot
    have hsame : ∀ g, Alike f g → (ipProtocol f = 6 → (TcpDropped g ↔ TcpDropped f)) ∧
        (ipProtocol f = 17 → (UdpDropped g ↔ UdpDropped f)) := by
      intro g hg
      have hg' := (sameVerdict_iff hstats).mp (h g hg)
      exact (((hg.dropped_congr heth hvalid).mp hg').resolve_left hwhite).resolve_left hblack
    by_cases htcp : ipProtocol f = 6 → TcpSettled f
    · obtain ⟨hudp, hunsettled⟩ := htransport htcp
      obtain ⟨⟨g, hg, hdrop⟩, g', hg', hpass⟩ := exists_udp_of_not_settled hvalid hcommon hunsettled
      exact hpass (((hsame g' hg').2 hudp).mpr (((hsame g hg).2 hudp).mp hdrop))
    · push Not at htcp
      obtain ⟨htcp, hunsettled⟩ := htcp
      obtain ⟨⟨g, hg, hdrop⟩, g', hg', hpass⟩ := exists_tcp_of_not_settled hvalid hcommon hunsettled
      exact hpass (((hsame g' hg').1 htcp).mpr (((hsame g hg).1 htcp).mp hdrop))
  · intro hsettled g hg
    rw [sameVerdict_iff hstats, hg.dropped_congr heth hvalid]
    refine hsettled.imp_right (Or.imp_right fun htransport ↦ ⟨fun htcp ↦ ?_, fun hudp ↦ ?_⟩)
    · exact (htransport.1 htcp).dropped_iff hvalid hg
    · exact (htransport.2 hudp).dropped_iff hvalid hg

/-- The headers of `tcpFrame` fill its datagram. -/
theorem tcpFrame_settled : SameForAlike (.init ∅ ∅) tcpFrame := by
  refine (alike_sameVerdict_iff (.init ∅ ∅) (FilterState.init_statsPresent ∅ ∅) tcpFrame (by decide)
    (by decide) ?_).mpr (Or.inr (Or.inr ⟨fun _ ↦ ?_, fun hudp ↦ absurd hudp (by decide)⟩))
  · exact ⟨by decide, by decide, fun _ _ ↦ rfl,
      Or.inr ⟨by decide, by decide, fun _ _ ↦ rfl⟩⟩
  · exact Or.inr (Or.inr (by decide))

def udpFragment (payload : List UInt8) : List UInt8 :=
  ipv4Frame 17 1 [10, 0, 0, 7] [10, 10, 10, 10] payload

/-- The payload of a later fragment is read as a UDP header, and its third word as a length. -/
theorem fragment_payload_decides :
    Alike (udpFragment [0, 0, 0, 0, 0, 8, 0, 0]) (udpFragment [0, 0, 0, 0, 0, 7, 0, 0]) ∧
      ¬ SameVerdict (.init ∅ ∅) (udpFragment [0, 0, 0, 0, 0, 8, 0, 0])
        (udpFragment [0, 0, 0, 0, 0, 7, 0, 0]) := by
  refine ⟨⟨by decide, by decide, by decide, Or.inl (by decide)⟩, ?_⟩
  rw [sameVerdict_iff (FilterState.init_statsPresent ∅ ∅)]
  decide

end AntiDos
