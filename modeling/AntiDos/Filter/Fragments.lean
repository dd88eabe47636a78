import AntiDos.Filter.Verdict

/-!
# Fragmented SYN segments

A datagram split at 8-byte boundaries is dropped when the filter drops the frame of one of its
fragments. The filter looks for the SYN bit at a fixed place behind the IP header of every fragment,
up to the end of the frame. In a first fragment of at least 16 bytes that place holds the flags of
the segment; in one of 8 bytes it holds padding.
-/

namespace AntiDos

open Bytes

/-! ## Datagrams and fragments -/

/-- An IPv4 datagram with a TCP segment whose SYN bit is set. -/
structure SynDatagram where
  src : UInt32
  dst : UInt32
  ident : UInt16
  segment : List UInt8
  header_le : 20 ≤ 4 * ((byte segment 12).toNat / 16)
  header_fits : 4 * ((byte segment 12).toNat / 16) ≤ segment.length
  syn : byte segment 13 &&& 0x02 ≠ 0

structure Fragment where
  eth : List UInt8
  header : List UInt8
  payload : List UInt8
  padding : List UInt8

def Fragment.frame (p : Fragment) : List UInt8 := p.eth ++ (p.header ++ (p.payload ++ p.padding))

/-- The headers of a fragment of `d` at byte `offset` of the segment, with more fragments to come or
not. -/
structure Fragment.Carries (p : Fragment) (d : SynDatagram) (offset : ℕ) (more : Prop) :
    Prop where
  eth_length : p.eth.length = 14
  eth_type : byte p.eth 12 = 0x08 ∧ byte p.eth 13 = 0x00
  version : (byte p.header 0).toNat / 16 = 4
  header_length : p.header.length = 4 * ((byte p.header 0).toNat % 16)
  header_le : 5 ≤ (byte p.header 0).toNat % 16
  total_length : be16 (byte p.header 2) (byte p.header 3) = p.header.length + p.payload.length
  ident : le16 (byte p.header 4) (byte p.header 5) = d.ident
  more_fragments : byte p.header 6 &&& 0x20 ≠ 0 ↔ more
  fragment_offset : 8 * (be16 (byte p.header 6) (byte p.header 7) % 2 ^ 13) = offset
  protocol : byte p.header 9 = 6
  src : le32 (byte p.header 12) (byte p.header 13) (byte p.header 14) (byte p.header 15) = d.src
  dst : le32 (byte p.header 16) (byte p.header 17) (byte p.header 18) (byte p.header 19) = d.dst

/-- `ps` carries the rest `data` of the segment from byte `offset` on, in order and without overlap,
split at 8-byte boundaries. -/
inductive SplitsInto (d : SynDatagram) : ℕ → List UInt8 → List Fragment → Prop
  | last {offset : ℕ} (p : Fragment) (hp : p.Carries d offset False) (hne : p.payload ≠ []) :
      SplitsInto d offset p.payload [p]
  | cons {offset : ℕ} {data : List UInt8} {ps : List Fragment} (p : Fragment)
      (hp : p.Carries d offset True) (hne : p.payload ≠ []) (hmul : 8 ∣ p.payload.length)
      (hps : SplitsInto d (offset + p.payload.length) data ps) :
      SplitsInto d offset (p.payload ++ data) (p :: ps)

variable {d : SynDatagram} {p : Fragment} {ps : List Fragment} {offset : ℕ} {more : Prop}
  {data : List UInt8} {k : FilterState}

/-! ## The frame of a fragment -/

theorem Fragment.Carries.byte_eth (hp : p.Carries d offset more) {i : ℕ} (hi : i < 14) :
    byte p.frame i = byte p.eth i :=
  byte_append_left (hi.trans_eq hp.eth_length.symm) _

theorem Fragment.Carries.byte_header (hp : p.Carries d offset more) {i : ℕ} (hi : i < 20) :
    byte p.frame (14 + i) = byte p.header i := by
  have hlen : i < p.header.length := by
    have := hp.header_le
    have := hp.header_length
    omega
  rw [Fragment.frame, ← hp.eth_length, byte_append_right, byte_append_left hlen]

theorem Fragment.Carries.ihl_eq (hp : p.Carries d offset more) :
    4 * ihl p.frame = p.header.length := by
  rw [ihl, hp.byte_header (i := 0) (by omega), hp.header_length]

theorem Fragment.Carries.byte_payload (hp : p.Carries d offset more) {i : ℕ}
    (hi : i < p.payload.length) :
    byte p.frame (transportOffset p.frame + i) = byte p.payload i := by
  rw [transportOffset, hp.ihl_eq, Nat.add_assoc, Fragment.frame, ← hp.eth_length,
    byte_append_right, byte_append_right, byte_append_left hi]

theorem Fragment.Carries.ethIpv4 (hp : p.Carries d offset more) : EthIpv4 p.frame := by
  rw [EthIpv4, hp.byte_eth (by omega), hp.byte_eth (by omega)]
  exact hp.eth_type

theorem Fragment.Carries.ipv4Valid (hp : p.Carries d offset more) : Ipv4Valid p.frame := by
  have hlen : p.frame.length = 14 + p.header.length + p.payload.length + p.padding.length := by
    simp [Fragment.frame, hp.eth_length, Nat.add_assoc]
  have hheader := hp.header_le
  have hihl := hp.ihl_eq
  have hlength := hp.header_length
  unfold Ipv4Valid transportOffset
  omega

theorem Fragment.Carries.sourceAddr_eq (hp : p.Carries d offset more) :
    sourceAddr p.frame = d.src := by
  rw [← hp.src, ← hp.byte_header (i := 12) (by omega), ← hp.byte_header (i := 13) (by omega),
    ← hp.byte_header (i := 14) (by omega), ← hp.byte_header (i := 15) (by omega)]
  rfl

theorem Fragment.Carries.ipProtocol_eq (hp : p.Carries d offset more) : ipProtocol p.frame = 6 :=
  (hp.byte_header (i := 9) (by omega)).trans hp.protocol

theorem Fragment.Carries.fragmented (hp : p.Carries d offset more) (h : 0 < offset ∨ more) :
    Fragmented p.frame := by
  have hflags : byte p.frame 20 = byte p.header 6 := hp.byte_header (i := 6) (by omega)
  have hlow : byte p.frame 21 = byte p.header 7 := hp.byte_header (i := 7) (by omega)
  rw [Fragmented, MoreFragments, fragmentOffset, hflags, hlow, hp.more_fragments]
  have hoffset := hp.fragment_offset
  rcases h with h | h
  · exact Or.inr (by omega)
  · exact Or.inl h

/-! ## The verdict on a fragment -/

/-- What the filter finds behind the IP header looks like a TCP header without SYN. -/
def ReadsAsPlainTcp (f : List UInt8) : Prop := TcpValid f ∧ ¬ SynSet f

instance (f : List UInt8) : Decidable (ReadsAsPlainTcp f) := inferInstanceAs (Decidable (_ ∧ _))

def Drops (k : FilterState) (f : List UInt8) : Prop :=
  ∃ k', xdpParserFunc k f = .ok (xdpDrop, k')

theorem drops_iff (f : List UInt8) (hstats : k.StatsPresent) :
    Drops k f ↔ Dropped f k.whiteList k.blackList := by
  obtain ⟨k', hk'⟩ := xdpParserFunc_action f hstats
  rw [inspect_action] at hk'
  by_cases hdrop : Dropped f k.whiteList k.blackList
  · rw [if_pos hdrop] at hk'
    exact iff_of_true ⟨k', hk'⟩ hdrop
  · rw [if_neg hdrop] at hk'
    refine iff_of_false ?_ hdrop
    rintro ⟨k'', hk''⟩
    rw [hk'] at hk''
    exact absurd (Prod.mk.inj (Except.ok.inj hk'')).1.symm xdpDrop_ne_xdpPass

theorem Fragment.Carries.drops_iff (hp : p.Carries d offset more) (h : 0 < offset ∨ more)
    (hstats : k.StatsPresent) (hwhite : d.src ∉ k.whiteList) (hblack : d.src ∉ k.blackList) :
    Drops k p.frame ↔ ¬ ReadsAsPlainTcp p.frame := by
  have hlen : ¬ p.frame.length < 14 := by
    have := hp.ipv4Valid.1
    omega
  rw [AntiDos.drops_iff p.frame hstats, dropped_iff, transportDropped_iff, ReadsAsPlainTcp]
  simp only [hlen, hp.ethIpv4, hp.ipv4Valid, hp.sourceAddr_eq, hwhite, hblack, hp.ipProtocol_eq,
    hp.fragmented h, true_and, false_or, not_true_eq_false, not_false_eq_true]
  simp [← imp_iff_not_or]

/-! ## The verdicts on a datagram -/

theorem SplitsInto.carries (h : SplitsInto d offset data ps) (hsplit : 0 < offset ∨ 2 ≤ ps.length) :
    ∀ p ∈ ps, ∃ offset' more, p.Carries d offset' more ∧ (0 < offset' ∨ more) := by
  induction h with
  | last p hp hne =>
      intro p' hmem
      obtain rfl := List.mem_singleton.mp hmem
      exact ⟨_, _, hp, Or.inl (hsplit.resolve_right (by simp))⟩
  | cons p hp hne hmul hps ih =>
      intro p' hmem
      rcases List.mem_cons.mp hmem with rfl | hmem
      · exact ⟨_, _, hp, Or.inr trivial⟩
      · have hpos : 0 < p.payload.length := List.length_pos_iff.mpr hne
        exact ih (Or.inl (by omega)) p' hmem

theorem SplitsInto.first_syn (h : SplitsInto d 0 d.segment (p :: ps))
    (hlen : 16 ≤ p.payload.length) : SynSet p.frame := by
  have hsyn := d.syn
  have hbyte : byte p.frame (transportOffset p.frame + 13) = byte d.segment 13 := by
    generalize d.segment = data at h
    cases h with
    | last p hp hne => exact hp.byte_payload (by omega)
    | cons p hp hne hmul hps =>
        rw [hp.byte_payload (by omega), byte_append_left (by omega)]
  rwa [SynSet, hbyte]

/-- A datagram split in two or more is dropped exactly when its first fragment has at least 16 bytes
of the segment, or some frame does not read as a TCP header without SYN. -/
theorem fragmented_syn_dropped_iff (hstats : k.StatsPresent) (hwhite : d.src ∉ k.whiteList)
    (hblack : d.src ∉ k.blackList) (hsplit : SplitsInto d 0 d.segment (p :: ps)) (hps : ps ≠ []) :
    (∃ p' ∈ p :: ps, Drops k p'.frame) ↔
      16 ≤ p.payload.length ∨ ∃ p' ∈ p :: ps, ¬ ReadsAsPlainTcp p'.frame := by
  have hlen : 2 ≤ (p :: ps).length := Nat.succ_le_succ (List.length_pos_iff.mpr hps)
  have hdrops : ∀ p' ∈ p :: ps, (Drops k p'.frame ↔ ¬ ReadsAsPlainTcp p'.frame) := by
    intro p' hmem
    obtain ⟨offset, more, hp, hfrag⟩ := hsplit.carries (Or.inr hlen) p' hmem
    exact hp.drops_iff hfrag hstats hwhite hblack
  constructor
  · rintro ⟨p', hmem, hdrop⟩
    exact Or.inr ⟨p', hmem, (hdrops p' hmem).mp hdrop⟩
  · rintro (hlong | ⟨p', hmem, hread⟩)
    · have hread : ¬ ReadsAsPlainTcp p.frame := fun h ↦ h.2 (hsplit.first_syn hlong)
      exact ⟨p, List.mem_cons_self, (hdrops p List.mem_cons_self).mpr hread⟩
    · exact ⟨p', hmem, (hdrops p' hmem).mpr hread⟩

def synSegment : List UInt8 :=
  [0x30, 0x39, 0, 80, 0, 0, 0, 1, 0, 0, 0, 0, 0x50, 0x02, 0xff, 0xff, 0, 0, 0, 0]

def synDatagram : SynDatagram where
  src := le32 10 0 0 7
  dst := le32 10 10 10 10
  ident := le16 0 1
  segment := synSegment
  header_le := by decide
  header_fits := by decide
  syn := by decide

def synFragment (flags low : UInt8) (payload padding : List UInt8) : Fragment where
  eth := List.replicate 12 0 ++ [8, 0]
  header := [0x45, 0, 0, UInt8.ofNat (20 + payload.length), 0, 1, flags, low, 64, 6, 0, 0,
    10, 0, 0, 7, 10, 10, 10, 10]
  payload := payload
  padding := padding

theorem synFragment_carries {flags low : UInt8} {payload : List UInt8} (padding : List UInt8)
    (hlen : 20 + payload.length < 256) (hmore : flags &&& 0x20 ≠ 0 ↔ more)
    (hoffset : 8 * (be16 flags low % 2 ^ 13) = offset) :
    (synFragment flags low payload padding).Carries synDatagram offset more := by
  have hversion : byte (synFragment flags low payload padding).header 0 = 0x45 := rfl
  have htotal : be16 0 (UInt8.ofNat (20 + payload.length)) = 20 + payload.length := by
    have hlow : (UInt8.ofNat (20 + payload.length)).toNat = 20 + payload.length :=
      UInt8.toNat_ofNat_of_lt' hlen
    rw [be16, hlow]
    simp
  exact {
    eth_length := rfl
    eth_type := ⟨rfl, rfl⟩
    version := by rw [hversion]; rfl
    header_length := by rw [hversion]; rfl
    header_le := by rw [hversion]; decide
    total_length := htotal
    ident := rfl
    more_fragments := hmore
    fragment_offset := hoffset
    protocol := rfl
    src := rfl
    dst := rfl }

/-- The first fragment ends behind the flags of the segment. -/
def longFirst : Fragment :=
  synFragment 0x20 0 [0x30, 0x39, 0, 80, 0, 0, 0, 1, 0, 0, 0, 0, 0x50, 0x02, 0xff, 0xff] []

def longSecond : Fragment :=
  synFragment 0 2 [0, 0, 0, 0] []

theorem longFirst_splits :
    SplitsInto synDatagram 0 synDatagram.segment [longFirst, longSecond] := by
  have hfirst : longFirst.Carries synDatagram 0 True :=
    synFragment_carries [] (by decide) (by decide) (by decide)
  have hsecond : longSecond.Carries synDatagram 16 False :=
    synFragment_carries [] (by decide) (by decide) (by decide)
  exact .cons longFirst hfirst (by decide) (by decide) (.last longSecond hsecond (by decide))

theorem long_first_fragment_dropped :
    ∃ p ∈ [longFirst, longSecond], Drops (.init ∅ ∅) p.frame :=
  (fragmented_syn_dropped_iff (FilterState.init_statsPresent ∅ ∅) (by decide) (by decide)
    longFirst_splits (by decide)).mpr (Or.inl (by decide))

/-- The first fragment ends before the flags; the padding of both frames, to 60 bytes, shows a data
offset of 5 and an ACK in their place. -/
def shortFirst : Fragment :=
  synFragment 0x20 0 [0x30, 0x39, 0, 80, 0, 0, 0, 1]
    ([0, 0, 0, 0, 0x50, 0x10] ++ List.replicate 12 0)

def shortSecond : Fragment :=
  synFragment 0 1 [0, 0, 0, 0, 0x50, 0x02, 0xff, 0xff, 0, 0, 0, 0]
    ([0x50, 0x10] ++ List.replicate 12 0)

theorem shortFirst_splits :
    SplitsInto synDatagram 0 synDatagram.segment [shortFirst, shortSecond] := by
  have hfirst : shortFirst.Carries synDatagram 0 True :=
    synFragment_carries _ (by decide) (by decide) (by decide)
  have hsecond : shortSecond.Carries synDatagram 8 False :=
    synFragment_carries _ (by decide) (by decide) (by decide)
  exact .cons shortFirst hfirst (by decide) (by decide) (.last shortSecond hsecond (by decide))

theorem short_fragments_pass :
    SplitsInto synDatagram 0 synDatagram.segment [shortFirst, shortSecond] ∧
      ∀ p ∈ [shortFirst, shortSecond], ¬ Drops (.init ∅ ∅) p.frame := by
  refine ⟨shortFirst_splits, ?_⟩
  intro p hmem
  rw [drops_iff p.frame (FilterState.init_statsPresent ∅ ∅)]
  simp only [List.mem_cons, List.not_mem_nil, or_false] at hmem
  rcases hmem with rfl | rfl
  · decide
  · decide

end AntiDos
