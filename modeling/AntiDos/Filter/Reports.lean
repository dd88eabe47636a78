import AntiDos.Filter.Verdict

/-!
# What the policy engine hears of a passed packet

Every packet that passes through `out` is submitted to the perf ring, but the metadata is filled
only in the cases of TCP, UDP and ICMP. The record of any other packet is all zero.
-/

namespace AntiDos

open Bytes

variable {f : List UInt8} {k k' : FilterState}

/-- Exactly one record was submitted, with the addresses, the protocol and the length of the frame.
-/
def Reported (f : List UInt8) (k k' : FilterState) : Prop :=
  ∃ ev, k'.perf = k.perf ++ [ev] ∧ ev.pktMeta.src = sourceAddr f ∧ ev.pktMeta.dst = destAddr f ∧
    ev.pktMeta.l4Proto = (ipProtocol f).toUInt16 ∧ ev.pktMeta.pktLen.toNat = f.length % 2 ^ 16

def Classified (f : List UInt8) : Prop :=
  ipProtocol f = 1 ∨ ipProtocol f = 6 ∨ ipProtocol f = 17

theorem xdpStatsRecordAction_pass {len : ℕ} {action : UInt32} {m : PktMeta}
    (h : xdpStatsRecordAction len action m k = (xdpPass, k')) :
    action = xdpPass ∧ ∃ flags, k'.perf = k.perf ++ [⟨flags, m⟩] := by
  unfold xdpStatsRecordAction at h
  split at h
  · simp at h
  · split at h
    · simp at h
    · dsimp only at h
      split at h
      · rename_i hne
        exact absurd (Prod.mk.inj h).1 hne
      · rename_i hpass
        obtain ⟨hact, rfl⟩ := Prod.mk.inj h
        exact ⟨hact, _, rfl⟩

theorem inspectTransport_pass {m : PktMeta} {l : List Printk}
    (h : inspectTransport f = (.out xdpPass m, l)) :
    (Classified f ∧ ∃ size ports seq, m = packetMeta f size ports seq) ∨
      (¬ Classified f ∧ m = .zero) := by
  unfold inspectTransport at h
  split at h
  · rename_i htcp
    refine Or.inl ⟨Or.inr (Or.inl htcp), ?_⟩
    split at h
    · simp at h
    · split at h
      · simp at h
      · obtain ⟨rfl, -⟩ : packetMeta f 20 (ports f) (sequenceNumber f) = m ∧ _ := by simpa using h
        exact ⟨_, _, _, rfl⟩
  · rename_i htcp
    split at h
    · rename_i hudp
      refine Or.inl ⟨Or.inr (Or.inr hudp), ?_⟩
      split at h
      · simp at h
      · obtain ⟨rfl, -⟩ : packetMeta f 8 (ports f) 0 = m ∧ _ := by simpa using h
        exact ⟨_, _, _, rfl⟩
    · rename_i hudp
      split at h
      · rename_i hicmp
        refine Or.inl ⟨Or.inl hicmp, ?_⟩
        split at h
        · simp at h
        · split at h
          · simp at h
          · obtain ⟨rfl, -⟩ : packetMeta f 8 (0, 0) 0 = m ∧ _ := by simpa using h
            exact ⟨_, _, _, rfl⟩
      · rename_i hicmp
        obtain ⟨rfl, -⟩ : PktMeta.zero = m ∧ _ := by simpa using h
        exact Or.inr ⟨by simp [Classified, htcp, hudp, hicmp], rfl⟩

theorem inspectTransport_out (f : List UInt8) :
    ∃ action m l, inspectTransport f = (.out action m, l) := by
  unfold inspectTransport
  split_ifs <;> exact ⟨_, _, _, rfl⟩

theorem inspect_of_pass (heth : EthIpv4 f) (hvalid : Ipv4Valid f)
    (hwhite : sourceAddr f ∉ k.whiteList) (hpass : xdpParserFunc k f = .ok (xdpPass, k')) :
    ∃ m l flags, inspectTransport f = (.out xdpPass m, l) ∧
      k'.perf = k.perf ++ [⟨flags, m⟩] := by
  have hlen : ¬ f.length < 14 := by
    have := hvalid.1
    omega
  rw [xdpParserFunc_eq, inspect, if_neg hlen, if_neg (not_not_intro heth),
    if_neg (not_not_intro hvalid), if_neg hwhite] at hpass
  by_cases hblack : sourceAddr f ∈ k.blackList
  · simp [hblack] at hpass
  · rw [if_neg hblack] at hpass
    obtain ⟨action, m, l, hinspect⟩ := inspectTransport_out f
    rw [hinspect] at hpass ⊢
    obtain ⟨rfl, flags, hperf⟩ := xdpStatsRecordAction_pass (Except.ok.inj hpass)
    exact ⟨m, l, flags, rfl, hperf⟩

theorem toUInt16_eq_zero_iff (b : UInt8) : 0 = b.toUInt16 ↔ b = 0 := by
  rw [eq_comm, ← UInt16.toNat_inj, ← UInt8.toNat_inj, UInt8.toNat_toUInt16]
  rfl

instance (f : List UInt8) : Decidable (Classified f) := inferInstanceAs (Decidable (_ ∨ _ ∨ _))

/-- A passed packet whose source is not on the white list is reported under its own addresses when
the filter classifies it, or when its fields happen to be those of the empty record. -/
theorem passed_reported_iff (heth : EthIpv4 f) (hvalid : Ipv4Valid f)
    (hwhite : sourceAddr f ∉ k.whiteList) (hpass : xdpParserFunc k f = .ok (xdpPass, k')) :
    Reported f k k' ↔ Classified f ∨ (sourceAddr f = 0 ∧ destAddr f = 0 ∧ ipProtocol f = 0 ∧
      f.length % 2 ^ 16 = 0) := by
  obtain ⟨m, l, flags, hinspect, hperf⟩ := inspect_of_pass heth hvalid hwhite hpass
  have hreported : Reported f k k' ↔ m.src = sourceAddr f ∧ m.dst = destAddr f ∧
      m.l4Proto = (ipProtocol f).toUInt16 ∧ m.pktLen.toNat = f.length % 2 ^ 16 := by
    rw [Reported, hperf]
    constructor
    · rintro ⟨ev, heq, hfields⟩
      obtain rfl : ⟨flags, m⟩ = ev := by simpa using heq
      exact hfields
    · exact fun hfields ↦ ⟨⟨flags, m⟩, rfl, hfields⟩
  rw [hreported]
  rcases inspectTransport_pass hinspect with ⟨hclass, size, ports, seq, rfl⟩ | ⟨hclass, rfl⟩
  · exact iff_of_true ⟨rfl, rfl, rfl, packetMeta_pktLen size ports seq⟩ (Or.inl hclass)
  · rw [or_iff_right hclass, PktMeta.zero, toUInt16_eq_zero_iff]
    simp only [eq_comm (a := (0 : UInt32)), eq_comm (a := (0 : UInt16).toNat)]
    exact Iff.rfl

def tcpFrame : List UInt8 :=
  ipv4Frame 6 0 [10, 0, 0, 7] [10, 10, 10, 10]
    ([0x30, 0x39, 0, 80, 0, 0, 0, 1, 0, 0, 0, 0, 0x50, 0x10] ++ List.replicate 6 0)

theorem tcpFrame_reported :
    ∃ k', xdpParserFunc (.init ∅ ∅) tcpFrame = .ok (xdpPass, k') ∧
      Reported tcpFrame (.init ∅ ∅) k' := by
  obtain ⟨k', hk'⟩ := xdpParserFunc_action tcpFrame (FilterState.init_statsPresent ∅ ∅)
  refine ⟨k', hk', ?_⟩
  exact (passed_reported_iff (by decide) (by decide) (by decide) hk').mpr
    (Or.inl (by decide))

def greFrame : List UInt8 := ipv4Frame 47 0 [10, 0, 0, 7] [10, 10, 10, 10] [0, 0, 8, 0]

theorem greFrame_not_reported :
    ∃ k', xdpParserFunc (.init ∅ ∅) greFrame = .ok (xdpPass, k') ∧
      ¬ Reported greFrame (.init ∅ ∅) k' := by
  obtain ⟨k', hk'⟩ := xdpParserFunc_action greFrame (FilterState.init_statsPresent ∅ ∅)
  refine ⟨k', hk', ?_⟩
  obtain ⟨m, l, flags, hinspect, hperf⟩ :=
    inspect_of_pass (f := greFrame) (by decide) (by decide) (by decide) hk'
  rintro ⟨ev, heq, hsrc, -⟩
  rw [hperf] at heq
  obtain rfl : ⟨flags, m⟩ = ev := by simpa using heq
  obtain rfl : PktMeta.zero = m := (ProgramEnd.out.inj (Prod.mk.inj hinspect).1).2
  have hzero : 0 = sourceAddr greFrame := hsrc
  exact absurd hzero (by decide)

end AntiDos
