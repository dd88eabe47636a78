import AntiDos.Filter.ParserCalls

/-!
# What follows when a header parser fails

Every parser call but one is followed by a check that drops the frame. What `parse_icmphdr` returns
is not looked at, so an ICMP packet too short for its header passes when no rule drops it.
-/

namespace AntiDos

open Bytes Faulting Logging

variable {f : List UInt8} {whiteList blackList : Finset UInt32} {k k' : FilterState}
  {c : ParserCall} {m : PktMeta} {steps steps' : List FilterStep}

/-! ## Negative results -/

/-- Some header parser that is called returns a negative value. -/
def ParserFails (steps : List FilterStep) : Prop := ∃ c, .parse c ∈ steps ∧ c.parsed.ret < 0

@[simp] theorem not_parserFails_nil : ¬ ParserFails [] := by
  simp [ParserFails]

@[simp] theorem parserFails_cons :
    ParserFails (.parse c :: steps) ↔ c.parsed.ret < 0 ∨ ParserFails steps := by
  simp [ParserFails, or_and_right, exists_or]

@[simp] theorem parserFails_append :
    ParserFails (steps ++ steps') ↔ ParserFails steps ∨ ParserFails steps' := by
  simp [ParserFails, or_and_right, exists_or]

@[simp] theorem not_parserFails_fillSteps (f : List UInt8) : ¬ ParserFails (fillSteps f) := by
  unfold fillSteps
  split_ifs
  · split
    · split_ifs <;> simp [ParserFails]
    · simp
  · simp

theorem ethParsed_neg_iff : (ethParsed f).ret < 0 ↔ f.length < 14 := by
  unfold ethParsed
  split
  · dsimp only
    omega
  · dsimp only
    omega

theorem ipParsed_neg_iff : (ipParsed f).ret < 0 ↔ ¬ Ipv4Valid f := by
  unfold ipParsed
  split
  · rename_i h
    exact iff_of_false (by dsimp only; omega) (not_not_intro h)
  · rename_i h
    exact iff_of_true (by dsimp only; omega) h

theorem tcpParsed_neg_iff : (tcpParsed f).ret < 0 ↔ ¬ TcpValid f := by
  unfold tcpParsed
  split
  · rename_i h
    exact iff_of_false (by dsimp only; omega) (not_not_intro h)
  · rename_i h
    exact iff_of_true (by dsimp only; omega) h

theorem udpParsed_neg_iff : (udpParsed f).ret < 0 ↔ ¬ UdpValid f := by
  unfold udpParsed UdpValid
  split
  · dsimp only
    split_ifs <;> omega
  · dsimp only
    omega

theorem icmpParsed_neg_iff :
    (icmpParsed f).ret < 0 ↔ f.length < transportOffset f + 8 := by
  unfold icmpParsed
  split
  · dsimp only
    omega
  · dsimp only
    omega

def TransportMalformed (f : List UInt8) : Prop :=
  (ipProtocol f = 6 ∧ ¬ TcpValid f) ∨ (ipProtocol f = 17 ∧ ¬ UdpValid f) ∨
    (ipProtocol f = 1 ∧ f.length < transportOffset f + 8)

theorem parserFails_transportCall : ParserFails (transportCall f) ↔ TransportMalformed f := by
  unfold transportCall TransportMalformed
  by_cases htcp : ipProtocol f = 6
  · simp [htcp, tcpParsed_neg_iff]
  by_cases hudp : ipProtocol f = 17
  · simp [hudp, udpParsed_neg_iff]
  by_cases hicmp : ipProtocol f = 1
  · simp [hicmp, icmpParsed_neg_iff]
  · simp [htcp, hudp, hicmp]

theorem parserFails_filterSteps :
    ParserFails (filterSteps f whiteList blackList) ↔
      f.length < 14 ∨ (EthIpv4 f ∧ ¬ Ipv4Valid f) ∨
        (EthIpv4 f ∧ Ipv4Valid f ∧ sourceAddr f ∉ whiteList ∧ sourceAddr f ∉ blackList ∧
          TransportMalformed f) := by
  unfold filterSteps
  rw [parserFails_cons, ethParsed_neg_iff]
  apply or_congr_right'
  intro hlen
  by_cases heth : EthIpv4 f
  · rw [if_neg (by simp [hlen, heth]), parserFails_cons, ipParsed_neg_iff]
    by_cases h : Ipv4Valid f
    · by_cases hwhite : sourceAddr f ∈ whiteList
      · simp [heth, h, hwhite]
      by_cases hblack : sourceAddr f ∈ blackList
      · simp [heth, h, hwhite, hblack]
      · simp [heth, h, hwhite, hblack, parserFails_transportCall]
    · simp [heth, h]
  · simp [heth]

/-! ## The packet that slips through -/

/-- An ICMP packet on no list whose header does not fit the frame, and which no rule drops. -/
structure TruncatedIcmp (f : List UInt8) (whiteList blackList : Finset UInt32) : Prop where
  eth : EthIpv4 f
  valid : Ipv4Valid f
  notWhite : sourceAddr f ∉ whiteList
  notBlack : sourceAddr f ∉ blackList
  icmp : ipProtocol f = 1
  short : f.length < transportOffset f + 8
  whole : ¬ Fragmented f
  small : totalLength f ≤ 1024

theorem inspect_of_parserFails (hfails : ParserFails (filterSteps f whiteList blackList))
    (hslip : ¬ TruncatedIcmp f whiteList blackList) :
    ∃ l, inspect f whiteList blackList = (.out xdpDrop .zero, l) := by
  unfold inspect
  by_cases hlen : f.length < 14
  · exact ⟨_, if_pos hlen⟩
  rw [if_neg hlen]
  rcases parserFails_filterSteps.mp hfails with
    hshort | ⟨heth, hbad⟩ | ⟨heth, h, hwhite, hblack, ht⟩
  · exact absurd hshort hlen
  · rw [if_neg (not_not_intro heth), if_pos hbad]
    exact ⟨_, rfl⟩
  · rw [if_neg (not_not_intro heth), if_neg (not_not_intro h), if_neg hwhite, if_neg hblack]
    unfold inspectTransport
    rcases ht with ⟨htcp, hbad⟩ | ⟨hudp, hbad⟩ | ⟨hicmp, hshort⟩
    · rw [if_pos htcp, if_pos hbad]
      exact ⟨_, rfl⟩
    · rw [if_neg (by simp [hudp]), if_pos hudp, if_pos hbad]
      exact ⟨_, rfl⟩
    · rw [if_neg (by simp [hicmp]), if_neg (by simp [hicmp]), if_pos hicmp]
      by_cases hfrag : Fragmented f
      · rw [if_pos hfrag]
        exact ⟨_, rfl⟩
      · rw [if_neg hfrag]
        by_cases hlarge : 1024 < totalLength f
        · rw [if_pos hlarge]
          exact ⟨_, rfl⟩
        · exact absurd ⟨heth, h, hwhite, hblack, hicmp, hshort, hfrag, Nat.not_lt.mp hlarge⟩ hslip

theorem TruncatedIcmp.parserFails (h : TruncatedIcmp f whiteList blackList) :
    ParserFails (filterSteps f whiteList blackList) :=
  parserFails_filterSteps.mpr (Or.inr (Or.inr ⟨h.eth, h.valid, h.notWhite, h.notBlack,
    Or.inr (Or.inr ⟨h.icmp, h.short⟩)⟩))

theorem TruncatedIcmp.action (h : TruncatedIcmp f whiteList blackList) :
    (inspect f whiteList blackList).1.action = xdpPass := by
  have hlen : ¬ f.length < 14 := by
    have := h.valid.1
    omega
  have hlarge : ¬ 1024 < totalLength f := Nat.not_lt.mpr h.small
  simp [inspect, inspectTransport, hlen, h.eth, h.valid, h.notWhite, h.notBlack, h.icmp, h.whole,
    hlarge, ProgramEnd.action]

/-! ## The verdict -/

theorem xdpStatsRecordAction_drop (len : ℕ) (m : PktMeta) (hstats : (k.stats xdpDrop).isSome) :
    (xdpStatsRecordAction len xdpDrop m k).1 = xdpDrop ∧
      (xdpStatsRecordAction len xdpDrop m k).2.perf = k.perf := by
  obtain ⟨rec, hrec⟩ := Option.isSome_iff_exists.mp hstats
  unfold xdpStatsRecordAction
  rw [if_neg (by decide), hrec]
  exact ⟨rfl, rfl⟩

/-- When a header parser returns a negative value, the frame is dropped and nothing is submitted. -/
def FailClosed (k : FilterState) (f : List UInt8) : Prop :=
  ∀ action k' steps, (xdpParserFuncSteps k f).run [] = .ok ((action, k'), steps) →
    ParserFails steps → action = xdpDrop ∧ k'.perf = k.perf

theorem TruncatedIcmp.not_failClosed (hslip : TruncatedIcmp f k.whiteList k.blackList)
    (hstats : k.StatsPresent) : ¬ FailClosed k f := by
  intro hclosed
  obtain ⟨r, hr, hrun⟩ := xdpParserFuncSteps_run k f
  obtain ⟨k', hpass⟩ := xdpParserFunc_action f hstats
  obtain rfl : r = _ := Except.ok.inj (hr.symm.trans hpass)
  have hdrop := (hclosed _ _ _ hrun hslip.parserFails).1
  rw [hslip.action] at hdrop
  exact absurd hdrop (by decide)

/-- The program fails closed on every frame but the ICMP packets that slip through. -/
theorem failClosed_iff (k : FilterState) (f : List UInt8) (hstats : k.StatsPresent) :
    FailClosed k f ↔ ¬ TruncatedIcmp f k.whiteList k.blackList := by
  constructor
  · exact fun hclosed hslip ↦ hslip.not_failClosed hstats hclosed
  · intro hslip action k' steps hrun' hfails
    obtain ⟨r, hr, hrun⟩ := xdpParserFuncSteps_run k f
    obtain ⟨rfl, rfl⟩ := Prod.mk.inj (Except.ok.inj (hrun.symm.trans hrun'))
    obtain ⟨l, hl⟩ := inspect_of_parserFails hfails hslip
    rw [xdpParserFunc_eq, hl] at hr
    have hdropped := xdpStatsRecordAction_drop f.length .zero
      (k := { k with trace := k.trace ++ l }) (hstats xdpDrop (by decide))
    rw [Except.ok.inj hr] at hdropped
    exact hdropped

theorem tcpFrame_failClosed :
    FailClosed (.init ∅ ∅) (ipv4Frame 6 0 [10, 0, 0, 7] [10, 10, 10, 10] [0, 80]) :=
  (failClosed_iff (.init ∅ ∅) (ipv4Frame 6 0 [10, 0, 0, 7] [10, 10, 10, 10] [0, 80])
    (FilterState.init_statsPresent ∅ ∅)).mpr fun h ↦ absurd h.icmp (by decide)

/-- Of the eight bytes of the ICMP header four are in the frame. -/
def shortIcmpFrame : List UInt8 := ipv4Frame 1 0 [10, 0, 0, 7] [10, 10, 10, 10] [8, 0, 0, 0]

theorem truncated_icmp_not_failClosed : ¬ FailClosed (.init ∅ ∅) shortIcmpFrame := by
  apply TruncatedIcmp.not_failClosed _ (FilterState.init_statsPresent ∅ ∅)
  exact ⟨by decide, by decide, by decide, by decide, by decide, by decide, by decide, by decide⟩

end AntiDos
