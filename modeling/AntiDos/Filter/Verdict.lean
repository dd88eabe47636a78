import AntiDos.Filter.Inspection

/-!
# The verdict on a frame

The frames the filter drops, condition by condition, in the order in which its parsers, lists and
rules look at them.
-/

namespace AntiDos

open Bytes Faulting

variable (f : List UInt8) (whiteList blackList : Finset UInt32)

/-! ## The rule -/

def TcpDropped : Prop :=
  f.length < transportOffset f + 20 ∨ dataOffset f < 5 ∨
    f.length < transportOffset f + 4 * dataOffset f ∨
      (SynSet f ∧ (MoreFragments f ∨ fragmentOffset f ≠ 0))

def UdpDropped : Prop := f.length < transportOffset f + 8 ∨ udpLength f < 8

def IcmpDropped : Prop := MoreFragments f ∨ fragmentOffset f ≠ 0 ∨ 1024 < totalLength f

def TransportDropped : Prop :=
  (ipProtocol f = 6 ∧ TcpDropped f) ∨ (ipProtocol f = 17 ∧ UdpDropped f) ∨
    (ipProtocol f = 1 ∧ IcmpDropped f)

def Dropped : Prop :=
  f.length < 14 ∨
    (EthIpv4 f ∧ (f.length < 34 ∨ ihl f < 5 ∨ f.length < 14 + 4 * ihl f)) ∨
      (EthIpv4 f ∧ Ipv4Valid f ∧ sourceAddr f ∉ whiteList ∧
        (sourceAddr f ∈ blackList ∨ TransportDropped f))

instance : Decidable (TcpDropped f) := inferInstanceAs (Decidable (_ ∨ _ ∨ _ ∨ (_ ∧ (_ ≠ _ ∨ _))))

instance : Decidable (UdpDropped f) := inferInstanceAs (Decidable (_ ∨ _))

instance : Decidable (IcmpDropped f) := inferInstanceAs (Decidable (_ ≠ _ ∨ _ ∨ _))

instance : Decidable (TransportDropped f) := inferInstanceAs (Decidable (_ ∨ _ ∨ _))

instance : Decidable (Dropped f whiteList blackList) := inferInstanceAs (Decidable (_ ∨ _ ∨ _))

variable {f whiteList blackList}

theorem tcpDropped_iff : TcpDropped f ↔ ¬ TcpValid f ∨ (Fragmented f ∧ SynSet f) := by
  have hvalid : ¬ TcpValid f ↔ f.length < transportOffset f + 20 ∨ dataOffset f < 5 ∨
      f.length < transportOffset f + 4 * dataOffset f := by
    unfold TcpValid
    omega
  rw [hvalid, TcpDropped, and_comm (a := Fragmented f), or_assoc, or_assoc]
  exact Iff.rfl

theorem udpDropped_iff : UdpDropped f ↔ ¬ UdpValid f := by
  unfold UdpDropped UdpValid
  omega

theorem icmpDropped_iff : IcmpDropped f ↔ Fragmented f ∨ 1024 < totalLength f :=
  or_assoc.symm

theorem not_ipv4Valid_iff :
    ¬ Ipv4Valid f ↔ f.length < 34 ∨ ihl f < 5 ∨ f.length < 14 + 4 * ihl f := by
  unfold Ipv4Valid transportOffset
  omega

theorem transportDropped_iff :
    TransportDropped f ↔
      (ipProtocol f = 6 ∧ (¬ TcpValid f ∨ (Fragmented f ∧ SynSet f))) ∨
        (ipProtocol f = 17 ∧ ¬ UdpValid f) ∨
          (ipProtocol f = 1 ∧ (Fragmented f ∨ 1024 < totalLength f)) := by
  rw [TransportDropped, tcpDropped_iff, udpDropped_iff, icmpDropped_iff]

theorem dropped_iff :
    Dropped f whiteList blackList ↔
      f.length < 14 ∨ (EthIpv4 f ∧ ¬ Ipv4Valid f) ∨
        (EthIpv4 f ∧ Ipv4Valid f ∧ sourceAddr f ∉ whiteList ∧
          (sourceAddr f ∈ blackList ∨ TransportDropped f)) := by
  rw [Dropped, ← not_ipv4Valid_iff]

/-! ## The verdict -/

def ProgramEnd.action : ProgramEnd → UInt32
  | .ret action => action
  | .out action _ => action

theorem inspectTransport_action :
    (inspectTransport f).1.action = if TransportDropped f then xdpDrop else xdpPass := by
  simp only [transportDropped_iff, inspectTransport]
  by_cases htcp : ipProtocol f = 6
  · by_cases hvalid : TcpValid f <;> by_cases hdrop : Fragmented f ∧ SynSet f <;>
      simp [htcp, hvalid, hdrop, ProgramEnd.action]
  by_cases hudp : ipProtocol f = 17
  · by_cases hvalid : UdpValid f <;> simp [hudp, hvalid, ProgramEnd.action]
  by_cases hicmp : ipProtocol f = 1
  · by_cases hfrag : Fragmented f <;> by_cases hlarge : 1024 < totalLength f <;>
      simp [hicmp, hfrag, hlarge, ProgramEnd.action]
  · simp [htcp, hudp, hicmp, ProgramEnd.action]

theorem inspect_action :
    (inspect f whiteList blackList).1.action =
      if Dropped f whiteList blackList then xdpDrop else xdpPass := by
  simp only [dropped_iff, inspect]
  by_cases hlen : f.length < 14
  · simp [hlen, ProgramEnd.action]
  by_cases heth : EthIpv4 f
  · by_cases hvalid : Ipv4Valid f
    · by_cases hwhite : sourceAddr f ∈ whiteList
      · simp [hlen, heth, hvalid, hwhite, ProgramEnd.action]
      · by_cases hblack : sourceAddr f ∈ blackList
        · simp [hlen, heth, hvalid, hwhite, hblack, ProgramEnd.action]
        · simp [hlen, heth, hvalid, hwhite, hblack, inspectTransport_action]
    · simp [hlen, heth, hvalid, ProgramEnd.action]
  · simp [hlen, heth, ProgramEnd.action]

/-! ## The program -/

/-- The lookup of every action in `xdp_stats_map` succeeds. -/
def FilterState.StatsPresent (k : FilterState) : Prop := ∀ a < xdpActionMax, (k.stats a).isSome

def FilterState.init (whiteList blackList : Finset UInt32) : FilterState where
  whiteList := whiteList
  blackList := blackList
  stats := fun a ↦ if a < xdpActionMax then some ⟨0, 0⟩ else none
  trace := []
  perf := []

theorem FilterState.init_statsPresent (whiteList blackList : Finset UInt32) :
    (init whiteList blackList).StatsPresent := by
  intro a ha
  simp only [init]
  rw [if_pos ha]
  rfl

theorem xdpStatsRecordAction_fst {k : FilterState} {len : ℕ} {action : UInt32} {m : PktMeta}
    (ha : action < xdpActionMax) (hstats : (k.stats action).isSome) :
    (xdpStatsRecordAction len action m k).1 = action := by
  obtain ⟨rec, hrec⟩ := Option.isSome_iff_exists.mp hstats
  unfold xdpStatsRecordAction
  rw [if_neg (UInt32.not_le.mpr ha), hrec]
  dsimp only
  split <;> rfl

theorem xdpParserFunc_eq (k : FilterState) (f : List UInt8) :
    xdpParserFunc k f =
      let r := inspect f k.whiteList k.blackList
      let k' := { k with trace := k.trace ++ r.2 }
      match r.1 with
      | .ret action => .ok (action, k')
      | .out action m => .ok (xdpStatsRecordAction f.length action m k') := by
  unfold xdpParserFunc
  rw [parsePacket_eq]
  exact ok_bind _ _

theorem xdpParserFunc_action {k : FilterState} (f : List UInt8) (hstats : k.StatsPresent) :
    ∃ k', xdpParserFunc k f = .ok ((inspect f k.whiteList k.blackList).1.action, k') := by
  rw [xdpParserFunc_eq]
  have haction : (inspect f k.whiteList k.blackList).1.action =
      if Dropped f k.whiteList k.blackList then xdpDrop else xdpPass := inspect_action
  generalize inspect f k.whiteList k.blackList = r at haction
  obtain ⟨e, l⟩ := r
  cases e with
  | ret action => exact ⟨_, rfl⟩
  | out action m =>
      have hlt : action < xdpActionMax := by
        change action = _ at haction
        rw [haction]
        split <;> decide
      refine ⟨_, congrArg Except.ok (Prod.ext (xdpStatsRecordAction_fst hlt ?_) rfl)⟩
      exact hstats action hlt

/-- The program drops exactly the frames of the rule and passes all others, without a read outside
the frame. -/
theorem xdpParserFunc_verdict (k : FilterState) (f : List UInt8) (hstats : k.StatsPresent) :
    ∃ k', xdpParserFunc k f =
      .ok (if Dropped f k.whiteList k.blackList then xdpDrop else xdpPass, k') := by
  rw [← inspect_action]
  exact xdpParserFunc_action f hstats

/-- An Ethernet header of IPv4, an IPv4 header without options, and what follows. -/
def ipv4Frame (protocol flags : UInt8) (src dst : List UInt8) (rest : List UInt8) : List UInt8 :=
  List.replicate 12 0 ++ [8, 0] ++
    [0x45, 0, 0, UInt8.ofNat (20 + rest.length), 0, 1, flags, 0, 64, protocol, 0, 0] ++
    src ++ dst ++ rest

/-- A first fragment with the SYN bit set. -/
def fragmentedSyn : List UInt8 :=
  ipv4Frame 6 0x20 [10, 0, 0, 7] [10, 10, 10, 10]
    ([0x30, 0x39, 0, 80, 0, 0, 0, 1, 0, 0, 0, 0, 0x50, 0x02] ++ List.replicate 6 0)

theorem verdict_fragmented_syn :
    ∃ k', xdpParserFunc (.init ∅ ∅) fragmentedSyn = .ok (xdpDrop, k') := by
  have hdropped : Dropped fragmentedSyn (FilterState.init ∅ ∅).whiteList
      (FilterState.init ∅ ∅).blackList := by decide
  have hverdict := xdpParserFunc_verdict (.init ∅ ∅) fragmentedSyn
    (FilterState.init_statsPresent ∅ ∅)
  rwa [if_pos hdropped] at hverdict

end AntiDos
