import AntiDos.Poller.BlackList
import Mathlib.Data.Finset.Image
import Mathlib.Data.Finset.Range

/-!
# What the result of a change says

`policy_change_black_list` reports a map that it cannot open and a layout that it does not know.
The result of the map operation itself is only used for the line it prints, and the exit code that
`open_bpf_map_file` returns in place of a descriptor is used as one.
-/

namespace AntiDos

variable {ip : UInt32} {action : Int} {r : MapReply} {m : BlackListMap}

/-! ## The calls before the map operation -/

/-- What `open_bpf_map_file` returns when the pinned map can be opened. -/
def MapReply.descriptor (r : MapReply) : Int := if r.infoErr = 0 then r.objGet else exitFailBpf

/-- The layout that is checked: what the kernel reports, or else what `info` held before. -/
def MapReply.layout (r : MapReply) (m : BlackListMap) : BpfMapInfo :=
  if r.infoErr = 0 then r.info else m.info

def BlackListMap.opened (m : BlackListMap) (r : MapReply) : BlackListMap :=
  { m with fds := insert r.objGet m.fds, info := r.layout m }

/-- The map cannot be opened, or its layout is not the one of `black_list`. -/
def Refused (r : MapReply) (m : BlackListMap) : Prop :=
  r.objGet < 0 ∨ ¬((r.layout m).keySize = 4 ∧ (r.layout m).valueSize = 4)

instance (r : MapReply) (m : BlackListMap) : Decidable (Refused r m) :=
  inferInstanceAs (Decidable (_ ∨ _))

theorem openBpfMapFile_of_nonneg (h : 0 ≤ r.objGet) :
    openBpfMapFile r m = (r.descriptor, m.opened r) := by
  rw [openBpfMapFile, if_neg (Int.not_lt.mpr h)]
  by_cases hinfo : r.infoErr = 0
  · simp [hinfo, MapReply.descriptor, MapReply.layout, BlackListMap.opened]
  · simp [hinfo, MapReply.descriptor, MapReply.layout, BlackListMap.opened]

theorem MapReply.descriptor_nonneg (h : 0 ≤ r.objGet) : 0 ≤ r.descriptor := by
  unfold MapReply.descriptor
  split
  · exact h
  · decide

theorem checkMapFdInfo_mapExpect (info : BpfMapInfo) :
    checkMapFdInfo info mapExpect = 0 ↔ info.keySize = 4 ∧ info.valueSize = 4 := by
  by_cases hkey : info.keySize = 4
  · by_cases hvalue : info.valueSize = 4
    · simp [checkMapFdInfo, mapExpect, hkey, hvalue]
    · simp [checkMapFdInfo, mapExpect, hkey, hvalue, eq_comm]
  · simp [checkMapFdInfo, mapExpect, hkey, eq_comm]

theorem Refused.ret_ne_zero (h : Refused r m) (ip : UInt32) (action : Int) :
    (policyChangeBlackList ip action r m).ret ≠ 0 := by
  unfold policyChangeBlackList
  by_cases hget : r.objGet < 0
  · simp [openBpfMapFile, hget, exitFailBpf]
  · have hlayout : checkMapFdInfo (r.layout m) mapExpect ≠ 0 :=
      mt (checkMapFdInfo_mapExpect _).mp (h.resolve_left hget)
    have hnonneg : 0 ≤ r.objGet := Int.not_lt.mp hget
    have hfd : ¬ r.descriptor < 0 := Int.not_lt.mpr (MapReply.descriptor_nonneg hnonneg)
    simp [openBpfMapFile_of_nonneg hnonneg, hfd, BlackListMap.opened, hlayout]

/-- A change that is not refused returns `0`, whatever the map operation answers. -/
theorem policyChangeBlackList_of_not_refused (h : ¬ Refused r m) (ip : UInt32) :
    (policyChangeBlackList ip block r m =
      let res := bpfMapUpdateElem r r.descriptor ip (m.opened r)
      ⟨0, res.2, res.1 = 0⟩) ∧
    (policyChangeBlackList ip unblock r m =
      let res := bpfMapDeleteElem r r.descriptor ip (m.opened r)
      ⟨0, res.2, res.1 = 0⟩) := by
  obtain ⟨hget, hlayout⟩ := not_or.mp h
  have hnonneg : 0 ≤ r.objGet := Int.not_lt.mp hget
  have hfd : ¬ r.descriptor < 0 := Int.not_lt.mpr (MapReply.descriptor_nonneg hnonneg)
  have hcheck : checkMapFdInfo (m.opened r).info mapExpect = 0 :=
    (checkMapFdInfo_mapExpect _).mpr (not_not.mp hlayout)
  simp [policyChangeBlackList, openBpfMapFile_of_nonneg hnonneg, hfd, hcheck]

/-! ## The map operation -/

/-- What is used as a descriptor is one on `black_list`. -/
def OnBlackList (r : MapReply) (m : BlackListMap) : Prop :=
  r.descriptor ∈ insert r.objGet m.fds

/-! ## The result -/

/-- The address is where the action is to put it. -/
def Placed (ip : UInt32) (action : Int) (entries : Finset UInt32) : Prop :=
  if action = block then ip ∈ entries else ip ∉ entries

/-- A zero result means that the address is placed and that nothing else has changed. -/
def Truthful (ip : UInt32) (action : Int) (r : MapReply) (m : BlackListMap) : Prop :=
  let c := policyChangeBlackList ip action r m
  c.ret = 0 → Placed ip action c.map.entries ∧
    ∀ a, a ≠ ip → (a ∈ c.map.entries ↔ a ∈ m.entries)

theorem mem_policyChangeBlackList_of_ne (h : action = block ∨ action = unblock) {a : UInt32}
    (ha : a ≠ ip) : a ∈ (policyChangeBlackList ip action r m).map.entries ↔ a ∈ m.entries := by
  rcases h with rfl | rfl
  · rw [policyChangeBlackList_block_entries]
    split
    · simp [ha]
    · rfl
  · rw [policyChangeBlackList_unblock_entries]
    split
    · simp [ha]
    · rfl

theorem truthful_iff_placed (h : action = block ∨ action = unblock) :
    Truthful ip action r m ↔ Refused r m ∨
      Placed ip action (policyChangeBlackList ip action r m).map.entries := by
  by_cases hrefused : Refused r m
  · exact iff_of_true (fun hzero ↦ absurd hzero (hrefused.ret_ne_zero ip action))
      (Or.inl hrefused)
  · have hzero : (policyChangeBlackList ip action r m).ret = 0 := by
      rcases h with rfl | rfl
      · rw [(policyChangeBlackList_of_not_refused hrefused ip).1]
      · rw [(policyChangeBlackList_of_not_refused hrefused ip).2]
    rw [or_iff_right hrefused]
    exact ⟨fun htrue ↦ (htrue hzero).1,
      fun hplaced _ ↦ ⟨hplaced, fun a ha ↦ mem_policyChangeBlackList_of_ne h ha⟩⟩

theorem done_block_iff (ip : UInt32) (h : ¬ Refused r m) :
    (policyChangeBlackList ip block r m).done ↔ OnBlackList r m ∧ r.update = 0 ∧
      (ip ∈ m.entries ∨ m.entries.card < blackListEntries) := by
  rw [(policyChangeBlackList_of_not_refused h ip).1]
  exact decide_eq_true_iff.trans (bpfMapUpdateElem_eq_zero_iff r r.descriptor ip (m.opened r))

theorem done_unblock_iff (ip : UInt32) (h : ¬ Refused r m) :
    (policyChangeBlackList ip unblock r m).done ↔
      OnBlackList r m ∧ r.delete = 0 ∧ ip ∈ m.entries := by
  rw [(policyChangeBlackList_of_not_refused h ip).2]
  exact decide_eq_true_iff.trans (bpfMapDeleteElem_eq_zero_iff r r.descriptor ip (m.opened r))

theorem placed_block_iff : Placed ip block (policyChangeBlackList ip block r m).map.entries ↔
    ip ∈ m.entries ∨ (policyChangeBlackList ip block r m).done := by
  rw [Placed, if_pos rfl, policyChangeBlackList_block_entries]
  split
  · rename_i hdone
    exact iff_of_true (Finset.mem_insert_self ip m.entries) (Or.inr hdone)
  · rename_i hfailed
    rw [or_iff_left hfailed]

theorem placed_unblock_iff :
    Placed ip unblock (policyChangeBlackList ip unblock r m).map.entries ↔
      ip ∉ m.entries ∨ (policyChangeBlackList ip unblock r m).done := by
  rw [Placed, if_neg (by decide), policyChangeBlackList_unblock_entries]
  split
  · rename_i hdone
    exact iff_of_true (Finset.notMem_erase ip m.entries) (Or.inr hdone)
  · rename_i hfailed
    rw [or_iff_left hfailed]

/-- The result is truthful when the failure is one that is reported, when there is nothing to
change, and when the map operation succeeds. -/
theorem change_truthful_iff (ip : UInt32) (r : MapReply) (m : BlackListMap) :
    (Truthful ip block r m ↔ Refused r m ∨ ip ∈ m.entries ∨
      (OnBlackList r m ∧ r.update = 0 ∧ m.entries.card < blackListEntries)) ∧
    (Truthful ip unblock r m ↔ Refused r m ∨ ip ∉ m.entries ∨
      (OnBlackList r m ∧ r.delete = 0)) := by
  constructor
  · rw [truthful_iff_placed (Or.inl rfl), placed_block_iff]
    apply or_congr_right'
    intro hopen
    apply or_congr_right'
    intro hmem
    rw [done_block_iff ip hopen, or_iff_right hmem]
  · rw [truthful_iff_placed (Or.inr rfl), placed_unblock_iff]
    apply or_congr_right'
    intro hopen
    apply or_congr_right'
    intro hmem
    rw [done_unblock_iff ip hopen, and_iff_left (not_not.mp hmem)]

/-! ## A full map -/

/-- The map holds the addresses `0, .., 9999`. -/
def fullMap : BlackListMap :=
  ⟨(Finset.range blackListEntries).image UInt32.ofNat, ∅, mapExpect⟩

theorem fullMap_card : fullMap.entries.card = blackListEntries := by
  have hinj : Set.InjOn UInt32.ofNat (Finset.range blackListEntries : Set ℕ) := by
    intro j hj k hk heq
    have hj' : j < 10000 := by simpa using hj
    have hk' : k < 10000 := by simpa using hk
    have htoNat := congrArg UInt32.toNat heq
    simp only [UInt32.toNat_ofNat'] at htoNat
    omega
  rw [fullMap, Finset.card_image_of_injOn hinj, Finset.card_range]

theorem not_mem_fullMap {a : UInt32} (ha : blackListEntries ≤ a.toNat) : a ∉ fullMap.entries := by
  intro hmem
  obtain ⟨k, hk, rfl⟩ := Finset.mem_image.mp hmem
  have hk' : k < 10000 := Finset.mem_range.mp hk
  have ha' : 10000 ≤ (UInt32.ofNat k).toNat := ha
  rw [UInt32.toNat_ofNat'] at ha'
  omega

/-- The map is full, so the address is not stored, and the result is `0`. -/
theorem block_on_full_map_not_truthful : ¬ Truthful 0x0A000007 block .granted fullMap := by
  intro h
  have habsent : (0x0A000007 : UInt32) ∉ fullMap.entries := not_mem_fullMap (by decide)
  have hopen : ¬ Refused .granted fullMap := by decide
  have hplaced := (truthful_iff_placed (Or.inl rfl)).mp h
  rw [or_iff_right hopen, placed_block_iff, or_iff_right habsent, done_block_iff _ hopen,
    or_iff_right habsent, fullMap_card] at hplaced
  exact lt_irrefl _ hplaced.2.2

end AntiDos
