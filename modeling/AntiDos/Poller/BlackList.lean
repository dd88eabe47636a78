import AntiDos.Poller.State

/-!
# Changing the black list

`policy_change_black_list` opens the pinned map anew on every call, checks its layout and makes one
map operation, whose result it does not return.
-/

namespace AntiDos

abbrev exitFail : Int := 1

abbrev exitFailBpf : Int := 40

/-- `check_map_fd_info`: a zero expectation accepts anything. -/
def checkMapFdInfo (info exp : BpfMapInfo) : Int :=
  if exp.keySize ≠ 0 ∧ exp.keySize ≠ info.keySize then exitFail
  else if exp.valueSize ≠ 0 ∧ exp.valueSize ≠ info.valueSize then exitFail
  else if exp.maxEntries ≠ 0 ∧ exp.maxEntries ≠ info.maxEntries then exitFail
  else if exp.type ≠ 0 ∧ exp.type ≠ info.type then exitFail
  else 0

def mapExpect : BpfMapInfo := ⟨4, 4, 0, 0⟩

/-- `open_bpf_map_file` on the pin of `black_list`. The path is built by `snprintf` from two plain
strings, which cannot fail. When the info cannot be read, the new descriptor stays open and a
positive exit code is returned in its place. -/
def openBpfMapFile (r : MapReply) (m : BlackListMap) : Int × BlackListMap :=
  if r.objGet < 0 then (r.objGet, m)
  else
    let m := { m with fds := insert r.objGet m.fds }
    if r.infoErr ≠ 0 then (exitFailBpf, m)
    else (r.objGet, { m with info := r.info })

/-- `bpf_map_update_elem(fd, key, .., BPF_ANY)`: a new key does not fit a full map. -/
def bpfMapUpdateElem (r : MapReply) (fd : Int) (key : UInt32) (m : BlackListMap) :
    Int × BlackListMap :=
  if fd ∉ m.fds then (-1, m)
  else if r.update ≠ 0 then (r.update, m)
  else if key ∈ m.entries ∨ m.entries.card < blackListEntries then
    (0, { m with entries := insert key m.entries })
  else (-1, m)

/-- `bpf_map_delete_elem(fd, key)`: an absent key cannot be deleted. -/
def bpfMapDeleteElem (r : MapReply) (fd : Int) (key : UInt32) (m : BlackListMap) :
    Int × BlackListMap :=
  if fd ∉ m.fds then (-1, m)
  else if r.delete ≠ 0 then (r.delete, m)
  else if key ∈ m.entries then (0, { m with entries := m.entries.erase key })
  else (-1, m)

/-- The outcome of `policyChangeBlackList`: its result, the map after it, and whether the map
operation was made and returned `0`, in which case the line `[ADDED]` or `[REMOVED]` is printed. -/
structure Change where
  ret : Int
  map : BlackListMap
  done : Bool

def policyChangeBlackList (ip : UInt32) (action : Int) (r : MapReply) (m : BlackListMap) :
    Change :=
  let opened := openBpfMapFile r m
  let fd := opened.1
  let m := opened.2
  if fd < 0 then ⟨exitFailBpf, m, false⟩
  else
    let err := checkMapFdInfo m.info mapExpect
    if err ≠ 0 then ⟨err, m, false⟩
    else if action = block then
      let res := bpfMapUpdateElem r fd ip m
      ⟨0, res.2, res.1 = 0⟩
    else if action = unblock then
      let res := bpfMapDeleteElem r fd ip m
      ⟨0, res.2, res.1 = 0⟩
    else ⟨1, m, false⟩

/-! ## What a change does to the map -/

/-- The kernel lets every call of a change succeed, and reports the layout of `black_list`. -/
structure MapReply.Succeeds (r : MapReply) : Prop where
  objGet : 0 ≤ r.objGet
  infoErr : r.infoErr = 0
  keySize : r.info.keySize = 4
  valueSize : r.info.valueSize = 4
  update : r.update = 0
  delete : r.delete = 0

def MapReply.granted : MapReply := ⟨3, 0, ⟨4, 4, 10000, 5⟩, 0, 0⟩

theorem MapReply.granted_succeeds : MapReply.granted.Succeeds :=
  ⟨by decide, rfl, rfl, rfl, rfl, rfl⟩

@[simp] theorem openBpfMapFile_entries (r : MapReply) (m : BlackListMap) :
    (openBpfMapFile r m).2.entries = m.entries := by
  unfold openBpfMapFile
  split
  · rfl
  · dsimp only
    split <;> rfl

/-- A map operation that passes its three checks is made, and returns `0`. -/
theorem checked_eq_zero_iff {p q : Prop} [Decidable p] [Decidable q] {err : Int}
    {m m' : BlackListMap} :
    (if ¬ p then (-1, m) else if err ≠ 0 then (err, m) else if q then (0, m') else (-1, m)).1 = 0 ↔
      p ∧ err = 0 ∧ q := by
  have hfail : (-1 : Int) ≠ 0 := by decide
  by_cases hp : p
  · rw [if_neg (not_not_intro hp), and_iff_right hp]
    by_cases herr : err = 0
    · rw [if_neg (not_not_intro herr), and_iff_right herr]
      by_cases hq : q
      · exact iff_of_true (by rw [if_pos hq]) hq
      · rw [if_neg hq]
        exact iff_of_false hfail hq
    · rw [if_pos herr]
      exact iff_of_false herr fun h ↦ herr h.1
  · rw [if_pos hp]
    exact iff_of_false hfail fun h ↦ hp h.1

theorem bpfMapUpdateElem_eq_zero_iff (r : MapReply) (fd : Int) (key : UInt32)
    (m : BlackListMap) : (bpfMapUpdateElem r fd key m).1 = 0 ↔
      fd ∈ m.fds ∧ r.update = 0 ∧ (key ∈ m.entries ∨ m.entries.card < blackListEntries) :=
  checked_eq_zero_iff

theorem bpfMapDeleteElem_eq_zero_iff (r : MapReply) (fd : Int) (key : UInt32)
    (m : BlackListMap) : (bpfMapDeleteElem r fd key m).1 = 0 ↔
      fd ∈ m.fds ∧ r.delete = 0 ∧ key ∈ m.entries :=
  checked_eq_zero_iff

theorem bpfMapUpdateElem_entries (r : MapReply) (fd : Int) (key : UInt32) (m : BlackListMap) :
    (bpfMapUpdateElem r fd key m).2.entries =
      if (bpfMapUpdateElem r fd key m).1 = 0 then insert key m.entries else m.entries := by
  unfold bpfMapUpdateElem
  split
  · simp
  · split
    · simp
    · split <;> simp

theorem bpfMapDeleteElem_entries (r : MapReply) (fd : Int) (key : UInt32) (m : BlackListMap) :
    (bpfMapDeleteElem r fd key m).2.entries =
      if (bpfMapDeleteElem r fd key m).1 = 0 then m.entries.erase key else m.entries := by
  unfold bpfMapDeleteElem
  split
  · simp
  · split
    · simp
    · split <;> simp

theorem policyChangeBlackList_block_entries (ip : UInt32) (r : MapReply) (m : BlackListMap) :
    (policyChangeBlackList ip block r m).map.entries =
      if (policyChangeBlackList ip block r m).done then insert ip m.entries else m.entries := by
  unfold policyChangeBlackList
  dsimp only
  split
  · simp
  · split
    · simp
    · simp [bpfMapUpdateElem_entries]

theorem policyChangeBlackList_unblock_entries (ip : UInt32) (r : MapReply) (m : BlackListMap) :
    (policyChangeBlackList ip unblock r m).map.entries =
      if (policyChangeBlackList ip unblock r m).done then m.entries.erase ip else m.entries := by
  unfold policyChangeBlackList
  dsimp only
  split
  · simp
  · split
    · simp
    · simp [bpfMapDeleteElem_entries]

theorem MapReply.Succeeds.openBpfMapFile_eq {r : MapReply} (h : r.Succeeds) (m : BlackListMap) :
    openBpfMapFile r m =
      (r.objGet, { m with fds := insert r.objGet m.fds, info := r.info }) := by
  simp [openBpfMapFile, Int.not_lt.mpr h.objGet, h.infoErr]

theorem MapReply.Succeeds.not_mem_unblock {r : MapReply} (h : r.Succeeds) (ip : UInt32)
    (m : BlackListMap) : ip ∉ (policyChangeBlackList ip unblock r m).map.entries := by
  have hcheck : checkMapFdInfo r.info mapExpect = 0 := by
    simp [checkMapFdInfo, mapExpect, h.keySize, h.valueSize]
  have hpos : ¬ r.objGet < 0 := Int.not_lt.mpr h.objGet
  simp only [policyChangeBlackList, h.openBpfMapFile_eq, hcheck, hpos, bpfMapDeleteElem, h.delete]
  by_cases hmem : ip ∈ m.entries <;> simp [hmem]

end AntiDos
