import AntiDos.Loader.Link

/-!
# Pinning the maps of an object

The maps of a loaded object are pinned one after the other under the directory of the interface.
When one of them cannot be pinned, the pins made before it are removed again. Nothing here touches
the programs attached to the interfaces.
-/

namespace AntiDos

structure BpfMap where
  name : String
  id : ℕ
deriving DecidableEq

abbrev pathMax : ℕ := 4096

abbrev enoent : Int := 2

abbrev enametoolong : Int := 36

def Host.setPin (h : Host) (path : String) (id : Option ℕ) : Host :=
  { h with pins := Function.update h.pins path id }

/-- Errors of the calls on the files below the pin directory, by path, or `0`. The call `undo` is
the `unlink` on the way out of a failed `bpf_object__pin_maps`. -/
structure PinReplies where
  access : String → ℕ
  unlink : String → ℕ
  pin : String → ℕ
  undo : String → ℕ

def pinPath (dir name : String) : String := dir ++ "/" ++ name

/-- `bpf_map__unpin(map, path)` on a map of which libbpf knows no other path. -/
def bpfMapUnpin (errno : ℕ) (path : String) (h : Host) : Int × Host :=
  if errno ≠ 0 then (-(errno : Int), h)
  else if h.pins path = none then (-enoent, h)
  else (0, h.setPin path none)

/-- `bpf_map__pin(map, path)` on a map that is not pinned yet: a path in use cannot be pinned. -/
def bpfMapPin (errno : ℕ) (path : String) (id : ℕ) (h : Host) : Int × Host :=
  if errno ≠ 0 then (-(errno : Int), h)
  else if h.pins path = none then (0, h.setPin path (some id))
  else (-eexist, h)

def bpfObjectUnpinMaps (r : PinReplies) (dir : String) : List BpfMap → Host → Int × Host
  | [], h => (0, h)
  | map :: maps, h =>
      let path := pinPath dir map.name
      if pathMax ≤ path.utf8ByteSize then (-enametoolong, h)
      else
        let res := bpfMapUnpin (r.unlink path) path h
        if res.1 ≠ 0 then res else bpfObjectUnpinMaps r dir maps res.2

/-- The removal of the pins made so far, last one first. Its errors are ignored. -/
def undoPins (r : PinReplies) (dir : String) (made : List BpfMap) (h : Host) : Host :=
  made.foldl (fun h map ↦
    (bpfMapUnpin (r.undo (pinPath dir map.name)) (pinPath dir map.name) h).2) h

/-- The loop of `bpf_object__pin_maps`; `made` are the maps it has pinned, last one first. -/
def pinMapsFrom (r : PinReplies) (dir : String) (made : List BpfMap) :
    List BpfMap → Host → Int × Host
  | [], h => (0, h)
  | map :: maps, h =>
      let path := pinPath dir map.name
      if pathMax ≤ path.utf8ByteSize then (-enametoolong, undoPins r dir made h)
      else
        let res := bpfMapPin (r.pin path) path map.id h
        if res.1 ≠ 0 then (res.1, undoPins r dir made res.2)
        else pinMapsFrom r dir (map :: made) maps res.2

def bpfObjectPinMaps (r : PinReplies) (dir : String) (maps : List BpfMap) (h : Host) : Int × Host :=
  pinMapsFrom r dir [] maps h

def pinBasedir : String := "/sys/fs/bpf"

def mapName : String := "xdp_stats_map"

/-- `snprintf` of two plain strings does not fail, and the path of an interface is short. -/
def pinMapsInBpfObject (r : PinReplies) (maps : List BpfMap) (subdir : String) (h : Host) :
    Int × Host :=
  let pinDir := pinPath pinBasedir subdir
  let mapFilename := pinPath pinDir mapName
  let unpinned :=
    if r.access mapFilename = 0 ∧ (h.pins mapFilename).isSome then
      bpfObjectUnpinMaps r pinDir maps h
    else (0, h)
  if unpinned.1 ≠ 0 then (exitFailBpf, unpinned.2)
  else
    let pinned := bpfObjectPinMaps r pinDir maps unpinned.2
    if pinned.1 ≠ 0 then (exitFailBpf, pinned.2) else (0, pinned.2)

/-! ## The links stay as they are -/

variable {r : PinReplies} {dir path subdir : String} {maps made : List BpfMap} {h : Host}

@[simp] theorem bpfMapUnpin_link (errno : ℕ) (path : String) (h : Host) :
    (bpfMapUnpin errno path h).2.link = h.link := by
  unfold bpfMapUnpin
  split_ifs <;> rfl

@[simp] theorem bpfMapPin_link (errno id : ℕ) (path : String) (h : Host) :
    (bpfMapPin errno path id h).2.link = h.link := by
  unfold bpfMapPin
  split_ifs <;> rfl

theorem bpfObjectUnpinMaps_link (r : PinReplies) (dir : String) (maps : List BpfMap) (h : Host) :
    (bpfObjectUnpinMaps r dir maps h).2.link = h.link := by
  induction maps generalizing h with
  | nil => rfl
  | cons map maps ih =>
      unfold bpfObjectUnpinMaps
      dsimp only
      split_ifs
      · rfl
      · exact bpfMapUnpin_link _ _ h
      · rw [ih, bpfMapUnpin_link]

theorem undoPins_link (r : PinReplies) (dir : String) (made : List BpfMap) (h : Host) :
    (undoPins r dir made h).link = h.link := by
  induction made generalizing h with
  | nil => rfl
  | cons map made ih => exact (ih _).trans (bpfMapUnpin_link _ _ h)

theorem pinMapsFrom_link (r : PinReplies) (dir : String) (made maps : List BpfMap) (h : Host) :
    (pinMapsFrom r dir made maps h).2.link = h.link := by
  induction maps generalizing made h with
  | nil => rfl
  | cons map maps ih =>
      unfold pinMapsFrom
      dsimp only
      split_ifs
      · exact undoPins_link r dir made h
      · rw [undoPins_link, bpfMapPin_link]
      · rw [ih, bpfMapPin_link]

theorem pinMapsInBpfObject_link (r : PinReplies) (maps : List BpfMap) (subdir : String)
    (h : Host) : (pinMapsInBpfObject r maps subdir h).2.link = h.link := by
  unfold pinMapsInBpfObject
  dsimp only
  split_ifs <;> simp only [bpfObjectPinMaps, pinMapsFrom_link, bpfObjectUnpinMaps_link]

theorem pinMapsInBpfObject_status (r : PinReplies) (maps : List BpfMap) (subdir : String)
    (h : Host) : (pinMapsInBpfObject r maps subdir h).1 = 0 ∨
      (pinMapsInBpfObject r maps subdir h).1 = exitFailBpf := by
  unfold pinMapsInBpfObject
  dsimp only
  split_ifs <;> simp

end AntiDos
