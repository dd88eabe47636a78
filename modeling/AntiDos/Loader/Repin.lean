import AntiDos.Loader.Pins
import Mathlib.Data.List.Nodup

/-!
# Pinning over leftover pins

Whether the pins of an earlier load are removed is decided by the pin of one map. The removal stops
at the first map that has no pin, and the pinning stops at the first that still has one, so a load
recovers from all leftover pins or from none.
-/

namespace AntiDos

variable {dir subdir name : String} {map : BpfMap} {maps made : List BpfMap} {h : Host}

/-! ## Calls that meet no other error -/

def PinReplies.granted : PinReplies := ⟨fun _ ↦ 0, fun _ ↦ 0, fun _ ↦ 0, fun _ ↦ 0⟩

def pinPaths (dir : String) (maps : List BpfMap) : List String :=
  maps.map fun map ↦ pinPath dir map.name

theorem pinPaths_cons (dir : String) (map : BpfMap) (maps : List BpfMap) :
    pinPaths dir (map :: maps) = pinPath dir map.name :: pinPaths dir maps := rfl

theorem pinPath_inj {dir a b : String} : pinPath dir a = pinPath dir b ↔ a = b := by
  unfold pinPath
  exact String.append_right_inj _

theorem bpfMapUnpin_pinned {path : String} (hpin : h.pins path ≠ none) :
    bpfMapUnpin 0 path h = (0, h.setPin path none) := by
  unfold bpfMapUnpin
  rw [if_neg (not_not_intro rfl), if_neg hpin]

theorem bpfMapUnpin_free {path : String} (hpin : h.pins path = none) :
    bpfMapUnpin 0 path h = (-enoent, h) := by
  unfold bpfMapUnpin
  rw [if_neg (not_not_intro rfl), if_pos hpin]

theorem bpfMapPin_free {path : String} {id : ℕ} (hpin : h.pins path = none) :
    bpfMapPin 0 path id h = (0, h.setPin path (some id)) := by
  unfold bpfMapPin
  rw [if_neg (not_not_intro rfl), if_pos hpin]

theorem bpfMapPin_pinned {path : String} {id : ℕ} (hpin : h.pins path ≠ none) :
    bpfMapPin 0 path id h = (-eexist, h) := by
  unfold bpfMapPin
  rw [if_neg (not_not_intro rfl), if_neg hpin]

@[simp] theorem Host.setPin_pins_self {path : String} {id : Option ℕ} :
    (h.setPin path id).pins path = id := Function.update_self _ _ _

theorem Host.setPin_pins_of_ne {path other : String} {id : Option ℕ} (hne : other ≠ path) :
    (h.setPin path id).pins other = h.pins other := Function.update_of_ne hne _ _

/-- A pin that is made where there was none, and removed. -/
theorem Host.setPin_undo {path : String} {id : ℕ} (hpin : h.pins path = none) :
    (h.setPin path (some id)).setPin path none = h := by
  simp only [Host.setPin, Function.update_idem, ← hpin, Function.update_eq_self]

/-! ## The two walks over the maps -/

def Short (path : String) : Prop := path.utf8ByteSize < pathMax

instance (path : String) : Decidable (Short path) := Nat.decLt _ _

theorem unpinMaps_cons_pinned (hshort : Short (pinPath dir map.name))
    (hpin : h.pins (pinPath dir map.name) ≠ none) :
    bpfObjectUnpinMaps .granted dir (map :: maps) h =
      bpfObjectUnpinMaps .granted dir maps (h.setPin (pinPath dir map.name) none) := by
  rw [bpfObjectUnpinMaps]
  dsimp only [PinReplies.granted]
  rw [if_neg (Nat.not_le.mpr hshort), bpfMapUnpin_pinned hpin, if_neg (not_not_intro rfl)]

/-- The removal stops at a map without a pin, and leaves the error. -/
theorem unpinMaps_cons_stuck (maps : List BpfMap)
    (hstuck : ¬(Short (pinPath dir map.name) ∧ h.pins (pinPath dir map.name) ≠ none)) :
    ∃ err, err ≠ 0 ∧ bpfObjectUnpinMaps .granted dir (map :: maps) h = (err, h) := by
  rw [bpfObjectUnpinMaps]
  dsimp only [PinReplies.granted]
  by_cases hshort : Short (pinPath dir map.name)
  · have hfree : h.pins (pinPath dir map.name) = none :=
      not_not.mp fun hpin ↦ hstuck ⟨hshort, hpin⟩
    rw [if_neg (Nat.not_le.mpr hshort), bpfMapUnpin_free hfree]
    exact ⟨-enoent, by decide, rfl⟩
  · rw [if_pos (Nat.not_lt.mp hshort)]
    exact ⟨-enametoolong, by decide, rfl⟩

theorem forall_mem_pinPaths_setPin {id : Option ℕ} {P : String → Option ℕ → Prop}
    (hnodup : (pinPaths dir (map :: maps)).Nodup) :
    (∀ path ∈ pinPaths dir maps, P path ((h.setPin (pinPath dir map.name) id).pins path)) ↔
      ∀ path ∈ pinPaths dir maps, P path (h.pins path) := by
  have hhead : pinPath dir map.name ∉ pinPaths dir maps := (List.nodup_cons.mp hnodup).1
  refine forall_congr' fun path ↦ forall_congr' fun hpath ↦ ?_
  rw [Host.setPin_pins_of_ne (ne_of_mem_of_not_mem hpath hhead)]

theorem unpinMaps_eq_zero_iff (hnodup : (pinPaths dir maps).Nodup) :
    (bpfObjectUnpinMaps .granted dir maps h).1 = 0 ↔
      ∀ path ∈ pinPaths dir maps, Short path ∧ h.pins path ≠ none := by
  induction maps generalizing h with
  | nil => simp [bpfObjectUnpinMaps, pinPaths]
  | cons map maps ih =>
      have hrest : (pinPaths dir maps).Nodup := (List.nodup_cons.mp hnodup).2
      rw [pinPaths_cons, List.forall_mem_cons]
      by_cases hhead : Short (pinPath dir map.name) ∧ h.pins (pinPath dir map.name) ≠ none
      · rw [unpinMaps_cons_pinned hhead.1 hhead.2, ih hrest, and_iff_right hhead]
        exact forall_mem_pinPaths_setPin (P := fun path id ↦ Short path ∧ id ≠ none) hnodup
      · obtain ⟨err, herr, hstuck⟩ := unpinMaps_cons_stuck maps hhead
        rw [hstuck]
        exact iff_of_false herr fun hall ↦ hhead hall.1

theorem unpinMaps_cons_of_zero
    (hzero : (bpfObjectUnpinMaps .granted dir (map :: maps) h).1 = 0) :
    bpfObjectUnpinMaps .granted dir (map :: maps) h =
      bpfObjectUnpinMaps .granted dir maps (h.setPin (pinPath dir map.name) none) := by
  by_cases hhead : Short (pinPath dir map.name) ∧ h.pins (pinPath dir map.name) ≠ none
  · exact unpinMaps_cons_pinned hhead.1 hhead.2
  · obtain ⟨err, herr, hstuck⟩ := unpinMaps_cons_stuck maps hhead
    rw [hstuck] at hzero
    exact absurd hzero herr

theorem unpinMaps_pins (hzero : (bpfObjectUnpinMaps .granted dir maps h).1 = 0) (path : String) :
    (bpfObjectUnpinMaps .granted dir maps h).2.pins path =
      if path ∈ pinPaths dir maps then none else h.pins path := by
  induction maps generalizing h with
  | nil => rfl
  | cons map maps ih =>
      have hnext := unpinMaps_cons_of_zero hzero
      rw [hnext] at hzero ⊢
      rw [ih hzero, pinPaths_cons]
      by_cases heq : path = pinPath dir map.name
      · simp [heq]
      · simp [heq, Host.setPin_pins_of_ne heq]

theorem pinMapsFrom_cons_free (hshort : Short (pinPath dir map.name))
    (hpin : h.pins (pinPath dir map.name) = none) :
    pinMapsFrom .granted dir made (map :: maps) h =
      pinMapsFrom .granted dir (map :: made) maps
        (h.setPin (pinPath dir map.name) (some map.id)) := by
  rw [pinMapsFrom]
  dsimp only [PinReplies.granted]
  rw [if_neg (Nat.not_le.mpr hshort), bpfMapPin_free hpin, if_neg (not_not_intro rfl)]

/-- The pinning stops at a map that has a pin, and goes back over the pins it has made. -/
theorem pinMapsFrom_cons_stuck (made maps : List BpfMap)
    (hstuck : ¬(Short (pinPath dir map.name) ∧ h.pins (pinPath dir map.name) = none)) :
    ∃ err, err ≠ 0 ∧ pinMapsFrom .granted dir made (map :: maps) h =
      (err, undoPins .granted dir made h) := by
  rw [pinMapsFrom]
  dsimp only [PinReplies.granted]
  by_cases hshort : Short (pinPath dir map.name)
  · have hpin : h.pins (pinPath dir map.name) ≠ none := fun hfree ↦ hstuck ⟨hshort, hfree⟩
    rw [if_neg (Nat.not_le.mpr hshort), bpfMapPin_pinned hpin]
    exact ⟨-eexist, by decide, rfl⟩
  · rw [if_pos (Nat.not_lt.mp hshort)]
    exact ⟨-enametoolong, by decide, rfl⟩

theorem pinMapsFrom_eq_zero_iff (hnodup : (pinPaths dir maps).Nodup) :
    (pinMapsFrom .granted dir made maps h).1 = 0 ↔
      ∀ path ∈ pinPaths dir maps, Short path ∧ h.pins path = none := by
  induction maps generalizing made h with
  | nil => simp [pinMapsFrom, pinPaths]
  | cons map maps ih =>
      have hrest : (pinPaths dir maps).Nodup := (List.nodup_cons.mp hnodup).2
      rw [pinPaths_cons, List.forall_mem_cons]
      by_cases hhead : Short (pinPath dir map.name) ∧ h.pins (pinPath dir map.name) = none
      · rw [pinMapsFrom_cons_free hhead.1 hhead.2, ih hrest, and_iff_right hhead]
        exact forall_mem_pinPaths_setPin (P := fun path id ↦ Short path ∧ id = none) hnodup
      · obtain ⟨err, herr, hstuck⟩ := pinMapsFrom_cons_stuck made maps hhead
        rw [hstuck]
        exact iff_of_false herr fun hall ↦ hhead hall.1

theorem pinMapsFrom_cons_of_zero
    (hzero : (pinMapsFrom .granted dir made (map :: maps) h).1 = 0) :
    pinMapsFrom .granted dir made (map :: maps) h =
      pinMapsFrom .granted dir (map :: made) maps
        (h.setPin (pinPath dir map.name) (some map.id)) := by
  by_cases hhead : Short (pinPath dir map.name) ∧ h.pins (pinPath dir map.name) = none
  · exact pinMapsFrom_cons_free hhead.1 hhead.2
  · obtain ⟨err, herr, hstuck⟩ := pinMapsFrom_cons_stuck made maps hhead
    rw [hstuck] at hzero
    exact absurd hzero herr

theorem pinMapsFrom_pins_other (hzero : (pinMapsFrom .granted dir made maps h).1 = 0)
    {path : String} (hpath : path ∉ pinPaths dir maps) :
    (pinMapsFrom .granted dir made maps h).2.pins path = h.pins path := by
  induction maps generalizing made h with
  | nil => rfl
  | cons map maps ih =>
      obtain ⟨hne, hrest⟩ := not_or.mp (mt List.mem_cons.mpr hpath)
      have hnext := pinMapsFrom_cons_of_zero hzero
      rw [hnext] at hzero ⊢
      rw [ih hzero hrest, Host.setPin_pins_of_ne hne]

theorem pinMapsFrom_pins (hnodup : (pinPaths dir maps).Nodup)
    (hzero : (pinMapsFrom .granted dir made maps h).1 = 0) :
    ∀ map ∈ maps, (pinMapsFrom .granted dir made maps h).2.pins (pinPath dir map.name) =
      some map.id := by
  induction maps generalizing made h with
  | nil => exact fun map hmap ↦ absurd hmap List.not_mem_nil
  | cons map maps ih =>
      obtain ⟨hnew, hrest⟩ := List.nodup_cons.mp hnodup
      have hnext := pinMapsFrom_cons_of_zero hzero
      rw [hnext] at hzero ⊢
      intro m hm
      rcases List.mem_cons.mp hm with rfl | hm
      · rw [pinMapsFrom_pins_other hzero hnew, Host.setPin_pins_self]
      · exact ih hrest hzero m hm

/-- A pinning that fails removes the pins it has made. -/
theorem pinMapsFrom_failed (hfail : (pinMapsFrom .granted dir made maps h).1 ≠ 0) :
    (pinMapsFrom .granted dir made maps h).2 = undoPins .granted dir made h := by
  induction maps generalizing made h with
  | nil => exact absurd rfl hfail
  | cons map maps ih =>
      by_cases hhead : Short (pinPath dir map.name) ∧ h.pins (pinPath dir map.name) = none
      · rw [pinMapsFrom_cons_free hhead.1 hhead.2] at hfail ⊢
        have hpinned : (h.setPin (pinPath dir map.name) (some map.id)).pins
            (pinPath dir map.name) ≠ none := by simp
        have hundo : (bpfMapUnpin 0 (pinPath dir map.name)
            (h.setPin (pinPath dir map.name) (some map.id))).2 = h := by
          rw [bpfMapUnpin_pinned hpinned, Host.setPin_undo hhead.2]
        rw [ih hfail, undoPins, List.foldl_cons]
        dsimp only [PinReplies.granted]
        rw [hundo]
        rfl
      · obtain ⟨err, -, hstuck⟩ := pinMapsFrom_cons_stuck made maps hhead
        rw [hstuck]

/-! ## Which leftover pins a load recovers from -/

/-- The load succeeds, and the path of every map names the map of the new object. -/
def Repinned (maps : List BpfMap) (subdir : String) (h : Host) : Prop :=
  let res := pinMapsInBpfObject .granted maps subdir h
  res.1 = 0 ∧ ∀ map ∈ maps,
    res.2.pins (pinPath (pinPath pinBasedir subdir) map.name) = some map.id

theorem nodup_pinPaths (dir : String) (hnodup : (maps.map BpfMap.name).Nodup) :
    (pinPaths dir maps).Nodup := by
  have hmap : pinPaths dir maps = (maps.map BpfMap.name).map (pinPath dir) := by
    simp [pinPaths, Function.comp_def]
  rw [hmap]
  exact hnodup.map fun _ _ ↦ pinPath_inj.mp

theorem mem_pinPaths (dir : String) (hname : name ∈ maps.map BpfMap.name) :
    pinPath dir name ∈ pinPaths dir maps := by
  obtain ⟨map, hmap, rfl⟩ := List.mem_map.mp hname
  exact List.mem_map_of_mem hmap

/-- The last part of a load, once no pin is in the way or all are removed. -/
def pinAll (maps : List BpfMap) (dir : String) (h : Host) : Int × Host :=
  let pinned := bpfObjectPinMaps .granted dir maps h
  if pinned.1 ≠ 0 then (exitFailBpf, pinned.2) else (0, pinned.2)

theorem pinMapsInBpfObject_pinned
    (hstats : h.pins (pinPath (pinPath pinBasedir subdir) mapName) ≠ none) :
    pinMapsInBpfObject .granted maps subdir h =
      let unpinned := bpfObjectUnpinMaps .granted (pinPath pinBasedir subdir) maps h
      if unpinned.1 ≠ 0 then (exitFailBpf, unpinned.2)
      else pinAll maps (pinPath pinBasedir subdir) unpinned.2 := by
  have hgate : PinReplies.granted.access (pinPath (pinPath pinBasedir subdir) mapName) = 0 ∧
      (h.pins (pinPath (pinPath pinBasedir subdir) mapName)).isSome :=
    ⟨rfl, Option.isSome_iff_ne_none.mpr hstats⟩
  unfold pinMapsInBpfObject
  dsimp only
  rw [if_pos hgate]
  rfl

theorem pinMapsInBpfObject_free
    (hstats : h.pins (pinPath (pinPath pinBasedir subdir) mapName) = none) :
    pinMapsInBpfObject .granted maps subdir h = pinAll maps (pinPath pinBasedir subdir) h := by
  have hgate : ¬(PinReplies.granted.access (pinPath (pinPath pinBasedir subdir) mapName) = 0 ∧
      (h.pins (pinPath (pinPath pinBasedir subdir) mapName)).isSome) := by
    simp [hstats]
  unfold pinMapsInBpfObject
  dsimp only
  rw [if_neg hgate]
  rfl

theorem pinAll_repins_iff (hnodup : (pinPaths dir maps).Nodup) :
    ((pinAll maps dir h).1 = 0 ∧
        ∀ map ∈ maps, (pinAll maps dir h).2.pins (pinPath dir map.name) = some map.id) ↔
      ∀ path ∈ pinPaths dir maps, Short path ∧ h.pins path = none := by
  have hfrom : (pinMapsFrom .granted dir [] maps h).1 = 0 ↔ _ := pinMapsFrom_eq_zero_iff hnodup
  rw [← hfrom]
  have hexit : exitFailBpf ≠ 0 := by decide
  unfold pinAll bpfObjectPinMaps
  dsimp only
  split
  · rename_i hfail
    exact iff_of_false (fun hres ↦ hexit hres.1) hfail
  · rename_i hzero
    have hzero' := not_not.mp hzero
    exact iff_of_true ⟨rfl, pinMapsFrom_pins hnodup hzero'⟩ hzero'

/-- A load recovers exactly when all maps are pinned already, or none. -/
theorem repinned_iff (maps : List BpfMap) (subdir : String) (h : Host)
    (hnodup : (maps.map BpfMap.name).Nodup) (hstats : mapName ∈ maps.map BpfMap.name) :
    Repinned maps subdir h ↔
      (∀ path ∈ pinPaths (pinPath pinBasedir subdir) maps, Short path) ∧
        ((∀ path ∈ pinPaths (pinPath pinBasedir subdir) maps, h.pins path = none) ∨
          ∀ path ∈ pinPaths (pinPath pinBasedir subdir) maps, h.pins path ≠ none) := by
  have hpaths := nodup_pinPaths (pinPath pinBasedir subdir) hnodup
  have hmem := mem_pinPaths (pinPath pinBasedir subdir) hstats
  have hexit : exitFailBpf ≠ 0 := by decide
  unfold Repinned
  dsimp only
  by_cases hpin : h.pins (pinPath (pinPath pinBasedir subdir) mapName) = none
  · have hnotall : ¬ ∀ path ∈ pinPaths (pinPath pinBasedir subdir) maps, h.pins path ≠ none :=
      fun hall ↦ hall _ hmem hpin
    rw [pinMapsInBpfObject_free hpin, pinAll_repins_iff hpaths, or_iff_left hnotall]
    exact forall₂_and
  · have hnotnone : ¬ ∀ path ∈ pinPaths (pinPath pinBasedir subdir) maps, h.pins path = none :=
      fun hall ↦ hpin (hall _ hmem)
    rw [pinMapsInBpfObject_pinned hpin, or_iff_right hnotnone, ← forall₂_and,
      ← unpinMaps_eq_zero_iff hpaths]
    dsimp only
    split
    · rename_i hfail
      exact iff_of_false (fun hres ↦ hexit hres.1) hfail
    · rename_i hzero
      have hzero' := not_not.mp hzero
      refine iff_of_true ((pinAll_repins_iff hpaths).mpr fun path hpath ↦ ⟨?_, ?_⟩) hzero'
      · exact ((unpinMaps_eq_zero_iff hpaths).mp hzero' path hpath).1
      · rw [unpinMaps_pins hzero', if_pos hpath]

theorem repinned_over_all_pins :
    Repinned [⟨"xdp_stats_map", 11⟩, ⟨"black_list", 12⟩] "eth0"
      ⟨fun _ ↦ none, fun _ ↦ some 5, fun _ ↦ 0⟩ :=
  (repinned_iff [⟨"xdp_stats_map", 11⟩, ⟨"black_list", 12⟩] "eth0"
    ⟨fun _ ↦ none, fun _ ↦ some 5, fun _ ↦ 0⟩ (by decide) (by decide)).mpr
      ⟨by decide, Or.inr fun _ _ ↦ Option.some_ne_none 5⟩

/-- Of the two maps only `black_list` is still pinned. -/
theorem black_list_left_not_repinned :
    ¬ Repinned [⟨"xdp_stats_map", 11⟩, ⟨"black_list", 12⟩] "eth0"
      ⟨fun _ ↦ none, fun path ↦ if path = "/sys/fs/bpf/eth0/black_list" then some 5 else none,
        fun _ ↦ 0⟩ := by
  intro h
  exact absurd h.1 (by decide)

/-! ## Loads that fail for ever -/

/-- A map is pinned, but not the one that is looked at; or that one is, and the first map is not. -/
def Stuck (maps : List BpfMap) (dir : String) (h : Host) : Prop :=
  if h.pins (pinPath dir mapName) = none then ∃ path ∈ pinPaths dir maps, h.pins path ≠ none
  else ∃ path ∈ (pinPaths dir maps).head?, h.pins path = none

/-- A load from such pins fails and leaves the pins as they are, and so does every later one. -/
theorem Stuck.load_fails (hstuck : Stuck maps (pinPath pinBasedir subdir) h)
    (hnodup : (maps.map BpfMap.name).Nodup) :
    pinMapsInBpfObject .granted maps subdir h = (exitFailBpf, h) := by
  have hpaths := nodup_pinPaths (pinPath pinBasedir subdir) hnodup
  unfold Stuck at hstuck
  split at hstuck
  · rename_i hpin
    obtain ⟨path, hpath, hleft⟩ := hstuck
    have hfail : (bpfObjectPinMaps .granted (pinPath pinBasedir subdir) maps h).1 ≠ 0 :=
      fun hzero ↦ hleft (((pinMapsFrom_eq_zero_iff hpaths).mp hzero path hpath).2)
    rw [pinMapsInBpfObject_free hpin, pinAll, if_pos hfail, bpfObjectPinMaps,
      pinMapsFrom_failed hfail]
    rfl
  · rename_i hpin
    obtain ⟨path, hpath, hfree⟩ := hstuck
    cases maps with
    | nil => simp [pinPaths] at hpath
    | cons map maps =>
        have hhead : h.pins (pinPath (pinPath pinBasedir subdir) map.name) = none := by
          obtain rfl : pinPath (pinPath pinBasedir subdir) map.name = path := by
            simpa [pinPaths] using hpath
          exact hfree
        obtain ⟨err, herr, hstop⟩ := unpinMaps_cons_stuck maps (fun hok ↦ hok.2 hhead)
        rw [pinMapsInBpfObject_pinned hpin, hstop]
        exact if_pos herr

end AntiDos
