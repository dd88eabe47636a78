import AntiDos.Loader.Repin
import AntiDos.Loader.XdpLoader

/-!
# The life of an interface

The tools find the maps of a filter by the name of its interface: `pin_maps_in_bpf_object` pins them
below that name. Whatever runs of the loader follow each other, on whatever interfaces, the pins of
an interface are the maps of the program attached to it, unless the run that attached this program
failed at the pins.
-/

namespace AntiDos

variable {r : PinReplies} {dir path subdir : String} {maps made : List BpfMap} {h h' : Host}

/-! ## What the calls on pins change -/

theorem bpfMapUnpin_pins (errno : ℕ) {other : String} (hne : other ≠ path) :
    (bpfMapUnpin errno path h).2.pins other = h.pins other := by
  unfold bpfMapUnpin
  split_ifs
  · rfl
  · rfl
  · exact Host.setPin_pins_of_ne hne

theorem bpfMapPin_pins (errno id : ℕ) {other : String} (hne : other ≠ path) :
    (bpfMapPin errno path id h).2.pins other = h.pins other := by
  unfold bpfMapPin
  split_ifs
  · rfl
  · exact Host.setPin_pins_of_ne hne
  · rfl

theorem bpfMapPin_done {errno id : ℕ} (hdone : (bpfMapPin errno path id h).1 = 0) :
    h.pins path = none ∧ (bpfMapPin errno path id h).2 = h.setPin path (some id) := by
  unfold bpfMapPin at hdone ⊢
  split_ifs at hdone ⊢ with herrno hfree
  · exact absurd (by simpa using hdone) herrno
  · exact ⟨hfree, rfl⟩
  · have hne : -eexist ≠ 0 := by decide
    exact absurd hdone hne

theorem bpfObjectUnpinMaps_pins (hpath : path ∉ pinPaths dir maps) :
    (bpfObjectUnpinMaps r dir maps h).2.pins path = h.pins path := by
  induction maps generalizing h with
  | nil => rfl
  | cons map maps ih =>
      obtain ⟨hne, hrest⟩ := not_or.mp (mt List.mem_cons.mpr hpath)
      unfold bpfObjectUnpinMaps
      dsimp only
      split_ifs
      · rfl
      · exact bpfMapUnpin_pins _ hne
      · exact (ih hrest).trans (bpfMapUnpin_pins _ hne)

theorem undoPins_pins (hpath : path ∉ pinPaths dir made) :
    (undoPins r dir made h).pins path = h.pins path := by
  induction made generalizing h with
  | nil => rfl
  | cons map made ih =>
      obtain ⟨hne, hrest⟩ := not_or.mp (mt List.mem_cons.mpr hpath)
      exact (ih hrest).trans (bpfMapUnpin_pins _ hne)

theorem pinMapsFrom_pins_outside (hmade : path ∉ pinPaths dir made)
    (hpath : path ∉ pinPaths dir maps) :
    (pinMapsFrom r dir made maps h).2.pins path = h.pins path := by
  induction maps generalizing made h with
  | nil => rfl
  | cons map maps ih =>
      obtain ⟨hne, hrest⟩ := not_or.mp (mt List.mem_cons.mpr hpath)
      unfold pinMapsFrom
      dsimp only
      split_ifs
      · exact undoPins_pins hmade
      · exact (undoPins_pins hmade).trans (bpfMapPin_pins _ _ hne)
      · have hmade' : path ∉ pinPaths dir (map :: made) :=
          List.not_mem_cons_of_ne_of_not_mem hne hmade
        exact (ih hmade' hrest).trans (bpfMapPin_pins _ _ hne)

/-- A pinning that goes through keeps the pins there are, so no map takes the path of another. -/
theorem pinMapsFrom_done (hdone : (pinMapsFrom r dir made maps h).1 = 0) :
    (∀ path id, h.pins path = some id → (pinMapsFrom r dir made maps h).2.pins path = some id) ∧
      ∀ map ∈ maps, (pinMapsFrom r dir made maps h).2.pins (pinPath dir map.name) =
        some map.id := by
  induction maps generalizing made h with
  | nil => exact ⟨fun _ _ hpin ↦ hpin, fun map hmap ↦ absurd hmap List.not_mem_nil⟩
  | cons map maps ih =>
      unfold pinMapsFrom at hdone ⊢
      dsimp only at hdone ⊢
      split_ifs at hdone ⊢ with hlong hpinned
      · have hne : -enametoolong ≠ 0 := by decide
        exact absurd hdone hne
      · exact absurd hdone hpinned
      · obtain ⟨hfree, hnext⟩ := bpfMapPin_done (not_not.mp hpinned)
        obtain ⟨hkept, hmaps⟩ := ih hdone
        rw [hnext] at hkept hmaps ⊢
        refine ⟨fun path id hpin ↦ hkept path id ?_, List.forall_mem_cons.mpr ⟨?_, hmaps⟩⟩
        · have hne : path ≠ pinPath dir map.name := by
            rintro rfl
            rw [hfree] at hpin
            cases hpin
          rw [Host.setPin_pins_of_ne hne, hpin]
        · exact hkept _ _ Host.setPin_pins_self

theorem pinMapsInBpfObject_pins (hpath : path ∉ pinPaths (pinPath pinBasedir subdir) maps) :
    (pinMapsInBpfObject r maps subdir h).2.pins path = h.pins path := by
  have hmade : path ∉ pinPaths (pinPath pinBasedir subdir) [] := List.not_mem_nil
  unfold pinMapsInBpfObject bpfObjectPinMaps
  dsimp only
  split_ifs
  · exact bpfObjectUnpinMaps_pins hpath
  · exact (pinMapsFrom_pins_outside hmade hpath).trans (bpfObjectUnpinMaps_pins hpath)
  · exact (pinMapsFrom_pins_outside hmade hpath).trans (bpfObjectUnpinMaps_pins hpath)
  · rfl
  · exact pinMapsFrom_pins_outside hmade hpath
  · exact pinMapsFrom_pins_outside hmade hpath

theorem pinMapsInBpfObject_done (hdone : (pinMapsInBpfObject r maps subdir h).1 = 0) :
    ∀ map ∈ maps, (pinMapsInBpfObject r maps subdir h).2.pins
      (pinPath (pinPath pinBasedir subdir) map.name) = some map.id := by
  have hexit : exitFailBpf ≠ 0 := by decide
  unfold pinMapsInBpfObject bpfObjectPinMaps at hdone ⊢
  dsimp only at hdone ⊢
  split_ifs at hdone ⊢ with _ _ hpinned _ hmade
  · exact absurd hdone hexit
  · exact absurd hdone hexit
  · exact (pinMapsFrom_done (not_not.mp hpinned)).2
  · exact absurd hdone hexit
  · exact absurd hdone hexit
  · exact (pinMapsFrom_done (not_not.mp hmade)).2

/-! ## The directories of two interfaces -/

theorem pinPath_toList (dir name : String) :
    (pinPath dir name).toList = dir.toList ++ '/' :: name.toList := by
  simp [pinPath]

theorem takeWhile_slash {cs ds : List Char} (hcs : '/' ∉ cs) :
    (cs ++ '/' :: ds).takeWhile (· ≠ '/') = cs := by
  refine (List.takeWhile_append_of_pos fun c hc ↦ ?_).trans ?_
  · exact decide_eq_true (ne_of_mem_of_not_mem hc hcs)
  · simp

/-- Two names without a slash have no path in common. -/
theorem pinPath_disjoint {name other a b : String} (hname : '/' ∉ name.toList)
    (hother : '/' ∉ other.toList)
    (heq : pinPath (pinPath pinBasedir name) a = pinPath (pinPath pinBasedir other) b) :
    name = other := by
  have hlist := congrArg String.toList heq
  simp only [pinPath_toList, List.append_assoc, List.cons_append, List.append_cancel_left_eq,
    List.cons.injEq, true_and] at hlist
  apply String.toList_inj.mp
  rw [← takeWhile_slash hname, hlist, takeWhile_slash hother]

theorem notMem_pinPaths {name other a : String} (hname : '/' ∉ name.toList)
    (hother : '/' ∉ other.toList) (hne : name ≠ other) :
    pinPath (pinPath pinBasedir name) a ∉ pinPaths (pinPath pinBasedir other) maps := by
  intro hmem
  obtain ⟨map, -, heq⟩ := List.mem_map.mp hmem
  exact hne (pinPath_disjoint hname hother heq.symm)

/-! ## Runs of the loader -/

/-- The interface of each name, `0` for an unknown one, and the maps that each program uses. -/
structure Platform where
  ifNametoindex : String → ℕ
  maps : ℕ → List BpfMap
  noSlash : ∀ name, ifNametoindex name ≠ 0 → '/' ∉ name.toList
  oneName : ∀ a b, ifNametoindex a ≠ 0 → ifNametoindex a = ifNametoindex b → a = b

/-- A run of the loader: the answers it gets, its options, and the program behind each of its
descriptors. -/
structure LoaderRun where
  replies : Replies
  opts : List LoaderOption
  prog : Int → ℕ

def LoaderRun.exec (run : LoaderRun) (h : Host) : Int × Host :=
  xdpLoader run.replies run.opts { h with prog := run.prog }

/-- The run asks this platform, and the program it loads uses the maps of its object. -/
structure LoaderRun.On (run : LoaderRun) (p : Platform) : Prop where
  names : run.replies.ifNametoindex = p.ifNametoindex
  loaded : ∀ cfg obj prog,
    parseCmdlineArgs run.replies.ifNametoindex run.opts Config.default = .ok cfg →
      selectProgram run.replies.load cfg = .ok (obj, prog) →
        p.maps (run.prog prog.fd) = obj.maps

def hostAfter (runs : List LoaderRun) (h : Host) : Host :=
  runs.foldl (fun h run ↦ (run.exec h).2) h

/-- The pins below the name are the maps of the program that is attached to the interface. -/
def PinsFollow (p : Platform) (h : Host) (name : String) : Prop :=
  ∀ a, h.link (p.ifNametoindex name) = some a → ∀ map ∈ p.maps a.prog,
    h.pins (pinPath (pinPath pinBasedir name) map.name) = some map.id

/-- The run attaches its program to the interface and fails at the pins. -/
def LeftUnpinned (run : LoaderRun) (h : Host) (name : String) : Prop :=
  ∃ cfg obj prog mode,
    parseCmdlineArgs run.replies.ifNametoindex run.opts Config.default = .ok cfg ∧
      cfg.ifname = name ∧ selectProgram run.replies.load cfg = .ok (obj, prog) ∧
        (run.exec h).1 = exitFailBpf ∧
          (run.exec h).2.link cfg.ifindex = some ⟨run.prog prog.fd, mode⟩

/-! ## What a run can do -/

section Runs

variable {p : Platform} {run : LoaderRun} {cfg : Config} {opts : List LoaderOption}

/-- The interface of the options is the one of their name. -/
structure Config.Named (cfg : Config) (ifNametoindex : String → ℕ) : Prop where
  index : cfg.ifindex = ifNametoindex cfg.ifname
  known : ifNametoindex cfg.ifname ≠ 0

theorem parseOption_named {ifNametoindex : String → ℕ} {cfg cfg' : Config} {opt : LoaderOption}
    (hcfg : cfg.ifindex = -1 ∨ cfg.Named ifNametoindex)
    (hok : parseOption ifNametoindex cfg opt = .ok cfg') :
    cfg'.ifindex = -1 ∨ cfg'.Named ifNametoindex := by
  have hsame : cfg'.ifindex = cfg.ifindex → cfg'.ifname = cfg.ifname →
      cfg'.ifindex = -1 ∨ cfg'.Named ifNametoindex := by
    intro hindex hname
    refine hcfg.imp (fun hnone ↦ hindex.trans hnone) fun hnamed ↦ ⟨?_, ?_⟩
    · rw [hindex, hname]
      exact hnamed.index
    · rw [hname]
      exact hnamed.known
  cases opt with
  | dev name =>
      simp only [parseOption] at hok
      split_ifs at hok with _ hknown
      rw [← Except.ok.inj hok]
      exact Or.inr ⟨rfl, hknown⟩
  | redirectDev name =>
      simp only [parseOption] at hok
      split_ifs at hok
      exact hsame ((Except.ok.inj hok) ▸ rfl) ((Except.ok.inj hok) ▸ rfl)
  | usage => cases hok
  | _ => exact hsame ((Except.ok.inj hok) ▸ rfl) ((Except.ok.inj hok) ▸ rfl)

theorem parseCmdlineArgs_named {ifNametoindex : String → ℕ}
    (hok : parseCmdlineArgs ifNametoindex opts Config.default = .ok cfg) (hdev : cfg.ifindex ≠ -1) :
    cfg.Named ifNametoindex :=
  (Faulting.foldlM_invariant (fun cfg ↦ cfg.ifindex = -1 ∨ cfg.Named ifNametoindex)
    (fun _ _ _ _ hcfg hstep ↦ parseOption_named hcfg hstep) (Or.inl rfl) hok).resolve_left hdev

theorem xdpLinkDetach_cases (r : DetachReplies) (ifindex : Int) (xdpFlags : UInt32) (h : Host) :
    (xdpLinkDetach r ifindex xdpFlags 0 h).2 = h ∨
      (xdpLinkDetach r ifindex xdpFlags 0 h).2 = h.setLink ifindex none := by
  have hstatus : ∀ res : Int × Host, (linkStatus res).2 = res.2 := by
    intro res
    unfold linkStatus
    split_ifs <;> rfl
  unfold xdpLinkDetach
  dsimp only
  split_ifs
  · exact Or.inl rfl
  · exact Or.inl rfl
  · exact Or.inl rfl
  · rw [hstatus]
    by_cases hr : r.unset.errno = 0
    · rw [bpfSetLinkXdpFd_removed hr]
      exact (h.detached_cases ifindex _).imp id And.right
    · rw [bpfSetLinkXdpFd_refused hr]
      exact Or.inl rfl

/-- What a run does to the links and the pins. -/
inductive RunOutcome (p : Platform) (run : LoaderRun) (h : Host) (res : Int × Host) : Prop
  | idle (hlink : res.2.link = h.link) (hpins : res.2.pins = h.pins)
  | emptied {ifindex : Int} (hlink : res.2.link = Function.update h.link ifindex none)
      (hpins : res.2.pins = h.pins)
  /-- The pins are all made, or the status tells that they are not. -/
  | attached {cfg : Config} {obj : BpfObject} {prog : BpfProgram} {mode : XdpMode}
      (hparse : parseCmdlineArgs run.replies.ifNametoindex run.opts Config.default = .ok cfg)
      (hnamed : cfg.Named p.ifNametoindex)
      (hselect : selectProgram run.replies.load cfg = .ok (obj, prog))
      (hlink : res.2.link = Function.update h.link cfg.ifindex (some ⟨run.prog prog.fd, mode⟩))
      (hframe : ∀ path ∉ pinPaths (pinPath pinBasedir cfg.ifname) obj.maps,
        res.2.pins path = h.pins path)
      (hdone : res.1 = exitFailBpf ∨ ∀ map ∈ obj.maps,
        res.2.pins (pinPath (pinPath pinBasedir cfg.ifname) map.name) = some map.id)

theorem loadAndPin_outcome (hon : run.On p)
    (hparse : parseCmdlineArgs run.replies.ifNametoindex run.opts Config.default = .ok cfg)
    (hdev : cfg.ifindex ≠ -1) (h : Host) :
    RunOutcome p run h (loadAndPin run.replies cfg { h with prog := run.prog }) := by
  cases hselect : selectProgram run.replies.load cfg with
  | error status =>
      rw [loadAndPin_of_error hselect]
      exact .idle rfl rfl
  | ok selected =>
      obtain ⟨obj, prog⟩ := selected
      have houtcome := xdpLinkAttach_outcome run.replies.attach cfg.ifindex cfg.xdpFlags
        { h with prog := run.prog } (selectProgram_fd hselect)
      generalize hattach : xdpLinkAttach run.replies.attach cfg.ifindex cfg.xdpFlags prog.fd
        { h with prog := run.prog } = attached at houtcome
      rw [loadAndPin_of_ok hselect hattach]
      cases houtcome with
      | unchanged => exact .idle rfl rfl
      | leftEmpty hempty => exact .emptied rfl rfl
      | attached mode =>
          rw [if_neg (not_not_intro rfl)]
          have hnamed : cfg.Named p.ifNametoindex := hon.names ▸ parseCmdlineArgs_named hparse hdev
          have hstatus := pinMapsInBpfObject_status run.replies.pins obj.maps cfg.ifname
            (Host.setLink { h with prog := run.prog } cfg.ifindex
              (some ⟨run.prog prog.fd, mode⟩))
          have hlink := pinMapsInBpfObject_link run.replies.pins obj.maps cfg.ifname
            (Host.setLink { h with prog := run.prog } cfg.ifindex
              (some ⟨run.prog prog.fd, mode⟩))
          refine .attached hparse hnamed hselect hlink ?_ ?_
          · exact fun path hpath ↦ pinMapsInBpfObject_pins hpath
          · exact hstatus.symm.imp id pinMapsInBpfObject_done

theorem LoaderRun.outcome (hon : run.On p) (h : Host) : RunOutcome p run h (run.exec h) := by
  unfold LoaderRun.exec xdpLoader
  cases hparse : parseCmdlineArgs run.replies.ifNametoindex run.opts Config.default with
  | error status => exact .idle rfl rfl
  | ok cfg =>
      dsimp only
      split_ifs with hdev hunload
      · exact .idle rfl rfl
      · rcases xdpLinkDetach_cases run.replies.detach cfg.ifindex cfg.xdpFlags
          { h with prog := run.prog } with hsame | hnone
        · exact .idle (by rw [hsame]) (by rw [hsame])
        · exact .emptied (by rw [hnone]; rfl) (by rw [hnone]; rfl)
      · exact loadAndPin_outcome hon hparse hdev h

/-! ## Over any runs -/

variable {h : Host} {name : String}

theorem PinsFollow.of_same {h' : Host} (hlink : h'.link (p.ifNametoindex name) =
      h.link (p.ifNametoindex name))
    (hpins : ∀ a, h'.pins (pinPath (pinPath pinBasedir name) a) =
      h.pins (pinPath (pinPath pinBasedir name) a)) (hfollow : PinsFollow p h name) :
    PinsFollow p h' name := by
  intro a ha map hmap
  rw [hpins]
  exact hfollow a (hlink ▸ ha) map hmap

theorem PinsFollow.of_empty (hlink : h.link (p.ifNametoindex name) = none) :
    PinsFollow p h name := by
  intro a ha
  rw [hlink] at ha
  cases ha

/-- One run: it leaves the interface and its pins alone, makes the pins follow, or fails to. -/
theorem LoaderRun.step (hon : run.On p) (hname : p.ifNametoindex name ≠ 0) (h : Host) :
    ((run.exec h).2.link (p.ifNametoindex name) = h.link (p.ifNametoindex name) ∧
        ∀ a, (run.exec h).2.pins (pinPath (pinPath pinBasedir name) a) =
          h.pins (pinPath (pinPath pinBasedir name) a)) ∨
      PinsFollow p (run.exec h).2 name ∨ LeftUnpinned run h name := by
  cases LoaderRun.outcome hon h with
  | idle hlink hpins => exact Or.inl ⟨by rw [hlink], fun a ↦ by rw [hpins]⟩
  | @emptied ifindex hlink hpins =>
      by_cases hindex : (p.ifNametoindex name : Int) = ifindex
      · refine Or.inr (Or.inl (PinsFollow.of_empty ?_))
        rw [hlink, hindex, Function.update_self]
      · exact Or.inl ⟨by rw [hlink, Function.update_of_ne hindex], fun a ↦ by rw [hpins]⟩
  | @attached cfg obj prog mode hparse hnamed hselect hlink hframe hdone =>
      by_cases hsame : cfg.ifname = name
      · subst hsame
        have hnew : (run.exec h).2.link cfg.ifindex = some ⟨run.prog prog.fd, mode⟩ := by
          rw [hlink, Function.update_self]
        rcases hdone with hfail | hpinned
        · exact Or.inr (Or.inr ⟨cfg, obj, prog, mode, hparse, rfl, hselect, hfail, hnew⟩)
        · refine Or.inr (Or.inl fun a ha map hmap ↦ hpinned map ?_)
          rw [← hnamed.index, hnew] at ha
          obtain rfl := Option.some.inj ha
          rwa [hon.loaded cfg obj prog hparse hselect] at hmap
      · refine Or.inl ⟨?_, fun a ↦ hframe _ ?_⟩
        · have hindex : (p.ifNametoindex name : Int) ≠ cfg.ifindex := by
            rw [hnamed.index]
            exact fun heq ↦ hsame (p.oneName _ _ hnamed.known (Int.ofNat_inj.mp heq).symm)
          rw [hlink, Function.update_of_ne hindex]
        · exact notMem_pinPaths (p.noSlash name hname) (p.noSlash _ hnamed.known)
            fun heq ↦ hsame heq.symm

theorem hostAfter_append (runs : List LoaderRun) (run : LoaderRun) (h : Host) :
    hostAfter (runs ++ [run]) h = (run.exec (hostAfter runs h)).2 := by
  unfold hostAfter
  rw [List.foldl_append]
  rfl

end Runs

/-! ## A load, an unload and a load -/

def Platform.eth0 : Platform where
  ifNametoindex name := if name = "eth0" then 2 else 0
  maps prog := [⟨mapName, prog + 1⟩, ⟨"black_list", prog + 2⟩]
  noSlash name hname := by
    split_ifs at hname with heq
    · subst heq
      decide
    · exact absurd rfl hname
  oneName a b hname heq := by
    split_ifs at hname heq with ha hb
    · rw [ha, hb]
    · exact absurd rfl hname

/-- A run that is granted everything but to reuse maps, and the pins when `pin` is an error. -/
def LoaderRun.onEth0 (prog pin : ℕ) (opts : List LoaderOption) : LoaderRun where
  replies :=
    { Replies.granting 0 0 0 pin with
      ifNametoindex := Platform.eth0.ifNametoindex
      load := { (Replies.granting 0 0 0 pin).load with
        openXattr := false
        file := fun _ ↦ ⟨Platform.eth0.maps prog, [⟨"xdp_parser", 4⟩]⟩ } }
  opts := opts
  prog _ := prog

theorem LoaderRun.onEth0_on (prog pin : ℕ) (opts : List LoaderOption) :
    (LoaderRun.onEth0 prog pin opts).On Platform.eth0 := by
  refine ⟨rfl, fun cfg obj entry _ hselect ↦ ?_⟩
  unfold selectProgram at hselect
  dsimp only at hselect
  cases hreuse : cfg.reuseMaps with
  | true =>
      rw [hreuse, if_pos rfl] at hselect
      cases hselect
  | false =>
      rw [hreuse, if_neg Bool.false_ne_true] at hselect
      split at hselect
      · cases hselect
      · rename_i loaded hloaded
        obtain rfl := Option.some.inj hloaded
        split at hselect
        · cases hselect
        · split_ifs at hselect
          obtain ⟨rfl, -⟩ := Prod.mk.inj (Except.ok.inj hselect)
          rfl

end AntiDos
