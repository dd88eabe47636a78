import AntiDos.Loader.Pins
import AntiDos.Lib.Fault

/-!
# The loader

`xdp_loader` reads its options, loads an object file, attaches one of its programs and pins its
maps. A step that fails ends the process and undoes none of the steps before it. So a failure leaves
the link as it was only when no change of the link has succeeded by then: a new program stays
attached when its maps cannot be pinned, and with `--force` the interface is left without a program
when the one in the way was removed and the new one is refused.
-/

namespace AntiDos

open Faulting

structure BpfProgram where
  title : String
  fd : Int
deriving DecidableEq

/-- An object file as libbpf loads it, with the descriptors of its programs. -/
structure BpfObject where
  maps : List BpfMap
  progs : List BpfProgram
deriving DecidableEq

structure Config where
  xdpFlags : UInt32
  ifindex : Int
  ifname : String
  doUnload : Bool
  reuseMaps : Bool
  pinDir : String
  filename : String
  progsec : String

def defaultFilename : String := "xdp_prog_kern.o"

def Config.default : Config where
  xdpFlags := xdpFlagsUpdateIfNoexist ||| xdpFlagsDrvMode
  ifindex := -1
  ifname := ""
  doUnload := false
  reuseMaps := false
  pinDir := ""
  filename := defaultFilename
  progsec := ""

/-! ## Options -/

/-- The options that `getopt_long` finds for the loader. `other` are those that set what only other
programs read, and `usage` is `--help` or anything unknown. -/
inductive LoaderOption
  | dev (name : String)
  | redirectDev (name : String)
  | autoMode
  | skbMode
  | nativeMode
  | force
  | reuseMaps
  | unload
  | filename (file : String)
  | progsec (title : String)
  | other
  | usage
deriving DecidableEq

abbrev ifNamesize : ℕ := 16

/-- What `strncpy` leaves in a field of `n` bytes that was zero before. -/
def strncpy (n : ℕ) (s : String) : String := String.ofList (s.toList.take n)

/-- One turn of the loop of `parse_cmdline_args`; `ifNametoindex` is `0` for an unknown name. -/
def parseOption (ifNametoindex : String → ℕ) (cfg : Config) : LoaderOption → Except Int Config
  | .dev name =>
      if ifNamesize ≤ name.utf8ByteSize then .error exitFailOption
      else if ifNametoindex name = 0 then .error exitFailOption
      else .ok { cfg with ifname := name, ifindex := ifNametoindex name }
  | .redirectDev name =>
      if ifNamesize ≤ name.utf8ByteSize then .error exitFailOption
      else if ifNametoindex name = 0 then .error exitFailOption
      else .ok cfg
  | .autoMode => .ok { cfg with xdpFlags := cfg.xdpFlags &&& ~~~xdpFlagsModes }
  | .skbMode =>
      .ok { cfg with xdpFlags := cfg.xdpFlags &&& ~~~xdpFlagsModes ||| xdpFlagsSkbMode }
  | .nativeMode =>
      .ok { cfg with xdpFlags := cfg.xdpFlags &&& ~~~xdpFlagsModes ||| xdpFlagsDrvMode }
  | .force => .ok { cfg with xdpFlags := cfg.xdpFlags &&& ~~~xdpFlagsUpdateIfNoexist }
  | .reuseMaps => .ok { cfg with reuseMaps := true }
  | .unload => .ok { cfg with doUnload := true }
  | .filename file => .ok { cfg with filename := strncpy 512 file }
  | .progsec title => .ok { cfg with progsec := strncpy 32 title }
  | .other => .ok cfg
  | .usage => .error exitFailOption

def parseCmdlineArgs (ifNametoindex : String → ℕ) (opts : List LoaderOption) (cfg : Config) :
    Except Int Config :=
  opts.foldlM (parseOption ifNametoindex) cfg

/-! ## Loading an object -/

/-- The answers to the calls that load an object: the object in each file, the results of the two
ways of loading it, and for a map that is to be reused the descriptor and the map behind a path. -/
structure LoadReplies where
  file : String → BpfObject
  progLoadXattr : Int → Int
  openXattr : Bool
  objGet : String → Int
  pinnedMap : String → BpfMap
  reuseFd : String → Int
  load : Int → Int

def loadBpfObjectFile (r : LoadReplies) (filename : String) (ifindex : Int) : Option BpfObject :=
  if r.progLoadXattr ifindex ≠ 0 then none else some (r.file filename)

def openBpfObject (r : LoadReplies) (file : String) : Option BpfObject :=
  if !r.openXattr then none
  else if (r.file file).progs = [] then none
  else some (r.file file)

def reuseMap (r : LoadReplies) (path : String) (map : BpfMap) : Except Int BpfMap :=
  let buf := pinPath path map.name
  if pathMax ≤ buf.utf8ByteSize then .error (-enametoolong)
  else if r.objGet buf < 0 then .error (r.objGet buf)
  else if r.reuseFd buf ≠ 0 then .error (r.reuseFd buf)
  else .ok (r.pinnedMap buf)

def reuseMaps (r : LoadReplies) (obj : BpfObject) (path : String) : Except Int BpfObject :=
  match obj.maps.mapM (reuseMap r path) with
  | .error err => .error err
  | .ok maps => .ok { obj with maps := maps }

def loadBpfObjectFileReuseMaps (r : LoadReplies) (file : String) (ifindex : Int)
    (pinDir : String) : Option BpfObject :=
  match openBpfObject r file with
  | none => none
  | some obj =>
      match reuseMaps r obj pinDir with
      | .error _ => none
      | .ok obj => if r.load ifindex ≠ 0 then none else some obj

/-! ## The main function -/

structure Replies where
  ifNametoindex : String → ℕ
  load : LoadReplies
  attach : AttachReplies
  detach : DetachReplies
  pins : PinReplies

def findProgram (obj : BpfObject) (progsec : String) : Option BpfProgram :=
  if progsec ≠ "" then obj.progs.find? (·.title = progsec) else obj.progs.head?

/-- The object and the program of it that `load_bpf_and_xdp_attach` is going to attach. -/
def selectProgram (r : LoadReplies) (cfg : Config) : Except Int (BpfObject × BpfProgram) :=
  let offloadIfindex := if cfg.xdpFlags &&& xdpFlagsHwMode ≠ 0 then cfg.ifindex else 0
  let loaded :=
    if cfg.reuseMaps then
      loadBpfObjectFileReuseMaps r cfg.filename offloadIfindex cfg.pinDir
    else loadBpfObjectFile r cfg.filename offloadIfindex
  match loaded with
  | none => .error exitFailBpf
  | some obj =>
      match findProgram obj cfg.progsec with
      | none => .error exitFailBpf
      | some prog => if prog.fd ≤ 0 then .error exitFailBpf else .ok (obj, prog)

/-- An error is the status with which the process exits. -/
def loadBpfAndXdpAttach (r : Replies) (cfg : Config) (h : Host) : Except Int BpfObject × Host :=
  match selectProgram r.load cfg with
  | .error status => (.error status, h)
  | .ok (obj, prog) =>
      let attached := xdpLinkAttach r.attach cfg.ifindex cfg.xdpFlags prog.fd h
      if attached.1 ≠ 0 then (.error attached.1, attached.2) else (.ok obj, attached.2)

/-- `main` after the options: the exit status and the state it leaves behind. -/
def loadAndPin (r : Replies) (cfg : Config) (h : Host) : Int × Host :=
  match loadBpfAndXdpAttach r cfg h with
  | (.error status, h) => (status, h)
  | (.ok obj, h) => pinMapsInBpfObject r.pins obj.maps cfg.ifname h

/-- `main`: the exit status and the state it leaves behind. -/
def xdpLoader (r : Replies) (opts : List LoaderOption) (h : Host) : Int × Host :=
  match parseCmdlineArgs r.ifNametoindex opts Config.default with
  | .error status => (status, h)
  | .ok cfg =>
      if cfg.ifindex = -1 then (exitFailOption, h)
      else if cfg.doUnload then xdpLinkDetach r.detach cfg.ifindex cfg.xdpFlags 0 h
      else loadAndPin r cfg h

/-! ## The link after a failure -/

variable {r : Replies} {opts : List LoaderOption} {cfg cfg' : Config} {h : Host} {obj : BpfObject}
  {prog : BpfProgram} {status : Int}

theorem parseOption_doUnload {ifNametoindex : String → ℕ} {opt : LoaderOption}
    (hopt : opt ≠ .unload) (hok : parseOption ifNametoindex cfg opt = .ok cfg') :
    cfg'.doUnload = cfg.doUnload := by
  cases opt with
  | dev name =>
      simp only [parseOption] at hok
      split_ifs at hok
      exact (Except.ok.inj hok) ▸ rfl
  | redirectDev name =>
      simp only [parseOption] at hok
      split_ifs at hok
      exact (Except.ok.inj hok) ▸ rfl
  | unload => exact absurd rfl hopt
  | usage => cases hok
  | _ => exact (Except.ok.inj hok) ▸ rfl

theorem parseCmdlineArgs_doUnload {ifNametoindex : String → ℕ} (hload : .unload ∉ opts)
    (hok : parseCmdlineArgs ifNametoindex opts Config.default = .ok cfg) : cfg.doUnload = false :=
  foldlM_invariant (fun cfg ↦ cfg.doUnload = false)
    (fun _ _ hopt _ hunload hstep ↦
      (parseOption_doUnload (fun heq ↦ hload (heq ▸ hopt)) hstep).trans hunload) rfl hok

theorem selectProgram_fd (hselect : selectProgram r.load cfg = .ok (obj, prog)) :
    prog.fd ≠ -1 := by
  unfold selectProgram at hselect
  dsimp only at hselect
  split at hselect
  · cases hselect
  · split at hselect
    · cases hselect
    · split_ifs at hselect with hfd
      obtain ⟨-, rfl⟩ := Prod.mk.inj (Except.ok.inj hselect)
      omega

inductive FailedLink (r : Replies) (opts : List LoaderOption) (h : Host) :
    Int → (Int → Option Attached) → Prop
  | unchanged (status : Int) : FailedLink r opts h status h.link
  /-- The new program is attached, and its maps cannot be pinned. -/
  | unpinned {cfg : Config} {obj : BpfObject} {prog : BpfProgram} {mode : XdpMode}
      (hparse : parseCmdlineArgs r.ifNametoindex opts Config.default = .ok cfg)
      (hselect : selectProgram r.load cfg = .ok (obj, prog))
      (hattach : xdpLinkAttach r.attach cfg.ifindex cfg.xdpFlags prog.fd h =
        (0, h.setLink cfg.ifindex (some ⟨h.prog prog.fd, mode⟩)))
      (hpin : (pinMapsInBpfObject r.pins obj.maps cfg.ifname
        (h.setLink cfg.ifindex (some ⟨h.prog prog.fd, mode⟩))).1 ≠ 0) :
      FailedLink r opts h exitFailBpf
        (Function.update h.link cfg.ifindex (some ⟨h.prog prog.fd, mode⟩))
  /-- The program of the other mode is removed, and the new one is refused. -/
  | leftEmpty {cfg : Config}
      (hparse : parseCmdlineArgs r.ifNametoindex opts Config.default = .ok cfg)
      (hempty : LeftEmpty r.attach cfg.ifindex cfg.xdpFlags h) :
      FailedLink r opts h exitFailXdp (Function.update h.link cfg.ifindex none)

theorem loadAndPin_of_error (hselect : selectProgram r.load cfg = .error status) :
    loadAndPin r cfg h = (status, h) := by
  unfold loadAndPin loadBpfAndXdpAttach
  rw [hselect]

theorem loadAndPin_of_ok {attached : Int × Host}
    (hselect : selectProgram r.load cfg = .ok (obj, prog))
    (hattach : xdpLinkAttach r.attach cfg.ifindex cfg.xdpFlags prog.fd h = attached) :
    loadAndPin r cfg h =
      if attached.1 ≠ 0 then attached
      else pinMapsInBpfObject r.pins obj.maps cfg.ifname attached.2 := by
  unfold loadAndPin loadBpfAndXdpAttach
  rw [hselect]
  dsimp only
  rw [hattach]
  by_cases hok : attached.1 = 0
  · rw [if_neg (not_not_intro hok), if_neg (not_not_intro hok)]
  · rw [if_pos hok, if_pos hok]

theorem loadAndPin_failed (hparse : parseCmdlineArgs r.ifNametoindex opts Config.default = .ok cfg)
    (hfail : (loadAndPin r cfg h).1 ≠ 0) :
    FailedLink r opts h (loadAndPin r cfg h).1 (loadAndPin r cfg h).2.link := by
  cases hselect : selectProgram r.load cfg with
  | error status =>
      rw [loadAndPin_of_error hselect]
      exact .unchanged status
  | ok p =>
      obtain ⟨obj, prog⟩ := p
      have houtcome := xdpLinkAttach_outcome r.attach cfg.ifindex cfg.xdpFlags h
        (selectProgram_fd hselect)
      generalize hattach : xdpLinkAttach r.attach cfg.ifindex cfg.xdpFlags prog.fd h = attached
        at houtcome
      rw [loadAndPin_of_ok hselect hattach] at hfail ⊢
      cases houtcome with
      | unchanged => exact .unchanged exitFailXdp
      | leftEmpty hempty => exact .leftEmpty hparse hempty
      | attached mode =>
          have hpin : (pinMapsInBpfObject r.pins obj.maps cfg.ifname
              (h.setLink cfg.ifindex (some ⟨h.prog prog.fd, mode⟩))).1 ≠ 0 := hfail
          have hstatus := (pinMapsInBpfObject_status r.pins obj.maps cfg.ifname
            (h.setLink cfg.ifindex (some ⟨h.prog prog.fd, mode⟩))).resolve_left hpin
          rw [if_neg (not_not_intro rfl), hstatus, pinMapsInBpfObject_link]
          exact .unpinned hparse hselect hattach hpin

/-- A failed run leaves every interface as it was, except that its own one may have the new program,
whose maps could not be pinned, or none, when the program in the way was removed in vain. -/
theorem failed_load_link (hload : .unload ∉ opts) (hfail : (xdpLoader r opts h).1 ≠ 0) :
    FailedLink r opts h (xdpLoader r opts h).1 (xdpLoader r opts h).2.link := by
  unfold xdpLoader at hfail ⊢
  cases hparse : parseCmdlineArgs r.ifNametoindex opts Config.default with
  | error status => exact .unchanged status
  | ok cfg =>
      rw [hparse] at hfail
      dsimp only at hfail ⊢
      rw [parseCmdlineArgs_doUnload hload hparse, if_neg Bool.false_ne_true] at hfail ⊢
      split_ifs at hfail ⊢ with hdev
      · exact .unchanged exitFailOption
      · exact loadAndPin_failed hparse hfail

/-- A kernel that grants everything but the link changes that answer with the given errors, and the
pins when `pin` is an error. -/
def Replies.granting (set unset reset pin : ℕ) : Replies where
  ifNametoindex _ := 2
  load := ⟨fun _ ↦ ⟨[⟨mapName, 5⟩], [⟨"xdp_parser", 4⟩]⟩, fun _ ↦ 0, true, fun _ ↦ -1,
    fun _ ↦ ⟨mapName, 5⟩, fun _ ↦ 0, fun _ ↦ 0⟩
  attach := ⟨⟨set, .drv⟩, ⟨unset, .drv⟩, ⟨reset, .drv⟩⟩
  detach := ⟨0, ⟨0, .drv⟩⟩
  pins := ⟨fun _ ↦ 0, fun _ ↦ 0, fun _ ↦ pin, fun _ ↦ 0⟩

/-- A host whose interface `2` has the program `a`, with nothing pinned. -/
def Host.running (a : Option Attached) : Host :=
  ⟨fun i ↦ if i = 2 then a else none, fun _ ↦ none, fun _ ↦ 77⟩

/-- The first run attaches the program and cannot pin its map; the second one is forced past a
program in generic mode, which it removes, and is then refused. -/
theorem failed_load_changes_link :
    LoaderOption.unload ∉ [.dev "eth0"] ∧ (Host.running none).link 2 = none ∧
      Prod.map id (·.link 2) (xdpLoader (.granting 0 0 0 1) [.dev "eth0"] (.running none)) =
        (40, some ⟨77, .drv⟩) ∧
    LoaderOption.unload ∉ [.dev "eth0", .force] ∧
      (Host.running (some ⟨9, .skb⟩)).link 2 = some ⟨9, .skb⟩ ∧
      Prod.map id (·.link 2) (xdpLoader (.granting 17 0 16 0) [.dev "eth0", .force]
        (.running (some ⟨9, .skb⟩))) = (30, none) := by
  decide

theorem failed_load_of_running :
    FailedLink (.granting 0 0 0 1) [.dev "eth0"] (.running (some ⟨9, .drv⟩)) 40
      (xdpLoader (.granting 0 0 0 1) [.dev "eth0"] (.running (some ⟨9, .drv⟩))).2.link := by
  have hstatus : (xdpLoader (.granting 0 0 0 1) [.dev "eth0"]
      (.running (some ⟨9, .drv⟩))).1 = 40 := by decide
  rw [← hstatus]
  exact failed_load_link (by decide) (by rw [hstatus]; decide)

end AntiDos
