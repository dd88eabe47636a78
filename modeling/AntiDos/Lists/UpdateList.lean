import AntiDos.Lists.LoadUserMap
import AntiDos.Loader.Lifecycle

/-!
# The update of a list

`update_list` opens the pin of a list below the name of an interface, compares the layout of the map
with the one it expects, and loads the file of the list. It asks for no program: that the addresses
reach the filter of the interface rests on the pins that the loader has left.
-/

namespace AntiDos

open Inet Scanf Words

/-- The host, and the addresses that each map holds. -/
structure Deployment where
  host : Host
  entries : ℕ → Finset UInt32

/-- The answers to the calls of `update_list`: those that open the pin, the updates in their order,
and what the buffer `file_name` holds before anything is read into it. -/
structure UpdateListReplies where
  ifNametoindex : String → ℕ
  opened : MapReply
  updates : ℕ → MapReply
  stale : List Char

inductive UpdateListFault
  | fileName (line : List Char)
  | list (fault : ListFault)

/-- The configuration that `update_list` starts with. -/
def Config.empty : Config :=
  { Config.default with
    xdpFlags := 0
    filename := "" }

/-- The size of the buffer `file_name`. -/
abbrev fileNameSize : ℕ := 100

/-- `scanf("%[^\n]", file_name)`: nothing is stored when the line is empty. -/
def scanFileName (stale input : List Char) : Except UpdateListFault (List Char) :=
  let line := input.takeWhile (· ≠ '\n')
  if line = [] then .ok stale
  else if line.length < fileNameSize then .ok line
  else .error (.fileName line)

def filePath (fileName : String) : Option String :=
  if fileName = "white_list" then some "list/whitelist"
  else if fileName = "black_list" then some "list/blacklist"
  else none

/-- The layout that `update_list` expects. -/
def listExpect : BpfMapInfo := ⟨4, 4, 10000, 0⟩

/-- What a run of `update_list` leaves behind: its exit status, the results of its calls of
`bpf_map_update_elem`, and the maps. -/
structure UpdateListEnd where
  status : Int
  calls : List Int
  after : Deployment

/-- `update_list` once the descriptor of the map `id` is asked for. -/
def updateOpened (r : UpdateListReplies) (id : ℕ) (file : Option (List Char)) (s : Deployment) :
    Except UpdateListFault UpdateListEnd :=
  let opened := openBpfMapFile r.opened ⟨s.entries id, ∅, ⟨0, 0, 0, 0⟩⟩
  if opened.1 < 0 then .ok ⟨exitFailBpf, [], s⟩
  else
    let err := checkMapFdInfo opened.2.info listExpect
    if err ≠ 0 then .ok ⟨err, [], s⟩
    else
      match loadUserMap opened.1 r.updates file ⟨opened.2, []⟩ with
      | .error fault => .error (.list fault)
      | .ok (_, t) =>
          .ok ⟨0, t.calls, { s with entries := Function.update s.entries id t.map.entries }⟩

/-- The `main` of `update_list` on the options, the standard input and the files there are. -/
def updateListMain (r : UpdateListReplies) (opts : List LoaderOption) (input : List Char)
    (files : String → Option (List Char)) (s : Deployment) :
    Except UpdateListFault UpdateListEnd :=
  match parseCmdlineArgs r.ifNametoindex opts Config.empty with
  | .error status => .ok ⟨status, [], s⟩
  | .ok cfg =>
      if cfg.ifindex = -1 then .ok ⟨exitFailOption, [], s⟩
      else
        match scanFileName r.stale input with
        | .error fault => .error fault
        | .ok fileName =>
            let fileName := String.ofList (cString fileName)
            match filePath fileName with
            | none => .ok ⟨-1, [], s⟩
            | some path =>
                match s.host.pins (pinPath (pinPath pinBasedir cfg.ifname) fileName) with
                | none => .ok ⟨exitFailBpf, [], s⟩
                | some id => updateOpened r id (files path) s

/-! ## What a run changes -/

variable {r : UpdateListReplies} {opts : List LoaderOption} {input : List Char} {cfg : Config}
  {files : String → Option (List Char)} {s : Deployment} {res : UpdateListEnd} {id : ℕ}
  {file : List Char} {name list path : String}

/-- The run is one about the list `list` of the interface `name`. -/
structure Updates (r : UpdateListReplies) (opts : List LoaderOption) (input : List Char)
    (name list : String) : Prop where
  interface : ∃ cfg, parseCmdlineArgs r.ifNametoindex opts Config.empty = .ok cfg ∧
    cfg.ifindex ≠ -1 ∧ cfg.ifname = name
  fileName : ∃ line, scanFileName r.stale input = .ok line ∧ String.ofList (cString line) = list

/-- The file of a list that has one. -/
structure ListFile (files : String → Option (List Char)) (list : String) (file : List Char) :
    Prop where
  found : ∃ path, filePath list = some path ∧ files path = some file
  text : '\x00' ∉ file

theorem updateListMain_eq (hupdates : Updates r opts input name list)
    (hpath : filePath list = some path) :
    updateListMain r opts input files s =
      match s.host.pins (pinPath (pinPath pinBasedir name) list) with
      | none => .ok ⟨exitFailBpf, [], s⟩
      | some id => updateOpened r id (files path) s := by
  obtain ⟨⟨cfg, hparse, hdev, rfl⟩, line, hline, rfl⟩ := hupdates
  unfold updateListMain
  rw [hparse]
  dsimp only
  rw [if_neg hdev, hline]
  dsimp only
  rw [hpath]

theorem updateOpened_loaded {file : Option (List Char)} {ret : Int} {t : ListRun}
    (hopen : ¬ (openBpfMapFile r.opened ⟨s.entries id, ∅, ⟨0, 0, 0, 0⟩⟩).1 < 0)
    (hlayout : checkMapFdInfo
      (openBpfMapFile r.opened ⟨s.entries id, ∅, ⟨0, 0, 0, 0⟩⟩).2.info listExpect = 0)
    (hload : loadUserMap (openBpfMapFile r.opened ⟨s.entries id, ∅, ⟨0, 0, 0, 0⟩⟩).1 r.updates file
      ⟨(openBpfMapFile r.opened ⟨s.entries id, ∅, ⟨0, 0, 0, 0⟩⟩).2, []⟩ = .ok (ret, t)) :
    updateOpened r id file s =
      .ok ⟨0, t.calls, { s with entries := Function.update s.entries id t.map.entries }⟩ := by
  unfold updateOpened
  dsimp only
  rw [if_neg hopen, if_neg (not_not_intro hlayout), hload]

theorem updateOpened_done (hrun : updateOpened r id (some file) s = .ok res)
    (hstatus : res.status = 0) (hnul : '\x00' ∉ file) (hcalls : ∀ e ∈ res.calls, e = 0) :
    (∀ other ≠ id, res.after.entries other = s.entries other) ∧
      ∀ x, x ∈ res.after.entries id ↔ x ∈ s.entries id ∨ Listed file x := by
  have hexit : exitFailBpf ≠ 0 := by decide
  unfold updateOpened at hrun
  dsimp only at hrun
  split_ifs at hrun with hopen hlayout
  · rw [← Except.ok.inj hrun] at hstatus
    exact absurd hstatus hexit
  · rw [← Except.ok.inj hrun] at hstatus
    exact absurd hstatus hlayout
  · split at hrun
    · cases hrun
    · rename_i ret t hload
      obtain rfl := Except.ok.inj hrun
      refine ⟨fun other hne ↦ Function.update_of_ne hne _ _, fun x ↦ ?_⟩
      dsimp only
      rw [Function.update_self, mem_loadUserMap hnul hload hcalls, openBpfMapFile_entries]

/-! ## Runs of the tools -/

/-- A run of one of the two tools that an operator sets a filter up with. -/
inductive Command
  | load (run : LoaderRun)
  | update (r : UpdateListReplies) (opts : List LoaderOption) (input : List Char)
      (files : String → Option (List Char))

def Command.exec (s : Deployment) : Command → Except UpdateListFault Deployment
  | .load run => .ok { s with host := (run.exec s.host).2 }
  | .update r opts input files => do
      let res ← updateListMain r opts input files s
      .ok res.after

theorem updateListMain_host (hrun : updateListMain r opts input files s = .ok res) :
    res.after.host = s.host := by
  have hopened : ∀ {id file}, updateOpened r id file s = .ok res → res.after.host = s.host := by
    intro id file hrun
    unfold updateOpened at hrun
    dsimp only at hrun
    split_ifs at hrun
    · rw [← Except.ok.inj hrun]
    · rw [← Except.ok.inj hrun]
    · split at hrun
      · cases hrun
      · rw [← Except.ok.inj hrun]
  unfold updateListMain at hrun
  split at hrun
  · rw [← Except.ok.inj hrun]
  · split_ifs at hrun
    · rw [← Except.ok.inj hrun]
    · split at hrun
      · cases hrun
      · dsimp only at hrun
        split at hrun
        · rw [← Except.ok.inj hrun]
        · split at hrun
          · rw [← Except.ok.inj hrun]
          · exact hopened hrun

/-- No load among the commands leaves the filter of the interface unpinned. -/
def AllPinned (p : Platform) (name : String) (commands : List Command) (s : Deployment) : Prop :=
  ∀ pre run post t, commands = pre ++ .load run :: post → pre.foldlM Command.exec s = .ok t →
    run.On p ∧ ¬ LeftUnpinned run t.host name

theorem pinsFollow_commands {p : Platform} {commands : List Command} {t : Deployment}
    (hname : p.ifNametoindex name ≠ 0) (hpinned : AllPinned p name commands s)
    (hstart : PinsFollow p s.host name) (hrun : commands.foldlM Command.exec s = .ok t) :
    PinsFollow p t.host name := by
  induction commands using List.reverseRecOn generalizing t with
  | nil =>
      obtain rfl := Except.ok.inj hrun
      exact hstart
  | append_singleton commands last ih =>
      rw [List.foldlM_append] at hrun
      obtain ⟨u, hbefore, hlast⟩ := Faulting.bind_eq_ok_iff.mp hrun
      rw [List.foldlM_cons] at hlast
      obtain ⟨v, hexec, hv⟩ := Faulting.bind_eq_ok_iff.mp hlast
      obtain rfl := Except.ok.inj hv
      have hfollow : PinsFollow p u.host name := by
        refine ih (fun pre run post t hsplit hpre ↦ ?_) hbefore
        exact hpinned pre run (post ++ [last]) t (by simp [hsplit]) hpre
      cases last with
      | load run =>
          obtain rfl := Except.ok.inj hexec
          obtain ⟨hon, hleft⟩ := hpinned commands run [] u rfl hbefore
          rcases LoaderRun.step hon hname u.host with ⟨hlink, hpins⟩ | hnew | hleft'
          · exact hfollow.of_same hlink hpins
          · exact hnew
          · exact absurd hleft' hleft
      | update r opts input files =>
          obtain ⟨res, hmain, hres⟩ := Faulting.bind_eq_ok_iff.mp hexec
          obtain rfl := Except.ok.inj hres
          rw [updateListMain_host hmain]
          exact hfollow

/-- A run for the black list of `eth0` that is granted everything. -/
def UpdateListReplies.granted : UpdateListReplies :=
  ⟨Platform.eth0.ifNametoindex, .granted, fun _ ↦ .granted, []⟩

def blacklistFiles (path : String) : Option (List Char) :=
  if path = "list/blacklist" then some "10.10.30.10\n".toList else none

def filteredEth0 : Deployment :=
  ⟨(LoaderRun.exec (.onEth0 77 0 [.dev "eth0"]) (.running none)).2, fun _ ↦ ∅⟩

def blacklistRun : ListRun :=
  storeWords 3 (fun _ ↦ .granted) (words isSpace "10.10.30.10\n".toList)
    ⟨(openBpfMapFile .granted ⟨∅, ∅, ⟨0, 0, 0, 0⟩⟩).2, []⟩

def blacklistEnd : UpdateListEnd :=
  ⟨0, blacklistRun.calls,
    { filteredEth0 with entries := Function.update (fun _ ↦ ∅) 79 blacklistRun.map.entries }⟩

theorem updates_blacklist :
    Updates .granted [.dev "eth0"] "black_list\n".toList "eth0" "black_list" :=
  ⟨⟨_, rfl, by decide, rfl⟩, _, rfl, by decide⟩

theorem updateListMain_blacklist :
    updateListMain .granted [.dev "eth0"] "black_list\n".toList blacklistFiles filteredEth0 =
      .ok blacklistEnd := by
  have hpin : filteredEth0.host.pins (pinPath (pinPath pinBasedir "eth0") "black_list") =
      some 79 := by decide
  have hload : loadUserMap 3 (fun _ ↦ .granted) (some "10.10.30.10\n".toList)
      ⟨(openBpfMapFile .granted ⟨∅, ∅, ⟨0, 0, 0, 0⟩⟩).2, []⟩ = .ok (0, blacklistRun) := by
    rw [loadUserMap_eq]
    rfl
  have hopened : updateOpened .granted 79 (some "10.10.30.10\n".toList) filteredEth0 =
      .ok blacklistEnd := updateOpened_loaded (by decide) (by decide) hload
  rw [updateListMain_eq updates_blacklist (by rfl), hpin]
  exact hopened

end AntiDos
