import AntiDos.Poller.BlackList
import Mathlib.Logic.Function.Basic

/-!
# The program attached to an interface

`bpf_set_link_xdp_fd` replaces or removes the program of one interface, and only when it succeeds.
`xdp_link_attach` calls it once, or, when the kernel refuses because a program of the other mode is
attached and replacing is allowed, three times: the refused attempt, the removal of that program,
and the second attempt.
-/

namespace AntiDos

inductive XdpMode
  | skb
  | drv
  | hw
deriving DecidableEq

structure Attached where
  prog : ℕ
  mode : XdpMode
deriving DecidableEq

/-- The state of the kernel that the loader can change: the program of each interface and the map
pinned at each path; and the program behind each descriptor of the loader. -/
structure Host where
  link : Int → Option Attached
  pins : String → Option ℕ
  prog : Int → ℕ

def Host.setLink (h : Host) (ifindex : Int) (a : Option Attached) : Host :=
  { h with link := Function.update h.link ifindex a }

abbrev exitFailOption : Int := 2

abbrev exitFailXdp : Int := 30

abbrev xdpFlagsUpdateIfNoexist : UInt32 := 1

abbrev xdpFlagsSkbMode : UInt32 := 2

abbrev xdpFlagsDrvMode : UInt32 := 4

abbrev xdpFlagsHwMode : UInt32 := 8

abbrev xdpFlagsModes : UInt32 := xdpFlagsSkbMode ||| xdpFlagsDrvMode ||| xdpFlagsHwMode

abbrev eexist : Int := 17

/-- The answer of the kernel to one change of a link: `0` or an error number, and the mode it
chooses when the flags ask for none. -/
structure LinkReply where
  errno : ℕ
  auto : XdpMode

def LinkReply.mode (r : LinkReply) (flags : UInt32) : XdpMode :=
  if flags &&& xdpFlagsSkbMode ≠ 0 then .skb
  else if flags &&& xdpFlagsDrvMode ≠ 0 then .drv
  else if flags &&& xdpFlagsHwMode ≠ 0 then .hw
  else r.auto

/-- The interface without the program attached to it in mode `mode`. -/
def Host.detached (h : Host) (ifindex : Int) (mode : XdpMode) : Host :=
  match h.link ifindex with
  | none => h
  | some a => if a.mode = mode then h.setLink ifindex none else h

/-- The descriptor `-1` stands for no program. -/
def bpfSetLinkXdpFd (r : LinkReply) (ifindex fd : Int) (flags : UInt32) (h : Host) : Int × Host :=
  if r.errno ≠ 0 then (-r.errno, h)
  else if fd = -1 then (0, h.detached ifindex (r.mode flags))
  else (0, h.setLink ifindex (some ⟨h.prog fd, r.mode flags⟩))

/-- The answers to the attempts of `xdp_link_attach`, in their order. -/
structure AttachReplies where
  set : LinkReply
  unset : LinkReply
  reset : LinkReply

/-- The flags with which `xdp_link_attach` removes what is in the way of flags `xdpFlags`. -/
def oppositeFlags (xdpFlags : UInt32) : UInt32 :=
  (xdpFlags &&& ~~~xdpFlagsModes) |||
    (if xdpFlags &&& xdpFlagsSkbMode ≠ 0 then xdpFlagsDrvMode else xdpFlagsSkbMode)

/-- The end of `xdp_link_attach`, which reports an error as `EXIT_FAIL_XDP`. -/
def linkStatus (res : Int × Host) : Int × Host :=
  if res.1 < 0 then (exitFailXdp, res.2) else (0, res.2)

def xdpLinkAttach (r : AttachReplies) (ifindex : Int) (xdpFlags : UInt32) (progFd : Int)
    (h : Host) : Int × Host :=
  let set := bpfSetLinkXdpFd r.set ifindex progFd xdpFlags h
  linkStatus <|
    if set.1 = -eexist ∧ xdpFlags &&& xdpFlagsUpdateIfNoexist = 0 then
      -- a program of the opposite type is loaded, probably
      let unset := bpfSetLinkXdpFd r.unset ifindex (-1) (oppositeFlags xdpFlags) set.2
      if unset.1 = 0 then bpfSetLinkXdpFd r.reset ifindex progFd xdpFlags unset.2 else unset
    else set

/-- The answers to the two calls of `xdp_link_detach`: the result of `bpf_get_link_xdp_id`, and the
answer to the removal. -/
structure DetachReplies where
  getId : Int
  unset : LinkReply

/-- The program id `0` stands for no program. -/
def xdpLinkDetach (r : DetachReplies) (ifindex : Int) (xdpFlags : UInt32) (expectedProgId : ℕ)
    (h : Host) : Int × Host :=
  if r.getId ≠ 0 then (exitFailXdp, h)
  else
    let currProgId := ((h.link ifindex).map Attached.prog).getD 0
    if currProgId = 0 then (0, h)
    else if expectedProgId ≠ 0 ∧ currProgId ≠ expectedProgId then (exitFail, h)
    else linkStatus (bpfSetLinkXdpFd r.unset ifindex (-1) xdpFlags h)

/-! ## What the calls do -/

variable {r : LinkReply} {ifindex fd progFd : Int} {flags xdpFlags : UInt32} {h : Host}

theorem bpfSetLinkXdpFd_refused (hr : r.errno ≠ 0) :
    bpfSetLinkXdpFd r ifindex fd flags h = (-(r.errno : Int), h) := if_pos hr

theorem bpfSetLinkXdpFd_attached (hr : r.errno = 0) (hfd : fd ≠ -1) :
    bpfSetLinkXdpFd r ifindex fd flags h =
      (0, h.setLink ifindex (some ⟨h.prog fd, r.mode flags⟩)) := by
  unfold bpfSetLinkXdpFd
  rw [if_neg (not_not_intro hr), if_neg hfd]

theorem bpfSetLinkXdpFd_removed (hr : r.errno = 0) :
    bpfSetLinkXdpFd r ifindex (-1) flags h = (0, h.detached ifindex (r.mode flags)) := by
  unfold bpfSetLinkXdpFd
  rw [if_neg (not_not_intro hr), if_pos rfl]

@[simp] theorem Host.detached_prog (mode : XdpMode) : (h.detached ifindex mode).prog = h.prog := by
  unfold Host.detached
  split
  · rfl
  · split_ifs <;> rfl

theorem Host.detached_cases (h : Host) (ifindex : Int) (mode : XdpMode) :
    h.detached ifindex mode = h ∨
      (∃ prog, h.link ifindex = some ⟨prog, mode⟩) ∧
        h.detached ifindex mode = h.setLink ifindex none := by
  unfold Host.detached
  cases hlink : h.link ifindex with
  | none => exact Or.inl rfl
  | some a =>
      dsimp only
      split_ifs with hmode
      · exact Or.inr ⟨⟨a.prog, by rw [← hmode]⟩, rfl⟩
      · exact Or.inl rfl

theorem Host.setLink_detached (h : Host) (ifindex : Int) (mode : XdpMode) (a : Option Attached) :
    (h.detached ifindex mode).setLink ifindex a = h.setLink ifindex a := by
  rcases h.detached_cases ifindex mode with heq | ⟨-, heq⟩
  · rw [heq]
  · rw [heq, setLink, setLink, setLink, Function.update_idem]

/-- The mode of the program that a second attempt removes first. -/
def oppositeMode (xdpFlags : UInt32) : XdpMode :=
  if xdpFlags &&& xdpFlagsSkbMode ≠ 0 then .drv else .skb

/-- A bit that the mask clears is read from what is put in its place. -/
theorem or_and_of_masked (x y : UInt32) {mask bit : UInt32} (hbit : bit &&& mask = bit) :
    (x &&& ~~~mask ||| y) &&& bit = y &&& bit := by
  rw [← hbit]
  apply UInt32.toBitVec_inj.mp
  ext i hi
  simp
  grind

theorem mode_oppositeFlags : r.mode (oppositeFlags xdpFlags) = oppositeMode xdpFlags := by
  have hskb : xdpFlagsSkbMode &&& xdpFlagsModes = xdpFlagsSkbMode := by decide
  have hdrv : xdpFlagsDrvMode &&& xdpFlagsModes = xdpFlagsDrvMode := by decide
  unfold oppositeMode oppositeFlags LinkReply.mode
  rw [or_and_of_masked xdpFlags _ hskb, or_and_of_masked xdpFlags _ hdrv]
  split_ifs <;> first | rfl | contradiction

structure LeftEmpty (r : AttachReplies) (ifindex : Int) (xdpFlags : UInt32) (h : Host) : Prop where
  forced : xdpFlags &&& xdpFlagsUpdateIfNoexist = 0
  occupied : (r.set.errno : Int) = eexist
  removed : r.unset.errno = 0
  refused : r.reset.errno ≠ 0
  opposite : ∃ prog, h.link ifindex = some ⟨prog, oppositeMode xdpFlags⟩

inductive AttachOutcome (r : AttachReplies) (ifindex : Int) (xdpFlags : UInt32) (progFd : Int)
    (h : Host) : Int × Host → Prop
  | attached (mode : XdpMode) : AttachOutcome r ifindex xdpFlags progFd h
      (0, h.setLink ifindex (some ⟨h.prog progFd, mode⟩))
  | unchanged : AttachOutcome r ifindex xdpFlags progFd h (exitFailXdp, h)
  | leftEmpty (hempty : LeftEmpty r ifindex xdpFlags h) : AttachOutcome r ifindex xdpFlags progFd h
      (exitFailXdp, h.setLink ifindex none)

theorem linkStatus_refused {n : ℕ} (hn : n ≠ 0) (h : Host) :
    linkStatus (-(n : Int), h) = (exitFailXdp, h) := if_pos (by simp; omega)

theorem linkStatus_ok (h : Host) : linkStatus (0, h) = (0, h) := rfl

/-- The second attempt, after the removal that makes room for it. -/
theorem AttachOutcome.of_retry {r : AttachReplies} (hfd : progFd ≠ -1)
    (hforced : xdpFlags &&& xdpFlagsUpdateIfNoexist = 0) (hset : (r.set.errno : Int) = eexist)
    (hunset : r.unset.errno = 0) :
    AttachOutcome r ifindex xdpFlags progFd h
      (linkStatus (bpfSetLinkXdpFd r.reset ifindex progFd xdpFlags
        (h.detached ifindex (oppositeMode xdpFlags)))) := by
  by_cases hreset : r.reset.errno = 0
  · rw [bpfSetLinkXdpFd_attached hreset hfd, linkStatus_ok, Host.detached_prog,
      Host.setLink_detached]
    exact .attached _
  · rw [bpfSetLinkXdpFd_refused hreset, linkStatus_refused hreset]
    rcases h.detached_cases ifindex (oppositeMode xdpFlags) with heq | ⟨hprog, heq⟩
    · rw [heq]
      exact .unchanged
    · rw [heq]
      exact .leftEmpty ⟨hforced, hset, hunset, hreset, hprog⟩

theorem xdpLinkAttach_outcome (r : AttachReplies) (ifindex : Int) (xdpFlags : UInt32) (h : Host)
    (hfd : progFd ≠ -1) :
    AttachOutcome r ifindex xdpFlags progFd h (xdpLinkAttach r ifindex xdpFlags progFd h) := by
  unfold xdpLinkAttach
  dsimp only
  by_cases hset : r.set.errno = 0
  · rw [bpfSetLinkXdpFd_attached hset hfd, if_neg (by simp [eexist]), linkStatus_ok]
    exact .attached _
  rw [bpfSetLinkXdpFd_refused hset]
  split_ifs with hretry hunset
  · have hforced := hretry.2
    have hoccupied : (r.set.errno : Int) = eexist := Int.neg_inj.mp hretry.1
    by_cases hremoved : r.unset.errno = 0
    · rw [bpfSetLinkXdpFd_removed hremoved, mode_oppositeFlags]
      exact .of_retry hfd hforced hoccupied hremoved
    · rw [bpfSetLinkXdpFd_refused hremoved] at hunset
      exact absurd (by simpa using hunset) hremoved
  · have hremoved : r.unset.errno ≠ 0 := by
      intro hr
      exact hunset (by rw [bpfSetLinkXdpFd_removed hr])
    rw [bpfSetLinkXdpFd_refused hremoved, linkStatus_refused hremoved]
    exact .unchanged
  · rw [linkStatus_refused hset]
    exact .unchanged

end AntiDos
