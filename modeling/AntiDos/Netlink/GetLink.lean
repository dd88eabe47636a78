import AntiDos.Netlink.SetLink
import AntiDos.Loader.XdpLoader

/-!
# The program of an interface

`bpf_get_link_xdp_id` asks for a dump of all interfaces and picks the program of one out of it: the
attribute `IFLA_XDP` of a message carries nested attributes with the mode and the ids. However the
kernel cuts the dump into datagrams, and whatever else it tells of the interfaces, the loader gets
the program that is attached.
-/

namespace AntiDos

open Bytes Faulting Frames

/-! ## The calls -/

/-- `struct xdp_link_info`. -/
structure XdpLinkInfo where
  progId : UInt32
  drvProgId : UInt32
  hwProgId : UInt32
  skbProgId : UInt32
  attachMode : UInt8
deriving DecidableEq

def XdpLinkInfo.zero : XdpLinkInfo := ⟨0, 0, 0, 0, 0⟩

abbrev iflaXdpAttached : ℕ := 2

abbrev iflaXdpProgId : ℕ := 4

abbrev iflaXdpDrvProgId : ℕ := 5

abbrev iflaXdpSkbProgId : ℕ := 6

abbrev iflaXdpHwProgId : ℕ := 7

abbrev xdpAttachedNone : UInt8 := 0

abbrev xdpAttachedMulti : UInt8 := 4

/-- The word of an attribute, or the one there is if the attribute is missing. -/
def getattrU32 (f : List UInt8) (old : UInt32) : Option ℕ → Except NlFault UInt32
  | none => .ok old
  | some nla => load32 .outside f (nla + nlaHdrlen)

/-- The index `0` asks for every interface. -/
def otherLink (f : List UInt8) (ifindex : UInt32) (ifinfo : ℕ) : Except NlFault Bool := do
  if ifindex = 0 then .ok false
  else
    let ifiIndex ← load32 .outside f (ifinfo + 4)
    .ok (ifindex ≠ ifiIndex)

/-- `get_xdp_info` once the nested attributes are parsed. -/
def readXdpInfo (f : List UInt8) (xdpTb : NlTable) (info : XdpLinkInfo) :
    Except NlFault (Int × XdpLinkInfo) :=
  match xdpTb iflaXdpAttached with
  | none => .ok (0, info)
  | some attached => do
      let mode ← load8 .outside f (attached + nlaHdrlen)
      if mode = xdpAttachedNone then .ok (0, { info with attachMode := mode })
      else
        let progId ← getattrU32 f info.progId (xdpTb iflaXdpProgId)
        let skbProgId ← getattrU32 f info.skbProgId (xdpTb iflaXdpSkbProgId)
        let drvProgId ← getattrU32 f info.drvProgId (xdpTb iflaXdpDrvProgId)
        let hwProgId ← getattrU32 f info.hwProgId (xdpTb iflaXdpHwProgId)
        .ok (0, ⟨progId, drvProgId, hwProgId, skbProgId, mode⟩)

def getXdpInfo (ifindex : UInt32) (f : List UInt8) (ifinfo : ℕ) (tb : NlTable)
    (info : XdpLinkInfo) : Except NlFault (Int × XdpLinkInfo) := do
  let other ← otherLink f ifindex ifinfo
  if other then .ok (0, info)
  else
    match tb iflaXdp.toNat with
    | none => .ok (0, info)
    | some nla => do
        let res ← libbpfNlaParseNested f iflaXdpMax nla none
        if res.1 ≠ 0 then .ok (res.1, info) else readXdpInfo f res.2 info

/-- The size of `struct ifinfomsg`. -/
abbrev sizeofIfinfomsg : ℕ := 16

/-- `__dump_link_nlmsg` with `get_xdp_info`. -/
def dumpLinkNlmsg (ifindex : UInt32) : DumpNlmsg XdpLinkInfo := fun f nlh info ↦ do
  let nlmsgLen ← load32 .outside f nlh
  let ifi := nlh + nlmsgHdrlen
  let len : Int := nlmsgLen.toNat - (nlmsgHdrlen + sizeofIfinfomsg : ℕ)
  let res ← libbpfNlaParse f iflaMax (ifi + sizeofIfinfomsg) len none
  if res.1 ≠ 0 then .ok (-errnoNlparse, info)
  else getXdpInfo ifindex f ifi res.2 info

/-- `time` is the sequence number of the request. -/
def libbpfNlGetLink (r : NetlinkReplies) (nlPid time ifindex : UInt32) (info : XdpLinkInfo) :
    Except NlFault (Int × XdpLinkInfo) :=
  if r.send ≠ 0 then .ok (-r.send, info)
  else bpfNetlinkRecv nlPid time (some (dumpLinkNlmsg ifindex)) r.received r.stale info

abbrev einval : Int := 22

abbrev xdpFlagsMask : UInt32 := xdpFlagsUpdateIfNoexist ||| xdpFlagsModes

/-- `bpf_get_link_xdp_info` with a buffer of the size of the structure. -/
def bpfGetLinkXdpInfo (r : NetlinkReplies) (time ifindex flags : UInt32) :
    Except NlFault (Int × Option XdpLinkInfo) :=
  let mode := flags &&& xdpFlagsModes
  if flags &&& ~~~xdpFlagsMask ≠ 0 then .ok (-einval, none)
  else if mode ≠ 0 ∧ mode &&& (mode - 1) ≠ 0 then .ok (-einval, none)
  else
    match libbpfNetlinkOpen r.opened with
    | .error ret => .ok (ret, none)
    | .ok nlPid => do
        let res ← libbpfNlGetLink r nlPid time ifindex .zero
        if res.1 = 0 then .ok (0, some res.2) else .ok (res.1, none)

def getXdpId (info : XdpLinkInfo) (flags : UInt32) : UInt32 :=
  if info.attachMode ≠ xdpAttachedMulti then info.progId
  else if flags &&& xdpFlagsDrvMode ≠ 0 then info.drvProgId
  else if flags &&& xdpFlagsHwMode ≠ 0 then info.hwProgId
  else if flags &&& xdpFlagsSkbMode ≠ 0 then info.skbProgId
  else 0

def bpfGetLinkXdpId (r : NetlinkReplies) (time ifindex flags : UInt32) :
    Except NlFault (Int × Option UInt32) := do
  let res ← bpfGetLinkXdpInfo r time ifindex flags
  .ok (res.1, res.2.map (getXdpId · flags))

/-! ## The dump -/

/-- What the kernel tells of one interface. The nested attributes are those of the attribute
`IFLA_XDP`, if there is one, and hold values of the sizes of their types. -/
structure LinkDump where
  msg : NlMsg
  front : List UInt8
  index : UInt32
  back : List UInt8
  attrs : List NlAttr
  xdp : List NlAttr
  payload : msg.payload = front ++ (image32 index ++ (back ++ attrs.flatMap NlAttr.bytes))
  front_length : front.length = 4
  back_length : back.length = 8
  nested : ∀ a, lastOf attrs iflaXdp.toNat = some a → a.value = xdp.flatMap NlAttr.bytes
  mode_size : ∀ a, lastOf xdp iflaXdpAttached = some a → 1 ≤ a.value.length
  id_size : ∀ kind ∈ [iflaXdpProgId, iflaXdpDrvProgId, iflaXdpSkbProgId, iflaXdpHwProgId],
    ∀ a, lastOf xdp kind = some a → 4 ≤ a.value.length

/-- The word at the beginning of the value of an attribute, if there is one. -/
def wordOr (old : UInt32) : Option NlAttr → UInt32
  | none => old
  | some a => le32 (byte a.value 0) (byte a.value 1) (byte a.value 2) (byte a.value 3)

def xdpInfo (xdp : List NlAttr) (info : XdpLinkInfo) : XdpLinkInfo :=
  match lastOf xdp iflaXdpAttached with
  | none => info
  | some a =>
      if byte a.value 0 = xdpAttachedNone then { info with attachMode := xdpAttachedNone }
      else
        ⟨wordOr info.progId (lastOf xdp iflaXdpProgId),
          wordOr info.drvProgId (lastOf xdp iflaXdpDrvProgId),
          wordOr info.hwProgId (lastOf xdp iflaXdpHwProgId),
          wordOr info.skbProgId (lastOf xdp iflaXdpSkbProgId), byte a.value 0⟩

/-- What a message about an interface does to the information asked for. -/
def LinkDump.tell (ifindex : UInt32) (e : LinkDump) (info : XdpLinkInfo) : Int × XdpLinkInfo :=
  (0, if ifindex ≠ 0 ∧ ifindex ≠ e.index then info
    else if lastOf e.attrs iflaXdp.toNat = none then info
    else xdpInfo e.xdp info)

/-! ## Reading a message about an interface -/

section Read

variable {f post : List UInt8} {i : ℕ} {a : NlAttr} {nla : Option ℕ} {old ifindex : UInt32}
  {e : LinkDump} {tb : NlTable} {info : XdpLinkInfo}

theorem load_word_value (h : f.drop i = a.bytes ++ post) (hlen : 4 ≤ a.value.length) :
    load32 NlFault.outside f (i + nlaHdrlen) =
      .ok (le32 (byte a.value 0) (byte a.value 1) (byte a.value 2) (byte a.value 3)) := by
  have hvalue := value_of_drop h
  have hbyte : ∀ j < 4, byte f (i + nlaHdrlen + j) = byte a.value j := by
    intro j hj
    rw [byte_of_drop hvalue]
    exact byte_append_left (by omega) _
  have hne : a.value ++ (a.pad ++ post) ≠ [] :=
    List.append_ne_nil_of_left_ne_nil (List.ne_nil_of_length_pos (by omega)) _
  have hroom := length_of_drop hvalue hne
  rw [List.length_append] at hroom
  rw [load32_of_le (by omega), ← hbyte 0 (by decide), ← hbyte 1 (by decide),
    ← hbyte 2 (by decide), ← hbyte 3 (by decide)]
  rfl

theorem getattrU32_of_points {attr : Option NlAttr} (hpoints : Points f nla attr)
    (hlen : ∀ a, attr = some a → 4 ≤ a.value.length) :
    getattrU32 f old nla = .ok (wordOr old attr) := by
  cases attr with
  | none =>
      obtain rfl : nla = none := hpoints
      rfl
  | some a =>
      obtain ⟨i, post, rfl, hdrop⟩ := hpoints
      exact load_word_value hdrop (hlen a rfl)

theorem readXdpInfo_of_tabulates (e : LinkDump) (htb : Tabulates f iflaXdpMax e.xdp tb)
    (info : XdpLinkInfo) : readXdpInfo f tb info = .ok (0, xdpInfo e.xdp info) := by
  have hmode := htb iflaXdpAttached (by decide)
  have hid : ∀ kind ∈ [iflaXdpProgId, iflaXdpDrvProgId, iflaXdpSkbProgId, iflaXdpHwProgId],
      kind ≤ iflaXdpMax → ∀ old,
        getattrU32 f old (tb kind) = .ok (wordOr old (lastOf e.xdp kind)) :=
    fun kind hkind hmax old ↦ getattrU32_of_points (htb kind hmax) (e.id_size kind hkind)
  unfold readXdpInfo xdpInfo
  cases hattached : lastOf e.xdp iflaXdpAttached with
  | none =>
      rw [hattached] at hmode
      have hnone : tb iflaXdpAttached = none := hmode
      rw [hnone]
  | some a =>
      rw [hattached] at hmode
      obtain ⟨i, post, hentry, hdrop⟩ := hmode
      have hload : load8 NlFault.outside f (i + nlaHdrlen) = .ok (byte a.value 0) := by
        have hsize := e.mode_size a hattached
        obtain ⟨b, rest, hvalue⟩ := List.exists_cons_of_length_pos hsize
        have hthere := value_of_drop hdrop
        rw [hvalue] at hthere ⊢
        exact load8_of_drop hthere
      rw [hentry]
      dsimp only
      rw [hload, ok_bind]
      by_cases hempty : byte a.value 0 = xdpAttachedNone
      · rw [if_pos hempty, if_pos hempty, hempty]
      · rw [if_neg hempty, if_neg hempty, hid _ (by decide) (by decide), ok_bind,
          hid _ (by decide) (by decide), ok_bind, hid _ (by decide) (by decide), ok_bind,
          hid _ (by decide) (by decide), ok_bind]

theorem getXdpInfo_of_tabulates (e : LinkDump)
    (hindex : load32 NlFault.outside f (i + 4) = .ok e.index)
    (htb : Tabulates f iflaMax e.attrs tb) (info : XdpLinkInfo) :
    getXdpInfo ifindex f i tb info = .ok (e.tell ifindex info) := by
  have hother : otherLink f ifindex i = .ok (decide (ifindex ≠ 0 ∧ ifindex ≠ e.index)) := by
    unfold otherLink
    by_cases hany : ifindex = 0
    · rw [if_pos hany]
      exact congrArg Except.ok (decide_eq_false fun h ↦ h.1 hany).symm
    · rw [if_neg hany, hindex, ok_bind]
      exact congrArg Except.ok (decide_eq_decide.mpr (and_iff_right hany).symm)
  unfold getXdpInfo LinkDump.tell
  rw [hother, ok_bind]
  by_cases hskip : ifindex ≠ 0 ∧ ifindex ≠ e.index
  · rw [decide_eq_true hskip, if_pos rfl, if_pos hskip]
  rw [decide_eq_false hskip, if_neg Bool.false_ne_true, if_neg hskip]
  have hpoints := htb iflaXdp.toNat (by decide)
  cases hattr : lastOf e.attrs iflaXdp.toNat with
  | none =>
      rw [hattr] at hpoints
      have hnone : tb iflaXdp.toNat = none := hpoints
      rw [hnone, if_pos rfl]
  | some a =>
      rw [hattr] at hpoints
      obtain ⟨j, rest, hentry, hdrop⟩ := hpoints
      obtain ⟨xdpTb, hparse, hxdp⟩ :=
        libbpfNlaParseNested_attrs iflaXdpMax hdrop (e.nested a hattr)
      rw [hentry, if_neg (Option.some_ne_none a)]
      dsimp only
      rw [hparse, ok_bind]
      dsimp only
      rw [if_neg (not_not_intro rfl)]
      exact readXdpInfo_of_tabulates e hxdp info

theorem dumpLinkNlmsg_of_drop (e : LinkDump) (h : f.drop i = e.msg.bytes ++ post)
    (info : XdpLinkInfo) : dumpLinkNlmsg ifindex f i info = .ok (e.tell ifindex info) := by
  obtain ⟨hlen, -, -, -, -, hpayload⟩ := NlMsg.at_of_drop h
  rw [e.payload] at hpayload
  simp only [List.append_assoc] at hpayload
  have hindex := drop_of_append hpayload e.front_length
  have hback := drop_of_append hindex (length_image32 _)
  have hattrs : f.drop (i + nlmsgHdrlen + sizeofIfinfomsg) =
      e.attrs.flatMap NlAttr.bytes ++ (e.msg.pad ++ post) := by
    have hbehind := drop_of_append hback e.back_length
    exact hbehind
  have hsize : (e.msg.len.toNat : Int) - (nlmsgHdrlen + sizeofIfinfomsg : ℕ) =
      ((e.attrs.flatMap NlAttr.bytes).length : ℕ) := by
    have hfront := e.front_length
    have hrest := e.back_length
    rw [NlMsg.len_toNat, e.payload]
    simp only [List.length_append, length_image32]
    dsimp only [nlmsgHdrlen, sizeofIfinfomsg]
    omega
  have hsmall : (e.attrs.flatMap NlAttr.bytes).length < 2 ^ 31 := by
    have hfits := e.msg.fits
    rw [e.payload] at hfits
    simp only [List.length_append, length_image32] at hfits
    omega
  obtain ⟨tb, hparse, htb⟩ := libbpfNlaParse_attrs iflaMax hattrs hsmall
  rw [dumpLinkNlmsg, hlen, ok_bind]
  dsimp only
  rw [hsize, hparse, ok_bind]
  dsimp only
  rw [if_neg (not_not_intro rfl)]
  exact getXdpInfo_of_tabulates e (load32_of_drop hindex) htb info

end Read

/-! ## The dump as a whole -/

/-- A message of a dump: an interface, or the end. -/
def dumpMsg : LinkDump ⊕ NlMsg → NlMsg := Sum.elim LinkDump.msg id

/-- The datagrams of a dump of the interfaces `links`, cut anywhere between two messages. -/
structure IsDump (datagrams : List (List (LinkDump ⊕ NlMsg))) (links : List LinkDump)
    (pid time : UInt32) : Prop where
  parts : ∀ e ∈ links, e.msg.Part pid time
  whole : ∃ done : NlMsg, done.Done pid time ∧
    datagrams.flatten = links.map .inl ++ [.inr done]
  nonempty : ∀ xs ∈ datagrams, xs ≠ []
  fits : ∀ xs ∈ datagrams, (xs.flatMap (image dumpMsg)).length ≤ recvSize

/-- What the dump tells of an interface. -/
def linkInfo (ifindex : UInt32) (links : List LinkDump) : XdpLinkInfo :=
  links.foldl (fun info e ↦ (e.tell ifindex info).2) .zero

theorem recv_dump {datagrams : List (List (LinkDump ⊕ NlMsg))} {links : List LinkDump}
    {pid time : UInt32} (hdump : IsDump datagrams links pid time) (ifindex : UInt32)
    (buf : List UInt8) :
    bpfNetlinkRecv pid time (some (dumpLinkNlmsg ifindex)) (datagrams.map (datagram dumpMsg)) buf
      .zero = .ok (0, linkInfo ifindex links) := by
  obtain ⟨hparts, ⟨done, hdone, hflat⟩, hne, hfits⟩ := hdump
  have hmem : ∀ xs ∈ datagrams, ∀ x ∈ xs, x ∈ links.map .inl ++ [.inr done] :=
    fun xs hxs x hx ↦ hflat ▸ List.mem_flatten.mpr ⟨xs, hxs, hx⟩
  have hwell : ∀ xs ∈ datagrams, ∀ x ∈ xs, WellFormed dumpMsg (some (dumpLinkNlmsg ifindex))
      (some (Sum.elim (LinkDump.tell ifindex) fun _ info ↦ (0, info))) x := by
    intro xs hxs x hx
    rcases List.mem_append.mp (hmem xs hxs x hx) with hlink | hlast
    · obtain ⟨e, he, rfl⟩ := List.mem_map.mp hlink
      exact ⟨fun herror ↦ absurd herror (hparts e he).noError,
        fun _ _ f i post info hdrop ↦ dumpLinkNlmsg_of_drop e hdrop info⟩
    · obtain rfl := List.mem_singleton.mp hlast
      refine ⟨fun herror ↦ ?_, fun _ hnot ↦ absurd hdone.done hnot⟩
      have hboth := herror.symm.trans hdone.done
      exact absurd hboth (by decide)
  rw [recv_messages pid time _ _ datagrams buf _ hfits hwell]
  refine (receiveAll_dump hflat hne ?_ ?_ hdone _).trans ?_
  · intro x hx
    obtain ⟨e, he, rfl⟩ := List.mem_map.mp hx
    exact hparts e he
  · intro x hx info
    obtain ⟨e, he, rfl⟩ := List.mem_map.mp hx
    rfl
  · rw [List.foldl_map]
    rfl

/-! ## The program attached -/

/-- The mode as `IFLA_XDP_ATTACHED` tells it. -/
def XdpMode.code : XdpMode → UInt8
  | .drv => 1
  | .skb => 2
  | .hw => 3

/-- What the kernel tells of an interface with this program, or with none. -/
def LinkDump.Tells (e : LinkDump) : Option Attached → Prop
  | none => lastOf e.attrs iflaXdp.toNat = none ∨
      ∃ a, lastOf e.xdp iflaXdpAttached = some a ∧ byte a.value 0 = xdpAttachedNone
  | some t => lastOf e.attrs iflaXdp.toNat ≠ none ∧
      (∃ a, lastOf e.xdp iflaXdpAttached = some a ∧ byte a.value 0 = t.mode.code) ∧
        ∃ a, lastOf e.xdp iflaXdpProgId = some a ∧ (wordOr 0 (some a)).toNat = t.prog

/-- The id of the program of an interface, `0` for none. -/
def currProgId (t : Option Attached) : ℕ := (t.map Attached.prog).getD 0

/-- The information names the program. -/
structure XdpLinkInfo.Names (info : XdpLinkInfo) (t : Option Attached) : Prop where
  single : info.attachMode ≠ xdpAttachedMulti
  prog : info.progId.toNat = currProgId t

theorem XdpLinkInfo.Names.getXdpId {info : XdpLinkInfo} {t : Option Attached} (h : info.Names t)
    (flags : UInt32) : (getXdpId info flags).toNat = currProgId t := by
  unfold AntiDos.getXdpId
  rw [if_pos h.single]
  exact h.prog

variable {e : LinkDump} {t : Option Attached} {info : XdpLinkInfo} {links : List LinkDump}
  {ifindex : UInt32}

theorem tell_of_other (hifindex : ifindex ≠ 0) (hindex : e.index ≠ ifindex) (info : XdpLinkInfo) :
    (e.tell ifindex info).2 = info := if_pos ⟨hifindex, hindex.symm⟩

/-- The message about the interface makes the information name its program, as far as it does not
name none already. -/
theorem names_of_tells (hindex : e.index = ifindex) (htells : e.Tells t)
    (hsingle : info.attachMode ≠ xdpAttachedMulti) (hnone : t = none → info.progId = 0) :
    (e.tell ifindex info).2.Names t := by
  have hown : ¬(ifindex ≠ 0 ∧ ifindex ≠ e.index) := fun h ↦ h.2 hindex.symm
  unfold LinkDump.tell
  dsimp only
  rw [if_neg hown]
  cases t with
  | none =>
      have hzero : info.progId.toNat = currProgId none := congrArg UInt32.toNat (hnone rfl)
      rcases htells with hattr | ⟨a, hattached, hmode⟩
      · rw [if_pos hattr]
        exact ⟨hsingle, hzero⟩
      · have hinfo : xdpInfo e.xdp info = { info with attachMode := xdpAttachedNone } := by
          rw [xdpInfo, hattached]
          exact if_pos hmode
        have hmulti : xdpAttachedNone ≠ xdpAttachedMulti := by decide
        rw [hinfo]
        split_ifs
        · exact ⟨hsingle, hzero⟩
        · exact ⟨hmulti, hzero⟩
  | some a =>
      obtain ⟨hattr, ⟨b, hattached, hmode⟩, c, hid, hprog⟩ := htells
      have hcode : a.mode.code ≠ xdpAttachedNone ∧ a.mode.code ≠ xdpAttachedMulti := by
        cases a.mode <;> decide
      rw [if_neg hattr, xdpInfo, hattached]
      dsimp only
      rw [if_neg (hmode ▸ hcode.1), hid, hmode]
      exact ⟨hcode.2, hprog⟩

theorem linkInfo_names (hifindex : ifindex ≠ 0)
    (htells : ∀ e ∈ links, e.index = ifindex → e.Tells t)
    (hthere : t ≠ none → ∃ e ∈ links, e.index = ifindex) : (linkInfo ifindex links).Names t := by
  suffices hgen : ∀ (links : List LinkDump) (info : XdpLinkInfo),
      (∀ e ∈ links, e.index = ifindex → e.Tells t) → info.attachMode ≠ xdpAttachedMulti →
        (t = none → info.progId = 0) → (info.Names t ∨ ∃ e ∈ links, e.index = ifindex) →
          (links.foldl (fun info e ↦ (e.tell ifindex info).2) info).Names t by
    refine hgen links .zero htells (by decide) (fun _ ↦ rfl) ?_
    cases t with
    | none => exact Or.inl ⟨by decide, rfl⟩
    | some a => exact Or.inr (hthere (Option.some_ne_none a))
  intro links
  induction links with
  | nil =>
      intro info _ _ _ hnames
      exact hnames.resolve_right fun ⟨e, he, _⟩ ↦ absurd he List.not_mem_nil
  | cons e links ih =>
      intro info htells hsingle hnone hnames
      obtain ⟨htellse, htells⟩ := List.forall_mem_cons.mp htells
      rw [List.foldl_cons]
      by_cases hindex : e.index = ifindex
      · have hnow := names_of_tells hindex (htellse hindex) hsingle hnone
        refine ih _ htells hnow.single (fun ht ↦ ?_) (Or.inl hnow)
        subst ht
        exact UInt32.toNat_inj.mp hnow.prog
      · rw [tell_of_other hifindex hindex]
        refine ih info htells hsingle hnone (hnames.imp id ?_)
        rintro ⟨e', he', hindex'⟩
        rcases List.mem_cons.mp he' with rfl | he'
        · exact absurd hindex' hindex
        · exact ⟨e', he', hindex'⟩

/-! ## The flags of the loader -/

/-- The flags that the options of the loader can set. -/
def loaderFlags : List UInt32 := [0, 1, 2, 3, 4, 5]

theorem parseOption_flags {ifNametoindex : String → ℕ} {cfg cfg' : Config} {opt : LoaderOption}
    (hcfg : cfg.xdpFlags ∈ loaderFlags) (hok : parseOption ifNametoindex cfg opt = .ok cfg') :
    cfg'.xdpFlags ∈ loaderFlags := by
  have hmodes : ∀ flags ∈ loaderFlags, flags &&& ~~~xdpFlagsModes ∈ loaderFlags ∧
      flags &&& ~~~xdpFlagsModes ||| xdpFlagsSkbMode ∈ loaderFlags ∧
        flags &&& ~~~xdpFlagsModes ||| xdpFlagsDrvMode ∈ loaderFlags ∧
          flags &&& ~~~xdpFlagsUpdateIfNoexist ∈ loaderFlags := by
    refine List.forall_iff_forall_mem.mp ?_
    decide
  obtain ⟨hauto, hskb, hdrv, hforce⟩ := hmodes cfg.xdpFlags hcfg
  cases opt with
  | dev name =>
      simp only [parseOption] at hok
      split_ifs at hok
      exact (Except.ok.inj hok) ▸ hcfg
  | redirectDev name =>
      simp only [parseOption] at hok
      split_ifs at hok
      exact (Except.ok.inj hok) ▸ hcfg
  | autoMode => exact (Except.ok.inj hok) ▸ hauto
  | skbMode => exact (Except.ok.inj hok) ▸ hskb
  | nativeMode => exact (Except.ok.inj hok) ▸ hdrv
  | force => exact (Except.ok.inj hok) ▸ hforce
  | usage => cases hok
  | _ => exact (Except.ok.inj hok) ▸ hcfg

theorem parseCmdlineArgs_flags {ifNametoindex : String → ℕ} {opts : List LoaderOption}
    {cfg : Config} (hok : parseCmdlineArgs ifNametoindex opts Config.default = .ok cfg) :
    cfg.xdpFlags ∈ loaderFlags :=
  foldlM_invariant (fun cfg ↦ cfg.xdpFlags ∈ loaderFlags)
    (fun _ _ _ _ hcfg hstep ↦ parseOption_flags hcfg hstep) (by decide) hok

/-- The flags of the loader ask for one mode at most, and for nothing unknown. -/
theorem loaderFlags_valid : ∀ flags ∈ loaderFlags, flags &&& ~~~xdpFlagsMask = 0 ∧
    ¬(flags &&& xdpFlagsModes ≠ 0 ∧
      flags &&& xdpFlagsModes &&& ((flags &&& xdpFlagsModes) - 1) ≠ 0) := by
  refine List.forall_iff_forall_mem.mp ?_
  decide

def nativeAttr : NlAttr := ⟨2, [1], [0, 0, 0], by decide, by decide, by decide⟩

def nativeXdp : List NlAttr := [nativeAttr, wordAttr 4 77]

def nativeXdpAttr : NlAttr :=
  ⟨43, nativeXdp.flatMap NlAttr.bytes, [], by decide, no_pad_short, by decide⟩

theorem lastOf_nativeXdp (kind : ℕ) : lastOf nativeXdp kind =
    if kind = 4 then some (wordAttr 4 77) else if kind = 2 then some nativeAttr else none := by
  have hmode : nativeAttr.kind = 2 := by decide
  have hid : (wordAttr 4 77).kind = 4 := by decide
  unfold lastOf nativeXdp
  split_ifs with h₁ h₂
  · simp [h₁, hmode, hid]
  · simp [h₂, hmode, hid]
  · simp [Ne.symm h₁, Ne.symm h₂, hmode, hid]

theorem lastOf_native (kind : ℕ) : lastOf [wordAttr 4 1500, nativeXdpAttr] kind =
    if kind = 43 then some nativeXdpAttr
    else if kind = 4 then some (wordAttr 4 1500) else none := by
  have hmtu : (wordAttr 4 1500).kind = 4 := by decide
  have hxdp : nativeXdpAttr.kind = 43 := by decide
  unfold lastOf
  split_ifs with h₁ h₂
  · simp [h₁, hmtu, hxdp]
  · simp [h₂, hmtu, hxdp]
  · simp [Ne.symm h₁, Ne.symm h₂, hmtu, hxdp]

/-- Interface `2` with the program `77` in native mode. -/
def nativeDump : LinkDump where
  msg := ⟨16, 2, 1000, 9, [0, 0, 1, 0] ++ (image32 2 ++ (List.replicate 8 0 ++
    [wordAttr 4 1500, nativeXdpAttr].flatMap NlAttr.bytes)), [], by decide, no_pad_short, by decide⟩
  front := [0, 0, 1, 0]
  index := 2
  back := List.replicate 8 0
  attrs := [wordAttr 4 1500, nativeXdpAttr]
  xdp := nativeXdp
  payload := rfl
  front_length := rfl
  back_length := rfl
  nested a ha := by
    rw [lastOf_native] at ha
    obtain rfl := Option.some.inj ha
    rfl
  mode_size a ha := by
    rw [lastOf_nativeXdp] at ha
    obtain rfl := Option.some.inj ha
    decide
  id_size kind hkind a ha := by
    rw [lastOf_nativeXdp] at ha
    split_ifs at ha with h₁ h₂
    · obtain rfl := Option.some.inj ha
      decide
    · subst h₂
      exact absurd hkind (by decide)

def nativeDone : NlMsg := ⟨3, 2, 1000, 9, [0, 0, 0, 0], [], by decide, no_pad_short, by decide⟩

end AntiDos
