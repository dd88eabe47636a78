import AntiDos.Netlink.Messages
import AntiDos.Loader.Link

/-!
# The request to attach a program

`bpf_set_link_xdp_fd` writes an attribute with the descriptor, and one with the flags if there are
any, into the buffer behind the header of a request, and waits for the acknowledgement. What it
sends is a message from which the parser reads the interface, the descriptor and the flags back, and
its result is the error of the acknowledgement, as in the step that the loader takes.
-/

namespace AntiDos

open Bytes Faulting Frames

/-! ## The calls -/

/-- The answers to the calls of `libbpf_netlink_open`: error numbers, the length of the address, and
the number of the port. -/
structure NetlinkOpen where
  socket : ℕ
  bind : ℕ
  getsockname : ℕ
  addrlen : ℕ
  nlPid : UInt32

abbrev sizeofSockaddrNl : ℕ := 12

/-- `LIBBPF_ERRNO__INTERNAL`. -/
abbrev errnoInternal : Int := 4004

/-- A failure of `setsockopt` is only reported. -/
def libbpfNetlinkOpen (r : NetlinkOpen) : Except Int UInt32 :=
  if r.socket ≠ 0 then .error (-r.socket)
  else if r.bind ≠ 0 then .error (-r.bind)
  else if r.getsockname ≠ 0 then .error (-r.getsockname)
  else if r.addrlen ≠ sizeofSockaddrNl then .error (-errnoInternal)
  else .ok r.nlPid

/-- The answers to the calls of one request, and what the buffer of the answers holds before. -/
structure NetlinkReplies where
  opened : NetlinkOpen
  send : ℕ
  received : List RecvReply
  stale : List UInt8

abbrev rtmSetlink : UInt16 := 19

abbrev nlmFRequest : UInt16 := 1

abbrev nlmFAck : UInt16 := 4

abbrev nlaFNested : UInt16 := 0x8000

abbrev iflaXdp : UInt16 := 43

abbrev iflaXdpFd : UInt16 := 1

abbrev iflaXdpFlags : UInt16 := 3

/-- The structure `req`. The fields of the header and of `struct ifinfomsg` that stay zero are left
out of it. -/
structure SetLinkReq where
  nlmsgLen : UInt32
  nlmsgType : UInt16
  nlmsgFlags : UInt16
  nlmsgSeq : UInt32
  ifiIndex : UInt32
  attrbuf : List UInt8

def SetLinkReq.image (req : SetLinkReq) : List UInt8 :=
  image32 req.nlmsgLen ++ (image16 req.nlmsgType ++ (image16 req.nlmsgFlags ++
    (image32 req.nlmsgSeq ++ (image32 0 ++ ([0, 0, 0, 0] ++ (image32 req.ifiIndex ++
      ([0, 0, 0, 0, 0, 0, 0, 0] ++ req.attrbuf)))))))

/-- An attribute with a word goes to the end of the attribute at the beginning of the buffer, which
grows by it. -/
def addXdpAttr (type : UInt16) (value : UInt32) (attrbuf : List UInt8) :
    Except NlFault (List UInt8) := do
  let nlaLen ← load16 .outside attrbuf 0
  let nlaXdp := nlaLen.toNat
  let attrbuf ← store .outside attrbuf (nlaXdp + 2) (image16 type)
  let attrbuf ← store .outside attrbuf nlaXdp (image16 8)
  let attrbuf ← store .outside attrbuf (nlaXdp + nlaHdrlen) (image32 value)
  let xdpLen ← load16 .outside attrbuf nlaXdp
  store .outside attrbuf 0 (image16 (nlaLen + xdpLen))

/-- The buffer `attrbuf`, which begins where the length of the message so far ends. -/
def xdpAttrbuf (fd flags : UInt32) : Except NlFault (List UInt8) := do
  let attrbuf := List.replicate 64 0
  let attrbuf ← store .outside attrbuf 2 (image16 (nlaFNested ||| iflaXdp))
  let attrbuf ← store .outside attrbuf 0 (image16 4)
  let attrbuf ← addXdpAttr iflaXdpFd fd attrbuf
  -- if user passed in any flags, add those too
  if flags ≠ 0 then addXdpAttr iflaXdpFlags flags attrbuf else .ok attrbuf

/-- The bytes that are sent. -/
def setLinkRequest (ifindex fd flags : UInt32) : Except NlFault (List UInt8) := do
  let attrbuf ← xdpAttrbuf fd flags
  let nlaLen ← load16 .outside attrbuf 0
  let req : SetLinkReq :=
    { nlmsgLen := 32 + nlAlign nlaLen.toUInt32
      nlmsgType := rtmSetlink
      nlmsgFlags := nlmFRequest ||| nlmFAck
      nlmsgSeq := 1
      ifiIndex := ifindex
      attrbuf := attrbuf }
  .ok (req.image.take req.nlmsgLen.toNat)

/-- `bpf_set_link_xdp_fd`, with what it sends. -/
def netlinkSetLinkXdpFd (r : NetlinkReplies) (ifindex fd flags : UInt32) :
    Except NlFault (Int × Option (List UInt8)) :=
  match libbpfNetlinkOpen r.opened with
  | .error ret => .ok (ret, none)
  | .ok nlPid => do
      let req ← setLinkRequest ifindex fd flags
      if r.send ≠ 0 then .ok (-r.send, none)
      else
        let res ← bpfNetlinkRecv nlPid 1 none r.received r.stale ()
        .ok (res.1, some req)

/-! ## What is sent -/

section Request

variable {fault : ℕ → NlFault} {f front bs post : List UInt8} {i : ℕ}

theorem store_at (old : List UInt8) (hf : f = front ++ (old ++ post)) (hi : front.length = i)
    (hlen : old.length = bs.length) : store fault f i bs = .ok (front ++ (bs ++ post)) := by
  subst hf hi
  have hroom : front.length + bs.length ≤ (front ++ (old ++ post)).length := by
    simp only [List.length_append]
    omega
  rw [store, if_pos hroom, List.take_left, ← hlen, ← List.drop_drop, List.drop_left,
    List.drop_left]

/-- An attribute with a word. -/
def wordAttr (type : UInt16) (value : UInt32) : NlAttr where
  type := type
  value := image32 value
  pad := []
  fits := by
    rw [length_image32]
    decide
  short := no_pad_short
  aligned := by
    rw [length_image32]
    decide

theorem wordAttr_bytes (type : UInt16) (value : UInt32) :
    (wordAttr type value).bytes = image16 8 ++ (image16 type ++ image32 value) := rfl

/-- The attribute goes behind what is there, and the length of the outer one grows by its size. -/
theorem addXdpAttr_eq (front o₁ o₂ o₃ : List UInt8) {tail : List UInt8} {len type : UInt16}
    {value : UInt32} (hfront : front = image16 len ++ tail) (hlen : front.length = len.toNat)
    (h₁ : o₁.length = 2) (h₂ : o₂.length = 2) (h₃ : o₃.length = 4) :
    addXdpAttr type value (front ++ (o₁ ++ (o₂ ++ (o₃ ++ post)))) =
      .ok (image16 (len + 8) ++ (tail ++ ((wordAttr type value).bytes ++ post))) := by
  have hlength : load16 NlFault.outside (front ++ (o₁ ++ (o₂ ++ (o₃ ++ post)))) 0 = .ok len := by
    have hdrop : (front ++ (o₁ ++ (o₂ ++ (o₃ ++ post)))).drop 0 =
        image16 len ++ (tail ++ (o₁ ++ (o₂ ++ (o₃ ++ post)))) := by
      rw [List.drop_zero, hfront, List.append_assoc]
    exact load16_of_drop hdrop
  have htype : store NlFault.outside (front ++ (o₁ ++ (o₂ ++ (o₃ ++ post)))) (len.toNat + 2)
      (image16 type) = .ok ((front ++ o₁) ++ (image16 type ++ (o₃ ++ post))) := by
    refine store_at o₂ (List.append_assoc _ _ _).symm ?_ h₂
    rw [List.length_append, hlen, h₁]
  have hsize : store NlFault.outside ((front ++ o₁) ++ (image16 type ++ (o₃ ++ post))) len.toNat
      (image16 8) = .ok (front ++ (image16 8 ++ (image16 type ++ (o₃ ++ post)))) :=
    store_at o₁ (List.append_assoc _ _ _) hlen h₁
  have hvalue : store NlFault.outside (front ++ (image16 8 ++ (image16 type ++ (o₃ ++ post))))
      (len.toNat + nlaHdrlen) (image32 value) =
      .ok ((front ++ (image16 8 ++ image16 type)) ++ (image32 value ++ post)) := by
    refine store_at o₃ (by simp only [List.append_assoc]) ?_ h₃
    rw [List.length_append, hlen]
    rfl
  have hback : load16 NlFault.outside ((front ++ (image16 8 ++ image16 type)) ++ (image32 value ++
      post)) len.toNat = .ok 8 := by
    have hdrop : ((front ++ (image16 8 ++ image16 type)) ++ (image32 value ++ post)).drop
        len.toNat = image16 8 ++ (image16 type ++ (image32 value ++ post)) := by
      rw [List.append_assoc, ← hlen, List.drop_left, List.append_assoc]
    exact load16_of_drop hdrop
  have hgrow : store NlFault.outside ((front ++ (image16 8 ++ image16 type)) ++ (image32 value ++
      post)) 0 (image16 (len + 8)) =
      .ok ([] ++ (image16 (len + 8) ++ (tail ++ ((wordAttr type value).bytes ++ post)))) := by
    refine store_at (image16 len) ?_ rfl rfl
    rw [hfront, wordAttr_bytes]
    simp only [List.append_assoc, List.nil_append]
  rw [addXdpAttr, hlength, ok_bind]
  dsimp only
  rw [htype, ok_bind, hsize, ok_bind, hvalue, ok_bind, hback, ok_bind, hgrow, List.nil_append]

/-- The attributes that the request carries for its interface. -/
def xdpAttrs (fd flags : UInt32) : List NlAttr :=
  wordAttr iflaXdpFd fd :: if flags = 0 then [] else [wordAttr iflaXdpFlags flags]

theorem xdpAttrs_length (fd flags : UInt32) :
    ((xdpAttrs fd flags).flatMap NlAttr.bytes).length = if flags = 0 then 8 else 16 := by
  unfold xdpAttrs
  split_ifs <;> rfl

/-- The attribute around them. -/
def xdpAttr (fd flags : UInt32) : NlAttr where
  type := nlaFNested ||| iflaXdp
  value := (xdpAttrs fd flags).flatMap NlAttr.bytes
  pad := []
  fits := by
    rw [xdpAttrs_length]
    split_ifs <;> decide
  short := no_pad_short
  aligned := by
    rw [xdpAttrs_length]
    split_ifs <;> decide

theorem xdpAttr_bytes {fd flags : UInt32} {attrs : List NlAttr} (len : UInt16)
    (hattrs : xdpAttrs fd flags = attrs)
    (hlen : UInt16.ofNat (4 + (attrs.flatMap NlAttr.bytes).length) = len) :
    (xdpAttr fd flags).bytes =
      image16 len ++ (image16 (nlaFNested ||| iflaXdp) ++ attrs.flatMap NlAttr.bytes) := by
  subst hattrs hlen
  have hvalue : (xdpAttr fd flags).value ++ (xdpAttr fd flags).pad =
      (xdpAttrs fd flags).flatMap NlAttr.bytes := List.append_nil _
  rw [NlAttr.bytes, hvalue]
  rfl

theorem xdpAttrbuf_eq (fd flags : UInt32) :
    ∃ zeros, xdpAttrbuf fd flags = .ok ((xdpAttr fd flags).bytes ++ zeros) := by
  have htype : store NlFault.outside (List.replicate 64 0) 2 (image16 (nlaFNested ||| iflaXdp)) =
      .ok ([0, 0] ++ (image16 (nlaFNested ||| iflaXdp) ++ List.replicate 60 0)) :=
    store_at [0, 0] rfl rfl rfl
  have hlen : store NlFault.outside ([0, 0] ++ (image16 (nlaFNested ||| iflaXdp) ++
      List.replicate 60 0)) 0 (image16 4) =
      .ok ([] ++ (image16 4 ++ (image16 (nlaFNested ||| iflaXdp) ++ List.replicate 60 0))) :=
    store_at [0, 0] rfl rfl rfl
  have hfd : addXdpAttr iflaXdpFd fd (image16 4 ++ (image16 (nlaFNested ||| iflaXdp) ++
      List.replicate 60 0)) = .ok (image16 12 ++ (image16 (nlaFNested ||| iflaXdp) ++
        ((wordAttr iflaXdpFd fd).bytes ++ List.replicate 52 0))) :=
    addXdpAttr_eq (image16 4 ++ image16 (nlaFNested ||| iflaXdp)) [0, 0] [0, 0] [0, 0, 0, 0]
      rfl rfl rfl rfl rfl
  rw [xdpAttrbuf]
  rw [htype, ok_bind, hlen, ok_bind, List.nil_append, hfd, ok_bind]
  by_cases hflags : flags = 0
  · have hattrs : xdpAttrs fd flags = [wordAttr iflaXdpFd fd] := by rw [xdpAttrs, if_pos hflags]
    refine ⟨List.replicate 52 0, ?_⟩
    rw [if_neg (not_not_intro hflags), xdpAttr_bytes 12 hattrs rfl]
    rfl
  · have hattrs : xdpAttrs fd flags = [wordAttr iflaXdpFd fd, wordAttr iflaXdpFlags flags] := by
      rw [xdpAttrs, if_neg hflags]
    have hmore : addXdpAttr iflaXdpFlags flags (image16 12 ++ (image16 (nlaFNested ||| iflaXdp) ++
        ((wordAttr iflaXdpFd fd).bytes ++ List.replicate 52 0))) =
        .ok (image16 20 ++ ((image16 (nlaFNested ||| iflaXdp) ++ (wordAttr iflaXdpFd fd).bytes) ++
          ((wordAttr iflaXdpFlags flags).bytes ++ List.replicate 44 0))) :=
      addXdpAttr_eq (image16 12 ++ (image16 (nlaFNested ||| iflaXdp) ++
        (wordAttr iflaXdpFd fd).bytes)) [0, 0] [0, 0] [0, 0, 0, 0] rfl rfl rfl rfl rfl
    refine ⟨List.replicate 44 0, ?_⟩
    rw [if_pos hflags, hmore, xdpAttr_bytes 20 hattrs rfl]
    rfl

/-- The message that is sent. -/
def setLinkMsg (ifindex fd flags : UInt32) : NlMsg where
  type := rtmSetlink
  flags := nlmFRequest ||| nlmFAck
  seq := 1
  pid := 0
  payload := [0, 0, 0, 0] ++ (image32 ifindex ++ ([0, 0, 0, 0, 0, 0, 0, 0] ++
    (xdpAttr fd flags).bytes))
  pad := []
  fits := by
    have hfits := (xdpAttr fd flags).fits
    have hlen := (xdpAttr fd flags).length_bytes
    have hshort := (xdpAttr fd flags).short
    simp only [List.length_append, length_image32, List.length_cons, List.length_nil]
    dsimp only [nlmsgHdrlen, nlaHdrlen] at *
    omega
  short := no_pad_short
  aligned := by
    have haligned := (xdpAttr fd flags).aligned
    have hlen := (xdpAttr fd flags).length_bytes
    simp only [List.length_append, length_image32, List.length_cons, List.length_nil]
    dsimp only [nlaHdrlen] at hlen
    omega

theorem setLinkMsg_len (ifindex fd flags : UInt32) :
    (setLinkMsg ifindex fd flags).len.toNat = 32 + (xdpAttr fd flags).bytes.length := by
  rw [NlMsg.len_toNat]
  simp only [setLinkMsg, List.length_append, length_image32, List.length_cons, List.length_nil]
  dsimp only [nlmsgHdrlen]
  omega

theorem setLinkRequest_eq (ifindex fd flags : UInt32) :
    setLinkRequest ifindex fd flags = .ok (setLinkMsg ifindex fd flags).bytes := by
  obtain ⟨zeros, hbuf⟩ := xdpAttrbuf_eq fd flags
  have hlen : 32 + nlAlign (xdpAttr fd flags).len.toUInt32 = (setLinkMsg ifindex fd flags).len := by
    have hbytes := (xdpAttr fd flags).nlAlign_len
    have hmsg := setLinkMsg_len ifindex fd flags
    have hsmall := (setLinkMsg ifindex fd flags).len.toNat_lt
    apply UInt32.toNat_inj.mp
    rw [UInt32.toNat_add, hbytes, hmsg]
    change (32 + _) % 4294967296 = _
    omega
  rw [setLinkRequest, hbuf, ok_bind, load_len_of_drop (i := 0) rfl, ok_bind]
  dsimp only
  rw [hlen]
  refine congrArg Except.ok ?_
  have himage : SetLinkReq.image
      ⟨(setLinkMsg ifindex fd flags).len, rtmSetlink, nlmFRequest ||| nlmFAck, 1, ifindex,
        (xdpAttr fd flags).bytes ++ zeros⟩ = (setLinkMsg ifindex fd flags).bytes ++ zeros := by
    simp only [SetLinkReq.image, NlMsg.bytes, setLinkMsg, List.append_assoc, List.append_nil]
  have htake : (setLinkMsg ifindex fd flags).bytes.length =
      (setLinkMsg ifindex fd flags).len.toNat := by
    rw [NlMsg.length_bytes, NlMsg.len_toNat]
    rfl
  rw [himage]
  exact List.take_left' htake

/-! ## What is read back -/

abbrev iflaMax : ℕ := 53

abbrev iflaXdpMax : ℕ := 7

/-- The interface, the descriptor and the flags that a request asks for, as the parser finds them;
without an attribute there are no flags. -/
def readSetLink (req : List UInt8) : Except NlFault (Option (UInt32 × UInt32 × UInt32)) := do
  let nlmsgLen ← load32 .outside req 0
  let type ← load16 .outside req 4
  let ifindex ← load32 .outside req (nlmsgHdrlen + 4)
  if type ≠ rtmSetlink then .ok none
  else
    let tb ← libbpfNlaParse req iflaMax 32 (nlmsgLen.toNat - 32) none
    match tb.2 iflaXdp.toNat with
    | none => .ok none
    | some nla => do
        let xdpTb ← libbpfNlaParseNested req iflaXdpMax nla none
        match xdpTb.2 iflaXdpFd.toNat with
        | none => .ok none
        | some nlaFd => do
            let fd ← load32 .outside req (nlaFd + nlaHdrlen)
            match xdpTb.2 iflaXdpFlags.toNat with
            | none => .ok (some (ifindex, fd, 0))
            | some nlaFlags => do
                let flags ← load32 .outside req (nlaFlags + nlaHdrlen)
                .ok (some (ifindex, fd, flags))

theorem load_wordAttr {type : UInt16} {value : UInt32}
    (h : f.drop i = (wordAttr type value).bytes ++ post) :
    load32 NlFault.outside f (i + nlaHdrlen) = .ok value :=
  load32_of_drop (value_of_drop h)

theorem kind_wordAttr_fd (fd : UInt32) : (wordAttr iflaXdpFd fd).kind = iflaXdpFd.toNat := by
  change (iflaXdpFd &&& nlaTypeMask).toNat = _
  decide

theorem kind_wordAttr_flags (flags : UInt32) :
    (wordAttr iflaXdpFlags flags).kind = iflaXdpFlags.toNat := by
  change (iflaXdpFlags &&& nlaTypeMask).toNat = _
  decide

theorem kind_xdpAttr (fd flags : UInt32) : (xdpAttr fd flags).kind = iflaXdp.toNat := by
  change ((nlaFNested ||| iflaXdp) &&& nlaTypeMask).toNat = _
  decide

theorem lastOf_singleton {kind : ℕ} {a : NlAttr} (h : a.kind = kind) :
    lastOf [a] kind = some a := by
  rw [← h]
  exact lastOf_append_self [] a

theorem lastOf_xdpAttrs_fd (fd flags : UInt32) :
    lastOf (xdpAttrs fd flags) iflaXdpFd.toNat = some (wordAttr iflaXdpFd fd) := by
  have hfd := lastOf_singleton (kind_wordAttr_fd fd)
  have hne : (wordAttr iflaXdpFlags flags).kind ≠ iflaXdpFd.toNat := by
    rw [kind_wordAttr_flags]
    decide
  unfold xdpAttrs
  split_ifs
  · exact hfd
  · exact (lastOf_append_ne [wordAttr iflaXdpFd fd] hne).trans hfd

theorem lastOf_xdpAttrs_flags (fd flags : UInt32) :
    lastOf (xdpAttrs fd flags) iflaXdpFlags.toNat =
      if flags = 0 then none else some (wordAttr iflaXdpFlags flags) := by
  have hne : (wordAttr iflaXdpFd fd).kind ≠ iflaXdpFlags.toNat := by
    rw [kind_wordAttr_fd]
    decide
  unfold xdpAttrs
  split_ifs
  · exact lastOf_append_ne [] hne
  · rw [← kind_wordAttr_flags flags]
    exact lastOf_append_self [wordAttr iflaXdpFd fd] _

/-- The parser reads the interface, the descriptor and the flags back from a request. -/
theorem readSetLink_request (ifindex fd flags : UInt32) :
    readSetLink (setLinkMsg ifindex fd flags).bytes = .ok (some (ifindex, fd, flags)) := by
  have hdrop : (setLinkMsg ifindex fd flags).bytes.drop 0 =
      (setLinkMsg ifindex fd flags).bytes ++ [] := (List.append_nil _).symm
  obtain ⟨hlen, htype, -, -, -, hpayload⟩ := NlMsg.at_of_drop hdrop
  generalize (setLinkMsg ifindex fd flags).bytes = f at hlen htype hpayload ⊢
  have hindex : f.drop (nlmsgHdrlen + 4) =
      image32 ifindex ++ ([0, 0, 0, 0, 0, 0, 0, 0] ++ ((xdpAttr fd flags).bytes ++ [])) := by
    have hzeros : f.drop nlmsgHdrlen = [0, 0, 0, 0] ++ (image32 ifindex ++
        ([0, 0, 0, 0, 0, 0, 0, 0] ++ ((xdpAttr fd flags).bytes ++ []))) := by
      rw [Nat.zero_add] at hpayload
      rw [hpayload]
      simp only [setLinkMsg, List.append_nil]
    exact drop_of_append hzeros rfl
  have hattr : f.drop 32 = (xdpAttr fd flags).bytes ++ [] :=
    drop_of_append (drop_of_append hindex (length_image32 _)) rfl
  have hsize : ((setLinkMsg ifindex fd flags).len.toNat : Int) - 32 =
      (([xdpAttr fd flags].flatMap NlAttr.bytes).length : ℕ) := by
    rw [setLinkMsg_len, List.flatMap_singleton]
    omega
  have hsmall : ([xdpAttr fd flags].flatMap NlAttr.bytes).length < 2 ^ 31 := by
    have hfits := (setLinkMsg ifindex fd flags).fits
    have hmsg := (setLinkMsg ifindex fd flags).len_toNat
    omega
  have hsetlink : (setLinkMsg ifindex fd flags).type = rtmSetlink := rfl
  rw [← List.flatMap_singleton NlAttr.bytes] at hattr
  obtain ⟨tb, hparse, htb⟩ := libbpfNlaParse_attrs iflaMax hattr hsmall
  obtain ⟨i, post, hentry, hnested⟩ : Points f (tb iflaXdp.toNat) (some (xdpAttr fd flags)) := by
    rw [← lastOf_singleton (kind_xdpAttr fd flags)]
    exact htb _ (by decide)
  obtain ⟨xdpTb, hparseNested, hxdpTb⟩ :=
    libbpfNlaParseNested_attrs iflaXdpMax hnested rfl
  have hfd := hxdpTb iflaXdpFd.toNat (by decide)
  have hflags := hxdpTb iflaXdpFlags.toNat (by decide)
  rw [lastOf_xdpAttrs_fd] at hfd
  rw [lastOf_xdpAttrs_flags] at hflags
  obtain ⟨j, postFd, hentryFd, hdropFd⟩ := hfd
  rw [readSetLink, hlen, ok_bind, htype, ok_bind, load32_of_drop hindex, ok_bind,
    if_neg (not_not_intro hsetlink), hsize, hparse, ok_bind]
  dsimp only
  rw [hentry]
  dsimp only
  rw [hparseNested, ok_bind]
  dsimp only
  rw [hentryFd]
  dsimp only
  rw [load_wordAttr hdropFd, ok_bind]
  by_cases hzero : flags = 0
  · rw [if_pos hzero] at hflags
    rw [hzero, hflags]
  · rw [if_neg hzero] at hflags
    obtain ⟨k, postFlags, hentryFlags, hdropFlags⟩ := hflags
    rw [hentryFlags]
    dsimp only
    rw [load_wordAttr hdropFlags]
    rfl

end Request

/-! ## The acknowledgement -/

/-- The acknowledgement of the one request that was sent, with its error. -/
structure NlMsg.Acks (m : NlMsg) (pid : UInt32) : Prop where
  pid : m.pid = pid
  seq : m.seq = 1
  single : m.flags &&& nlmFMulti = 0
  type : m.type = nlmsgError
  payload : 4 ≤ m.payload.length
  size : m.bytes.length ≤ recvSize

theorem receiveAll_ack {m : NlMsg} {pid : UInt32} (h : m.Acks pid) :
    receiveAll (σ := Unit) id pid 1 none [[m]] () = .ok (m.error.toInt32.toInt, ()) := by
  have hrecv : m.receive pid 1 (σ := Unit) none (false, ()) =
      if m.error = 0 then .inr (false, ()) else .inl (m.error.toInt32.toInt, ()) := by
    unfold NlMsg.receive
    rw [if_neg (not_not_intro h.pid), if_neg (not_not_intro h.seq), if_pos h.type,
      if_neg (not_not_intro h.single)]
  rw [receiveAll, eachOf_cons, Option.map_none, id, hrecv]
  by_cases hzero : m.error = 0
  · rw [if_pos hzero, hzero]
    rfl
  · rw [if_neg hzero]
    rfl

/-- Attaching or removing a program by netlink: the request asks for what the call was given, and
the result is the one of the step of the loader that the kernel answers with the same error. -/
theorem netlink_set_link (r : NetlinkReplies) (ifindex fd flags pid : UInt32) (ack : NlMsg)
    (reply : LinkReply) (h : Host) (hopen : libbpfNetlinkOpen r.opened = .ok pid)
    (hsend : r.send = 0) (hrecv : r.received = [datagram id [ack]]) (hack : ack.Acks pid)
    (herror : ack.error.toInt32.toInt = -reply.errno) :
    ∃ req, netlinkSetLinkXdpFd r ifindex fd flags =
        .ok ((bpfSetLinkXdpFd reply ifindex.toInt32.toInt fd.toInt32.toInt flags h).1, some req) ∧
      readSetLink req = .ok (some (ifindex, fd, flags)) := by
  have hstep : (bpfSetLinkXdpFd reply ifindex.toInt32.toInt fd.toInt32.toInt flags h).1 =
      -reply.errno := by
    unfold bpfSetLinkXdpFd
    split_ifs with herrno
    · rfl
    · simp [not_not.mp herrno]
    · simp [not_not.mp herrno]
  have hwalk : bpfNetlinkRecv pid 1 (none : Option (DumpNlmsg Unit)) ([[ack]].map (datagram id))
      r.stale () = receiveAll id pid 1 none [[ack]] () :=
    recv_messages pid 1 none none [[ack]] r.stale () (by simpa [image] using hack.size)
      (by simpa using ⟨fun _ ↦ hack.payload, fun hne ↦ absurd hack.type hne⟩)
  refine ⟨_, ?_, readSetLink_request ifindex fd flags⟩
  rw [netlinkSetLinkXdpFd, hopen]
  dsimp only
  rw [setLinkRequest_eq, ok_bind, if_neg (not_not_intro hsend), hrecv]
  rw [List.map_singleton] at hwalk
  rw [hwalk, receiveAll_ack hack, ok_bind, hstep, herror]

/-- The acknowledgement `-EEXIST` of a first request, in a capped message. -/
def eexistAck : NlMsg where
  type := nlmsgError
  flags := 0x100
  seq := 1
  pid := 77
  payload := image32 (UInt32.ofNat (2 ^ 32 - 17)) ++ List.replicate 16 0
  pad := []
  fits := by decide
  short := no_pad_short
  aligned := by decide

theorem netlink_set_link_refused :
    ∃ req, netlinkSetLinkXdpFd ⟨⟨0, 0, 0, 12, 77⟩, 0, [datagram id [eexistAck]], []⟩ 2 4 5 =
        .ok (-17, some req) ∧
      readSetLink req = .ok (some (2, 4, 5)) :=
  netlink_set_link ⟨⟨0, 0, 0, 12, 77⟩, 0, [datagram id [eexistAck]], []⟩ 2 4 5 77 eexistAck
    ⟨17, .drv⟩ ⟨fun _ ↦ none, fun _ ↦ none, fun _ ↦ 0⟩ rfl rfl rfl
    ⟨rfl, rfl, by decide, rfl, by decide, by decide⟩ (by decide)

end AntiDos
