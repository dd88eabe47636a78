import AntiDos.Netlink.Attributes

/-!
# Netlink messages

`bpf_netlink_recv` receives datagrams into one buffer and goes through the messages of each. It goes
on receiving while a message of the datagram is marked as a part of several, and ends at the first
message that is not for it, that brings an error, that ends a dump, or at which the callback fails.
On well-formed messages this is a walk over the messages, however they are spread over datagrams
and whatever the buffer held before.
-/

namespace AntiDos

open Bytes Faulting Frames

variable {σ : Type}

/-! ## Receiving -/

/-- The size of `struct nlmsghdr`, and `NLMSG_HDRLEN`. -/
abbrev nlmsgHdrlen : ℕ := 16

abbrev nlmFMulti : UInt16 := 2

abbrev nlmsgError : UInt16 := 2

abbrev nlmsgDone : UInt16 := 3

/-- `LIBBPF_ERRNO__WRNGPID`. -/
abbrev errnoWrngpid : Int := 4011

/-- `LIBBPF_ERRNO__INVSEQ`. -/
abbrev errnoInvseq : Int := 4012

/-- `LIBBPF_ERRNO__NLPARSE`. -/
abbrev errnoNlparse : Int := 4013

/-- The size of the buffer `buf`. -/
abbrev recvSize : ℕ := 4096

/-- The outcome of a call of `recv`: an error number, or a datagram. -/
inductive RecvReply
  | failed (errno : ℕ)
  | data (bytes : List UInt8)

/-- `NLMSG_OK`. -/
def nlmsgOk (f : List UInt8) (nh : ℕ) (len : Int) : Except NlFault Bool := do
  if len < nlmsgHdrlen then .ok false
  else
    let nlmsgLen ← load32 .outside f nh
    .ok (nlmsgHdrlen ≤ nlmsgLen.toNat ∧ (nlmsgLen.toNat : Int) ≤ len)

/-- `NLMSG_NEXT`. -/
def nlmsgNext (f : List UInt8) (nh : ℕ) : Except NlFault ℕ := do
  let nlmsgLen ← load32 .outside f nh
  .ok (nlAlign nlmsgLen).toNat

/-- A function called with the buffer and the place of a message in it. -/
abbrev DumpNlmsg (σ : Type) := List UInt8 → ℕ → σ → Except NlFault (Int × σ)

/-- One turn of the inner loop of `bpf_netlink_recv`, on `multipart` and what the callback works
on. The text that comes with an error is printed only. -/
def recvMessage (f : List UInt8) (nlPid seq : UInt32) (fn : Option (DumpNlmsg σ)) (nh : ℕ)
    (s : Bool × σ) : Except NlFault ((Int × σ) ⊕ (Bool × σ)) := do
  let pid ← load32 .outside f (nh + 12)
  if pid ≠ nlPid then .ok (.inl (-errnoWrngpid, s.2))
  else
    let msgSeq ← load32 .outside f (nh + 8)
    if msgSeq ≠ seq then .ok (.inl (-errnoInvseq, s.2))
    else
      let flags ← load16 .outside f (nh + 6)
      let multipart := if flags &&& nlmFMulti ≠ 0 then true else s.1
      let type ← load16 .outside f (nh + 4)
      if type = nlmsgError then
        let error ← load32 .outside f (nh + nlmsgHdrlen)
        if error = 0 then .ok (.inr (multipart, s.2))
        else .ok (.inl (error.toInt32.toInt, s.2))
      else if type = nlmsgDone then .ok (.inl (0, s.2))
      else
        match fn with
        | none => .ok (.inr (multipart, s.2))
        | some fn =>
            let res ← fn f nh s.2
            if res.1 ≠ 0 then .ok (.inl res) else .ok (.inr (multipart, res.2))

/-- `bpf_netlink_recv` with the outcomes of its calls of `recv`, in their order, and what `buf`
holds. -/
def bpfNetlinkRecv (nlPid seq : UInt32) (fn : Option (DumpNlmsg σ)) :
    List RecvReply → List UInt8 → σ → Except NlFault (Int × σ)
  | [], _, _ => .error .blocked
  | .failed errno :: _, _, s => .ok (-errno, s)
  | .data bytes :: replies, buf, s => do
      let received := bytes.take recvSize
      if received.length = 0 then .ok (0, s)
      else
        let buf := received ++ buf.drop received.length
        let res ← eachFrame .cutOff (nlmsgOk buf) (nlmsgNext buf) (recvMessage buf nlPid seq fn)
          (received.length + 1) 0 received.length (false, s)
        match res with
        | .inl r => .ok r
        | .inr (multipart, s) =>
            if multipart then bpfNetlinkRecv nlPid seq fn replies buf s else .ok (0, s)

/-! ## Messages -/

/-- A message as it stands in a datagram, filled up to a multiple of four bytes. -/
structure NlMsg where
  type : UInt16
  flags : UInt16
  seq : UInt32
  pid : UInt32
  payload : List UInt8
  pad : List UInt8
  fits : nlmsgHdrlen + payload.length < 2 ^ 31
  short : pad.length < 4
  aligned : 4 ∣ payload.length + pad.length

namespace NlMsg

def len (m : NlMsg) : UInt32 := UInt32.ofNat (nlmsgHdrlen + m.payload.length)

def bytes (m : NlMsg) : List UInt8 :=
  image32 m.len ++ (image16 m.type ++ (image16 m.flags ++ (image32 m.seq ++ (image32 m.pid ++
    (m.payload ++ m.pad)))))

/-- The field `error` of `struct nlmsgerr`. -/
def error (m : NlMsg) : UInt32 :=
  le32 (byte m.payload 0) (byte m.payload 1) (byte m.payload 2) (byte m.payload 3)

@[simp] theorem len_toNat (m : NlMsg) : m.len.toNat = nlmsgHdrlen + m.payload.length := by
  have hfits := m.fits
  exact UInt32.toNat_ofNat_of_lt' (by change _ < 2 ^ 32; omega)

theorem length_bytes (m : NlMsg) :
    m.bytes.length = nlmsgHdrlen + m.payload.length + m.pad.length := by
  simp only [bytes, List.length_append, length_image16, length_image32]
  dsimp only [nlmsgHdrlen]
  omega

theorem nlAlign_len (m : NlMsg) : (nlAlign m.len).toNat = m.bytes.length := by
  have hlen := m.len_toNat
  have hfits := m.fits
  have hshort := m.short
  have haligned := m.aligned
  dsimp only [nlmsgHdrlen] at hlen hfits
  rw [nlAlign_toNat (by omega), hlen, length_bytes]
  dsimp only [nlmsgHdrlen]
  omega

/-- One message, to one who waits for messages with these numbers and calls `fn`. -/
def receive (pid seq : UInt32) (fn : Option (σ → Int × σ)) (m : NlMsg) (s : Bool × σ) :
    (Int × σ) ⊕ (Bool × σ) :=
  if m.pid ≠ pid then .inl (-errnoWrngpid, s.2)
  else if m.seq ≠ seq then .inl (-errnoInvseq, s.2)
  else
    let multipart := if m.flags &&& nlmFMulti ≠ 0 then true else s.1
    if m.type = nlmsgError then
      if m.error = 0 then .inr (multipart, s.2) else .inl (m.error.toInt32.toInt, s.2)
    else if m.type = nlmsgDone then .inl (0, s.2)
    else
      match fn with
      | none => .inr (multipart, s.2)
      | some fn => if (fn s.2).1 ≠ 0 then .inl (fn s.2) else .inr (multipart, (fn s.2).2)

end NlMsg

section Walk

variable {α : Type} (msg : α → NlMsg)

/-- Things of which each is told in a message, datagram by datagram; without a next one there is no
end. -/
def receiveAll (pid seq : UInt32) (fn : Option (α → σ → Int × σ)) :
    List (List α) → σ → Except NlFault (Int × σ)
  | [], _ => .error .blocked
  | xs :: datagrams, s => do
      let res ← eachOf (fun x s ↦ .ok ((msg x).receive pid seq (fn.map (· x)) s)) xs (false, s)
      match res with
      | .inl r => .ok r
      | .inr (multipart, s) =>
          if multipart then receiveAll pid seq fn datagrams s else .ok (0, s)

def image (x : α) : List UInt8 := (msg x).bytes

def datagram (xs : List α) : RecvReply := .data (xs.flatMap (image msg))

end Walk

/-! ## Reading a message where it lies -/

variable {f post : List UInt8} {i : ℕ} {m : NlMsg} {pid seq : UInt32}

/-- The fields of the header, and the payload behind it. -/
structure NlMsg.At (m : NlMsg) (f : List UInt8) (i : ℕ) (post : List UInt8) : Prop where
  len : load32 NlFault.outside f i = .ok m.len
  type : load16 NlFault.outside f (i + 4) = .ok m.type
  flags : load16 NlFault.outside f (i + 6) = .ok m.flags
  seq : load32 NlFault.outside f (i + 8) = .ok m.seq
  pid : load32 NlFault.outside f (i + 12) = .ok m.pid
  payload : f.drop (i + nlmsgHdrlen) = m.payload ++ (m.pad ++ post)

theorem NlMsg.at_of_drop (h : f.drop i = m.bytes ++ post) : m.At f i post := by
  unfold NlMsg.bytes at h
  simp only [List.append_assoc] at h
  have htype := drop_of_append h (length_image32 _)
  have hflags := drop_of_append htype (length_image16 _)
  have hseq := drop_of_append hflags (length_image16 _)
  have hpid := drop_of_append hseq (length_image32 _)
  have hpayload := drop_of_append hpid (length_image32 _)
  exact ⟨load32_of_drop h, load16_of_drop htype, load16_of_drop hflags, load32_of_drop hseq,
    load32_of_drop hpid, hpayload⟩

theorem NlMsg.At.error (h : m.At f i post) (hlen : 4 ≤ m.payload.length) :
    load32 NlFault.outside f (i + nlmsgHdrlen) = .ok m.error := by
  have hbyte : ∀ j < 4, byte f (i + nlmsgHdrlen + j) = byte m.payload j := by
    intro j hj
    rw [byte_of_drop h.payload]
    exact byte_append_left (by omega) _
  have hne : m.payload ++ (m.pad ++ post) ≠ [] :=
    List.append_ne_nil_of_left_ne_nil (List.ne_nil_of_length_pos (by omega)) _
  have hroom := length_of_drop h.payload hne
  rw [List.length_append] at hroom
  rw [load32_of_le (by omega), NlMsg.error, ← hbyte 0 (by decide), ← hbyte 1 (by decide),
    ← hbyte 2 (by decide), ← hbyte 3 (by decide)]
  rfl

section Walk

variable {α : Type} {msg : α → NlMsg} {x : α}

theorem NlMsg.reads (msg : α → NlMsg) (f : List UInt8) (x : α) :
    Reads f (image msg) (nlmsgOk f) (nlmsgNext f) recvSize x := by
  have hlen : (image msg x).length = _ := (msg x).length_bytes
  refine ⟨fun i post rem h hle _ ↦ ?_, fun i post h ↦ ?_⟩
  · dsimp only [nlmsgHdrlen] at hlen
    rw [nlmsgOk, if_neg (by dsimp only [nlmsgHdrlen]; omega), (NlMsg.at_of_drop h).len, ok_bind,
      NlMsg.len_toNat]
    exact congrArg Except.ok (decide_eq_true ⟨by omega, by dsimp only [nlmsgHdrlen]; omega⟩)
  · rw [nlmsgNext, (NlMsg.at_of_drop h).len, ok_bind, NlMsg.nlAlign_len]
    rfl

/-- The callback does on the bytes of a message what `fnOf` does on the thing it tells. -/
def Calls (msg : α → NlMsg) (fn : Option (DumpNlmsg σ)) (fnOf : Option (α → σ → Int × σ)) (x : α) :
    Prop :=
  match fn, fnOf with
  | none, none => True
  | some fn, some fnOf => ∀ f i post s, f.drop i = image msg x ++ post → fn f i s = .ok (fnOf x s)
  | _, _ => False

/-- A message of the kernel: an error comes with its number, and anything else is one that the
callback can take. -/
structure WellFormed (msg : α → NlMsg) (fn : Option (DumpNlmsg σ))
    (fnOf : Option (α → σ → Int × σ)) (x : α) : Prop where
  error : (msg x).type = nlmsgError → 4 ≤ (msg x).payload.length
  calls : (msg x).type ≠ nlmsgError → (msg x).type ≠ nlmsgDone → Calls msg fn fnOf x

variable {fn : Option (DumpNlmsg σ)} {fnOf : Option (α → σ → Int × σ)}

theorem recvMessage_of_drop (hx : WellFormed msg fn fnOf x) (h : f.drop i = image msg x ++ post)
    (s : Bool × σ) :
    recvMessage f pid seq fn i s = .ok ((msg x).receive pid seq (fnOf.map (· x)) s) := by
  have hat := NlMsg.at_of_drop h
  unfold recvMessage NlMsg.receive
  rw [hat.pid, ok_bind, hat.seq, ok_bind, hat.flags, ok_bind, hat.type, ok_bind]
  dsimp only
  by_cases hpid : (msg x).pid ≠ pid
  · rw [if_pos hpid, if_pos hpid]
  rw [if_neg hpid, if_neg hpid]
  by_cases hseq : (msg x).seq ≠ seq
  · rw [if_pos hseq, if_pos hseq]
  rw [if_neg hseq, if_neg hseq]
  by_cases herror : (msg x).type = nlmsgError
  · rw [if_pos herror, if_pos herror, hat.error (hx.error herror), ok_bind]
    by_cases hzero : (msg x).error = 0
    · rw [if_pos hzero, if_pos hzero]
    · rw [if_neg hzero, if_neg hzero]
  rw [if_neg herror, if_neg herror]
  by_cases hdone : (msg x).type = nlmsgDone
  · rw [if_pos hdone, if_pos hdone]
  rw [if_neg hdone, if_neg hdone]
  have hcalls := hx.calls herror hdone
  cases fn with
  | none =>
      cases fnOf with
      | none => rfl
      | some fnOf => exact hcalls.elim
  | some fn =>
      cases fnOf with
      | none => exact hcalls.elim
      | some fnOf =>
          dsimp only [Option.map_some]
          rw [hcalls f i post s.2 h, ok_bind]
          by_cases hret : (fnOf x s.2).1 ≠ 0
          · rw [if_pos hret, if_pos hret]
          · rw [if_neg hret, if_neg hret]

/-! ## Receiving messages -/

theorem length_le_flatMap (msg : α → NlMsg) (xs : List α) :
    xs.length ≤ (xs.flatMap (image msg)).length := by
  induction xs with
  | nil => exact Nat.le_refl 0
  | cons x xs ih =>
      have hx : (image msg x).length = _ := (msg x).length_bytes
      dsimp only [nlmsgHdrlen] at hx
      rw [List.flatMap_cons, List.length_append, List.length_cons]
      omega

/-- Receiving well-formed messages is the walk over what they tell, however they are spread over
datagrams and whatever the buffer holds. -/
theorem recv_messages (pid seq : UInt32) (fn : Option (DumpNlmsg σ))
    (fnOf : Option (α → σ → Int × σ)) (datagrams : List (List α)) (buf : List UInt8) (s : σ)
    (hfits : ∀ xs ∈ datagrams, (xs.flatMap (image msg)).length ≤ recvSize)
    (hwell : ∀ xs ∈ datagrams, ∀ x ∈ xs, WellFormed msg fn fnOf x) :
    bpfNetlinkRecv pid seq fn (datagrams.map (datagram msg)) buf s =
      receiveAll msg pid seq fnOf datagrams s := by
  induction datagrams generalizing buf s with
  | nil => rfl
  | cons xs datagrams ih =>
      obtain ⟨hxs, hrest⟩ := List.forall_mem_cons.mp hfits
      obtain ⟨hwellxs, hwellrest⟩ := List.forall_mem_cons.mp hwell
      have hfuel := length_le_flatMap msg xs
      rw [List.map_cons, datagram, bpfNetlinkRecv, List.take_of_length_le hxs, receiveAll]
      dsimp only
      by_cases hempty : (xs.flatMap (image msg)).length = 0
      · have hnil : xs = [] := List.length_eq_zero_iff.mp (by omega)
        subst hnil
        rw [if_pos hempty]
        rfl
      · rw [if_neg hempty]
        rw [eachFrame_eq (fun x _ ↦ NlMsg.reads msg _ x) (fun _ ↦ rfl)
          (fun x hx i post s hdrop ↦ recvMessage_of_drop (hwellxs x hx) hdrop s) rfl hxs
          (Nat.lt_add_one_of_le hfuel)]
        refine congrArg (_ >>= ·) (funext fun res ↦ ?_)
        cases res with
        | inl r => rfl
        | inr st =>
            obtain ⟨multipart, s'⟩ := st
            dsimp only
            rw [ih _ s' hrest hwellrest]

/-! ## A dump -/

/-- A part of a dump: a message marked so, for the one who asked. -/
structure NlMsg.Part (m : NlMsg) (pid seq : UInt32) : Prop where
  pid : m.pid = pid
  seq : m.seq = seq
  multi : m.flags &&& nlmFMulti ≠ 0
  noError : m.type ≠ nlmsgError
  notDone : m.type ≠ nlmsgDone

/-- The message behind the last part. -/
structure NlMsg.Done (m : NlMsg) (pid seq : UInt32) : Prop where
  pid : m.pid = pid
  seq : m.seq = seq
  done : m.type = nlmsgDone

theorem NlMsg.Part.receive {m : NlMsg} (h : m.Part pid seq) {act : σ → Int × σ}
    (hact : ∀ s, (act s).1 = 0) (s : Bool × σ) :
    m.receive pid seq (some act) s = .inr (true, (act s.2).2) := by
  unfold NlMsg.receive
  rw [if_neg (not_not_intro h.pid), if_neg (not_not_intro h.seq), if_neg h.noError,
    if_neg h.notDone, if_pos h.multi]
  exact if_neg (not_not_intro (hact s.2))

theorem NlMsg.Done.receive {m : NlMsg} (h : m.Done pid seq) (act : Option (σ → Int × σ))
    (s : Bool × σ) : m.receive pid seq act s = .inl (0, s.2) := by
  have herror : m.type ≠ nlmsgError := by
    rw [h.done]
    decide
  unfold NlMsg.receive
  rw [if_neg (not_not_intro h.pid), if_neg (not_not_intro h.seq), if_neg herror, if_pos h.done]

variable {items xs : List α} {last : α} {act : α → σ → Int × σ}

theorem eachOf_parts (hparts : ∀ x ∈ items, (msg x).Part pid seq)
    (hact : ∀ x ∈ items, ∀ s, (act x s).1 = 0) (s : Bool × σ) :
    eachOf (ε := NlFault) (fun x s ↦ .ok ((msg x).receive pid seq (some (act x)) s)) items s =
      .ok (.inr (s.1 || !items.isEmpty, items.foldl (fun s x ↦ (act x s).2) s.2)) := by
  induction items generalizing s with
  | nil =>
      obtain ⟨multipart, t⟩ := s
      simp [eachOf]
  | cons x items ih =>
      obtain ⟨hx, hrest⟩ := List.forall_mem_cons.mp hparts
      obtain ⟨hactx, hactrest⟩ := List.forall_mem_cons.mp hact
      rw [eachOf_cons, hx.receive hactx, ok_bind]
      dsimp only
      rw [ih hrest hactrest]
      simp

/-- The first datagram of a dump ends in its middle, or it is the last one. -/
theorem datagram_cases {rest : List (List α)} (hdump : (xs :: rest).flatten = items ++ [last]) :
    (∃ items', items = xs ++ items' ∧ rest.flatten = items' ++ [last]) ∨ xs = items ++ [last] := by
  rw [List.flatten_cons] at hdump
  rcases List.append_eq_append_iff.mp hdump with hmiddle | ⟨ys, rfl, hlast⟩
  · exact Or.inl hmiddle
  · cases ys with
    | nil => exact Or.inl ⟨[], by simp, hlast.symm⟩
    | cons y ys =>
        obtain ⟨rfl, hnil⟩ := List.cons.inj hlast
        obtain ⟨rfl, -⟩ := List.append_eq_nil_iff.mp hnil.symm
        exact Or.inr rfl

/-- A dump is walked through to its end, wherever it is cut into datagrams. -/
theorem receiveAll_dump {datagrams : List (List α)} (hdump : datagrams.flatten = items ++ [last])
    (hne : ∀ xs ∈ datagrams, xs ≠ []) (hparts : ∀ x ∈ items, (msg x).Part pid seq)
    (hact : ∀ x ∈ items, ∀ s, (act x s).1 = 0) (hlast : (msg last).Done pid seq) (s : σ) :
    receiveAll msg pid seq (some act) datagrams s =
      .ok (0, items.foldl (fun s x ↦ (act x s).2) s) := by
  induction datagrams generalizing items s with
  | nil => simp at hdump
  | cons xs datagrams ih =>
      obtain ⟨hxs, hrest⟩ := List.forall_mem_cons.mp hne
      rw [receiveAll]
      dsimp only [Option.map_some]
      rcases datagram_cases hdump with ⟨items', rfl, hflat⟩ | rfl
      · obtain ⟨hparts, hparts'⟩ := List.forall_mem_append.mp hparts
        obtain ⟨hact, hact'⟩ := List.forall_mem_append.mp hact
        have hmulti : (false || !xs.isEmpty) = true := by simp [hxs]
        rw [eachOf_parts hparts hact, ok_bind]
        dsimp only
        rw [if_pos hmulti, List.foldl_append]
        exact ih hflat hrest hparts' hact' _
      · rw [eachOf_append, eachOf_parts hparts hact, ok_bind]
        dsimp only
        rw [eachOf_cons, hlast.receive]
        rfl

end Walk

end AntiDos
