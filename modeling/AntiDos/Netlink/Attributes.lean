import AntiDos.Lib.Bytes
import AntiDos.Lib.Frames
import Mathlib.Algebra.Group.Int.Defs

/-!
# Netlink attributes

A netlink message carries attributes one behind the other: a length, a type, and a value filled up
to a multiple of four bytes. `libbpf_nla_parse` makes a table of them by type, in which the last
attribute of a type counts. `nla_ok` compares what remains of the stream with an unsigned size, so
that a stream of a length that is no multiple of four is read past its end.
-/

namespace AntiDos

open Bytes Faulting Frames

/-- A read outside the buffer, a loop cut off, or a wait for a message that does not come. -/
inductive NlFault
  | outside (offset : ℕ)
  | cutOff
  | blocked
deriving DecidableEq

/-! ## Parsing -/

/-- `NLA_ALIGN` and `NLMSG_ALIGN`. -/
def nlAlign (len : UInt32) : UInt32 := (len + 3) &&& ~~~3

/-- The size of `struct nlattr`, and `NLA_HDRLEN`. -/
abbrev nlaHdrlen : ℕ := 4

abbrev nlaTypeMask : UInt16 := 0x3fff

def nlaType (f : List UInt8) (nla : ℕ) : Except NlFault ℕ := do
  let type ← load16 .outside f (nla + 2)
  .ok (type &&& nlaTypeMask).toNat

def libbpfNlaLen (f : List UInt8) (nla : ℕ) : Except NlFault Int := do
  let len ← load16 .outside f nla
  .ok (len.toNat - nlaHdrlen)

def nlaNext (f : List UInt8) (nla : ℕ) : Except NlFault ℕ := do
  let len ← load16 .outside f nla
  .ok (nlAlign len.toUInt32).toNat

/-- `remaining` is compared as a `size_t` with the size of the header, and as an `int` with the
length of the attribute. -/
def nlaOk (f : List UInt8) (nla : ℕ) (remaining : Int) : Except NlFault Bool := do
  if remaining % 2 ^ 64 < nlaHdrlen then .ok false
  else
    let len ← load16 .outside f nla
    .ok (nlaHdrlen ≤ len.toNat ∧ (len.toNat : Int) ≤ remaining)

structure NlaPolicy where
  type : UInt16
  minlen : UInt16
  maxlen : UInt16

abbrev nlaUnspec : UInt16 := 0

abbrev nlaString : UInt16 := 5

/-- `LIBBPF_NLA_TYPE_MAX`. -/
abbrev nlaTypeMax : UInt16 := 8

def nlaAttrMinlen (type : UInt16) : ℕ := [0, 1, 2, 4, 8, 1, 0, 0, 0].getD type.toNat 0

/-- The `minlen` of `validate_nla`. -/
def NlaPolicy.least (pt : NlaPolicy) : ℕ :=
  if pt.minlen ≠ 0 then pt.minlen.toNat
  else if pt.type ≠ nlaUnspec then nlaAttrMinlen pt.type else 0

def validateNla (f : List UInt8) (nla maxtype : ℕ) (policy : ℕ → NlaPolicy) :
    Except NlFault Int := do
  let type ← nlaType f nla
  let pt := policy type
  if maxtype < type then .ok 0
  else if nlaTypeMax < pt.type then .ok 0
  else
    let len ← libbpfNlaLen f nla
    if len % 2 ^ 32 < pt.least then .ok (-1)
    else if pt.maxlen ≠ 0 ∧ (pt.maxlen.toNat : Int) < len then .ok (-1)
    else if pt.type = nlaString then do
      let last ← load8 .outside f (nla + nlaHdrlen + (len - 1).toNat)
      if last ≠ 0 then .ok (-1) else .ok 0
    else .ok 0

/-- The index array `tb`: where the attribute of each type is, if there is one. -/
abbrev NlTable := ℕ → Option ℕ

/-- One turn of the loop of `libbpf_nla_parse`; the error ends it. -/
def parseAttr (f : List UInt8) (maxtype : ℕ) (policy : Option (ℕ → NlaPolicy)) (nla : ℕ)
    (tb : NlTable) : Except NlFault ((Int × NlTable) ⊕ NlTable) := do
  let type ← nlaType f nla
  if maxtype < type then .ok (.inr tb)
  else
    let err ← match policy with
      | none => .ok 0
      | some policy => validateNla f nla maxtype policy
    if err < 0 then .ok (.inl (err, tb))
    else .ok (.inr (Function.update tb type (some nla)))

def libbpfNlaParse (f : List UInt8) (maxtype head : ℕ) (len : Int)
    (policy : Option (ℕ → NlaPolicy)) : Except NlFault (Int × NlTable) := do
  let res ← eachFrame .cutOff (nlaOk f) (nlaNext f) (parseAttr f maxtype policy) (len.toNat + 1)
    head len fun _ ↦ none
  match res with
  | .inl r => .ok r
  | .inr tb => .ok (0, tb)

def libbpfNlaParseNested (f : List UInt8) (maxtype nla : ℕ) (policy : Option (ℕ → NlaPolicy)) :
    Except NlFault (Int × NlTable) := do
  let len ← libbpfNlaLen f nla
  libbpfNlaParse f maxtype (nla + nlaHdrlen) len policy

/-! ## Attributes -/

theorem nlAlign_toNat {len : UInt32} (h : len.toNat + 3 < 2 ^ 32) :
    (nlAlign len).toNat = (len.toNat + 3) / 4 * 4 := by
  have hadd : (len + 3).toNat = len.toNat + 3 := (UInt32.toNat_add len 3).trans (Nat.mod_eq_of_lt h)
  rw [nlAlign, toNat_and_not_three, hadd]

/-- An attribute as it stands in a message: its value fits the field of the length, and is filled up
to a multiple of four bytes. -/
structure NlAttr where
  type : UInt16
  value : List UInt8
  pad : List UInt8
  fits : nlaHdrlen + value.length < 2 ^ 16
  short : pad.length < 4
  aligned : 4 ∣ value.length + pad.length

theorem no_pad_short : ([] : List UInt8).length < 4 := Nat.succ_pos 3

namespace NlAttr

def len (a : NlAttr) : UInt16 := UInt16.ofNat (nlaHdrlen + a.value.length)

/-- The type without the flags in its high bits. -/
def kind (a : NlAttr) : ℕ := (a.type &&& nlaTypeMask).toNat

def bytes (a : NlAttr) : List UInt8 :=
  image16 a.len ++ (image16 a.type ++ (a.value ++ a.pad))

@[simp] theorem len_toNat (a : NlAttr) : a.len.toNat = nlaHdrlen + a.value.length :=
  UInt16.toNat_ofNat_of_lt' a.fits

theorem length_bytes (a : NlAttr) :
    a.bytes.length = nlaHdrlen + a.value.length + a.pad.length := by
  simp only [bytes, List.length_append, length_image16]
  dsimp only [nlaHdrlen]
  omega

theorem nlAlign_len (a : NlAttr) : (nlAlign a.len.toUInt32).toNat = a.bytes.length := by
  have hlen : a.len.toUInt32.toNat = nlaHdrlen + a.value.length := a.len_toNat
  have hfits := a.fits
  have hshort := a.short
  have haligned := a.aligned
  dsimp only [nlaHdrlen] at hlen hfits
  rw [nlAlign_toNat (by omega), hlen, length_bytes]
  dsimp only [nlaHdrlen]
  omega

end NlAttr

variable {f post : List UInt8} {i maxtype : ℕ} {a : NlAttr} {policy : Option (ℕ → NlaPolicy)}

/-! ## Reading an attribute where it lies -/

theorem load_len_of_drop (h : f.drop i = a.bytes ++ post) :
    load16 NlFault.outside f i = .ok a.len := by
  have hlen : f.drop i = image16 a.len ++ (image16 a.type ++ (a.value ++ a.pad) ++ post) := by
    rw [h, NlAttr.bytes, List.append_assoc]
  exact load16_of_drop hlen

theorem nlaType_of_drop (h : f.drop i = a.bytes ++ post) : nlaType f i = .ok a.kind := by
  have htype : f.drop i = image16 a.len ++ (image16 a.type ++ ((a.value ++ a.pad) ++ post)) := by
    rw [h, NlAttr.bytes]
    simp only [List.append_assoc]
  rw [nlaType, load16_of_drop (drop_of_append htype (length_image16 _)), ok_bind]
  rfl

theorem libbpfNlaLen_of_drop (h : f.drop i = a.bytes ++ post) :
    libbpfNlaLen f i = .ok a.value.length := by
  have hlen : ((nlaHdrlen + a.value.length : ℕ) : Int) - nlaHdrlen = a.value.length := by
    dsimp only [nlaHdrlen]
    omega
  rw [libbpfNlaLen, load_len_of_drop h, ok_bind, a.len_toNat, hlen]

/-- Where the value of an attribute lies. -/
theorem value_of_drop (h : f.drop i = a.bytes ++ post) :
    f.drop (i + nlaHdrlen) = a.value ++ (a.pad ++ post) := by
  have hhead : f.drop i = (image16 a.len ++ image16 a.type) ++ (a.value ++ (a.pad ++ post)) := by
    rw [h, NlAttr.bytes]
    simp only [List.append_assoc]
  exact drop_of_append hhead rfl

theorem nlaOk_of_drop (h : f.drop i = a.bytes ++ post) {rem : Int}
    (hrem : (a.bytes.length : Int) ≤ rem) (hsmall : rem < 2 ^ 63) :
    nlaOk f i rem = .ok true := by
  have hlen := a.length_bytes
  dsimp only [nlaHdrlen] at hlen
  have hmod : rem % 2 ^ 64 = rem := Int.emod_eq_of_lt (by omega) (by omega)
  rw [nlaOk, hmod, if_neg (by dsimp only [nlaHdrlen]; omega), load_len_of_drop h, ok_bind,
    a.len_toNat]
  exact congrArg Except.ok (decide_eq_true ⟨by omega, by dsimp only [nlaHdrlen]; omega⟩)

theorem nlaNext_of_drop (h : f.drop i = a.bytes ++ post) : nlaNext f i = .ok a.bytes.length := by
  rw [nlaNext, load_len_of_drop h, ok_bind, a.nlAlign_len]

theorem parseAttr_of_drop (h : f.drop i = a.bytes ++ post) (tb : NlTable) :
    parseAttr f maxtype none i tb =
      .ok (.inr (if maxtype < a.kind then tb else Function.update tb a.kind (some i))) := by
  rw [parseAttr, nlaType_of_drop h, ok_bind]
  split_ifs
  · rfl
  · rfl

/-! ## The table of a stream of attributes -/

theorem NlAttr.reads (f : List UInt8) (a : NlAttr) :
    Reads f NlAttr.bytes (nlaOk f) (nlaNext f) (2 ^ 31) a :=
  ⟨fun _ _ _ h hle hbound ↦ nlaOk_of_drop h hle (by omega), fun _ _ h ↦ nlaNext_of_drop h⟩

/-- The last attribute of a type. -/
def lastOf (attrs : List NlAttr) (kind : ℕ) : Option NlAttr :=
  (attrs.filter (·.kind = kind)).getLast?

/-- The entry of a table points to the attribute, or to none. -/
def Points (f : List UInt8) (nla : Option ℕ) : Option NlAttr → Prop
  | none => nla = none
  | some a => ∃ i post, nla = some i ∧ f.drop i = a.bytes ++ post

/-- The table points to the last attribute of each type that it has an entry for. -/
def Tabulates (f : List UInt8) (maxtype : ℕ) (attrs : List NlAttr) (tb : NlTable) : Prop :=
  ∀ kind ≤ maxtype, Points f (tb kind) (lastOf attrs kind)

variable {attrs : List NlAttr} {tb : NlTable} {head : ℕ}

theorem lastOf_append_self (attrs : List NlAttr) (a : NlAttr) :
    lastOf (attrs ++ [a]) a.kind = some a := by
  simp [lastOf, List.filter_append]

theorem lastOf_append_ne {kind : ℕ} (attrs : List NlAttr) (hne : a.kind ≠ kind) :
    lastOf (attrs ++ [a]) kind = lastOf attrs kind := by
  simp [lastOf, List.filter_append, hne]

theorem Tabulates.append (htb : Tabulates f maxtype attrs tb) (h : f.drop i = a.bytes ++ post) :
    Tabulates f maxtype (attrs ++ [a])
      (if maxtype < a.kind then tb else Function.update tb a.kind (some i)) := by
  intro kind hkind
  by_cases hsame : a.kind = kind
  · subst hsame
    rw [if_neg (Nat.not_lt.mpr hkind), Function.update_self, lastOf_append_self]
    exact ⟨i, post, rfl, h⟩
  · rw [lastOf_append_ne attrs hsame]
    split_ifs
    · exact htb kind hkind
    · rw [Function.update_of_ne (Ne.symm hsame)]
      exact htb kind hkind

theorem length_le_bytes (attrs : List NlAttr) :
    attrs.length ≤ (attrs.flatMap NlAttr.bytes).length := by
  induction attrs with
  | nil => exact Nat.le_refl 0
  | cons a attrs ih =>
      have ha := a.length_bytes
      dsimp only [nlaHdrlen] at ha
      rw [List.flatMap_cons, List.length_append, List.length_cons]
      omega

/-- On a stream of attributes the parser makes the table of them. -/
theorem libbpfNlaParse_attrs (maxtype : ℕ) (h : f.drop head = attrs.flatMap NlAttr.bytes ++ post)
    (hlen : (attrs.flatMap NlAttr.bytes).length < 2 ^ 31) :
    ∃ tb, libbpfNlaParse f maxtype head (attrs.flatMap NlAttr.bytes).length none = .ok (0, tb) ∧
      Tabulates f maxtype attrs tb := by
  have hfuel := length_le_bytes attrs
  obtain ⟨tb, hrun, htb⟩ : ∃ tb, eachFrame NlFault.cutOff (nlaOk f) (nlaNext f)
      (parseAttr f maxtype none) ((attrs.flatMap NlAttr.bytes).length + 1) head
      ((attrs.flatMap NlAttr.bytes).length : ℕ) (fun _ ↦ none) = .ok (.inr tb) ∧
        Tabulates f maxtype attrs tb :=
    eachFrame_processed (Tabulates f maxtype) (fun a _ ↦ NlAttr.reads f a) (fun _ ↦ rfl)
      (fun pre a rest _ i post tb hdrop htb ↦ ⟨_, parseAttr_of_drop hdrop tb, htb.append hdrop⟩)
      h (Nat.le_of_lt hlen) (by omega) fun _ _ ↦ rfl
  refine ⟨tb, ?_, htb⟩
  rw [libbpfNlaParse, Int.toNat_natCast, hrun]
  rfl

/-- The attributes of a nested one. -/
theorem libbpfNlaParseNested_attrs (maxtype : ℕ) (h : f.drop i = a.bytes ++ post)
    (hvalue : a.value = attrs.flatMap NlAttr.bytes) :
    ∃ tb, libbpfNlaParseNested f maxtype i none = .ok (0, tb) ∧ Tabulates f maxtype attrs tb := by
  have hfits := a.fits
  have hnested := value_of_drop h
  rw [hvalue] at hfits hnested
  rw [libbpfNlaParseNested, libbpfNlaLen_of_drop h, ok_bind, hvalue]
  exact libbpfNlaParse_attrs maxtype hnested (by omega)

/-! ## Any bytes at all -/

/-- The attribute at `nla` lies in the stream. -/
structure Within (f : List UInt8) (head : ℕ) (len : Int) (nla : ℕ) : Prop where
  start : head ≤ nla
  inside : ∃ n, load16 NlFault.outside f nla = .ok n ∧ nlaHdrlen ≤ n.toNat ∧
    (nla + n.toNat : Int) ≤ head + len

/-- How far the parser reads past the end of a stream. -/
def overrun (len : Int) : ℕ := if 0 ≤ len ∧ 4 ∣ len then 0 else 5

variable {len rem : Int} {nla : ℕ}

theorem nlaOk_cases (hlow : -2 ^ 31 ≤ rem) (hhigh : rem < 2 ^ 31)
    (hroom : 0 ≤ rem ∧ rem < 4 ∨ nla + 2 ≤ f.length) :
    nlaOk f nla rem = .ok false ∨ nlaOk f nla rem = .ok true ∧
      ∃ n, load16 NlFault.outside f nla = .ok n ∧ nlaHdrlen ≤ n.toNat ∧ (n.toNat : Int) ≤ rem := by
  unfold nlaOk
  dsimp only [nlaHdrlen]
  split_ifs with hsmall
  · exact Or.inl rfl
  · rw [load16_of_le (by omega), ok_bind]
    by_cases hok : 4 ≤ (le16 (byte f nla) (byte f (nla + 1))).toNat ∧
        ((le16 (byte f nla) (byte f (nla + 1))).toNat : Int) ≤ rem
    · rw [decide_eq_true hok]
      exact Or.inr ⟨rfl, _, rfl, hok⟩
    · rw [decide_eq_false hok]
      exact Or.inl rfl

theorem NlaPolicy.one_le_least {pt : NlaPolicy} (hstring : pt.type = nlaString) :
    1 ≤ pt.least := by
  unfold NlaPolicy.least
  rw [hstring]
  split_ifs with hmin hspec
  · exact Nat.pos_of_ne_zero fun hzero ↦ hmin (UInt16.toNat_inj.mp hzero)
  · decide
  · exact absurd (by decide) hspec

/-- The policy of a string asks for the byte that is looked at. -/
theorem validateNla_safe (maxtype : ℕ) (policy : ℕ → NlaPolicy) {n : UInt16}
    (hlen : load16 NlFault.outside f nla = .ok n) (hhdr : nlaHdrlen ≤ n.toNat)
    (hroom : nla + n.toNat ≤ f.length) :
    validateNla f nla maxtype policy = .ok 0 ∨ validateNla f nla maxtype policy = .ok (-1) := by
  have hn := n.toNat_lt
  dsimp only [nlaHdrlen] at hhdr
  unfold validateNla nlaType libbpfNlaLen
  rw [load16_of_le (show nla + 2 + 2 ≤ f.length by omega), hlen]
  simp only [ok_bind]
  split_ifs with _ _ hshort _ hstring
  · exact Or.inl rfl
  · exact Or.inl rfl
  · exact Or.inr rfl
  · exact Or.inr rfl
  · have hleast := NlaPolicy.one_le_least hstring
    dsimp only [nlaHdrlen] at hshort ⊢
    rw [load8_of_lt (by omega), ok_bind]
    split_ifs
    · exact Or.inr rfl
    · exact Or.inl rfl
  · exact Or.inl rfl

theorem parseAttr_safe (maxtype : ℕ) (policy : Option (ℕ → NlaPolicy)) {n : UInt16}
    (hlen : load16 NlFault.outside f nla = .ok n) (hhdr : nlaHdrlen ≤ n.toNat)
    (hroom : nla + n.toNat ≤ f.length) (tb : NlTable) :
    parseAttr f maxtype policy nla tb = .ok (.inl (-1, tb)) ∨
      parseAttr f maxtype policy nla tb = .ok (.inr tb) ∨
        ∃ kind ≤ maxtype, parseAttr f maxtype policy nla tb =
          .ok (.inr (Function.update tb kind (some nla))) := by
  have hn := n.toNat_lt
  have htype : ∃ kind, nlaType f nla = .ok kind := by
    dsimp only [nlaHdrlen] at hhdr
    rw [nlaType, load16_of_le (by omega)]
    exact ⟨_, rfl⟩
  obtain ⟨kind, hkind⟩ := htype
  rw [parseAttr, hkind, ok_bind]
  split_ifs with hmax
  · exact Or.inr (Or.inl rfl)
  · cases policy with
    | none => exact Or.inr (Or.inr ⟨kind, Nat.not_lt.mp hmax, rfl⟩)
    | some policy =>
        dsimp only
        rcases validateNla_safe maxtype policy hlen hhdr hroom with hvalid | hvalid
        · rw [hvalid]
          exact Or.inr (Or.inr ⟨kind, Nat.not_lt.mp hmax, rfl⟩)
        · rw [hvalid]
          exact Or.inl rfl

/-- Where the loop stands: the entries so far are attributes inside the stream, and the end of the
stream is passed by three bytes at most. -/
structure StreamAt (f : List UInt8) (maxtype head : ℕ) (len : Int) (nla : ℕ) (rem : Int)
    (tb : NlTable) : Prop where
  start : head ≤ nla
  left : (nla + rem : Int) = head + len
  slack : overrun len = 0 ∧ 0 ≤ rem ∧ 4 ∣ rem ∨ overrun len = 5 ∧ (-3 ≤ rem ∨ nla = head)
  entries : ∀ kind i, tb kind = some i → kind ≤ maxtype ∧ Within f head len i

theorem StreamAt.init (f : List UInt8) (maxtype head : ℕ) (len : Int) :
    StreamAt f maxtype head len head len fun _ ↦ none := by
  refine ⟨Nat.le_refl _, rfl, ?_, fun _ _ h ↦ by cases h⟩
  unfold overrun
  split_ifs with haligned
  · exact Or.inl ⟨rfl, haligned⟩
  · exact Or.inr ⟨rfl, Or.inr rfl⟩

theorem overrun_nonneg (h : overrun len = 0) : 0 ≤ len := by
  unfold overrun at h
  split_ifs at h with haligned
  exact haligned.1

theorem StreamAt.step (hlow : -2 ^ 31 ≤ len) (hhigh : len < 2 ^ 31)
    (hroom : head + len.toNat + overrun len ≤ f.length)
    (hcur : StreamAt f maxtype head len nla rem tb) :
    nlaOk f nla rem = .ok false ∨ nlaOk f nla rem = .ok true ∧
      (parseAttr f maxtype policy nla tb = .ok (.inl (-1, tb)) ∨
        ∃ tb' n, parseAttr f maxtype policy nla tb = .ok (.inr tb') ∧ nlaNext f nla = .ok n ∧
          0 < n ∧ 0 < rem ∧ StreamAt f maxtype head len (nla + n) (rem - n) tb') := by
  obtain ⟨hstart, hleft, hslack, hentries⟩ := hcur
  have hpos : overrun len = 0 → 0 ≤ len := overrun_nonneg
  refine (nlaOk_cases (by omega) (by omega) (by omega)).imp id ?_
  rintro ⟨hok, n, hlen, hhdr, hle⟩
  refine ⟨hok, ?_⟩
  have hn := n.toNat_lt
  have hnext : nlaNext f nla = .ok ((n.toNat + 3) / 4 * 4) := by
    have hword : n.toUInt32.toNat = n.toNat := n.toNat_toUInt32
    rw [nlaNext, hlen, ok_bind, nlAlign_toNat (by omega), hword]
  have hhere : Within f head len nla := ⟨hstart, n, hlen, hhdr, by omega⟩
  dsimp only [nlaHdrlen] at hhdr
  have hcursor : ∀ tb', (∀ kind i, tb' kind = some i → kind ≤ maxtype ∧ Within f head len i) →
      StreamAt f maxtype head len (nla + (n.toNat + 3) / 4 * 4)
        (rem - ((n.toNat + 3) / 4 * 4 : ℕ)) tb' :=
    fun tb' htb' ↦ ⟨by omega, by omega, by omega, htb'⟩
  rcases parseAttr_safe maxtype policy hlen hhdr (by omega) tb with
    hend | hskip | ⟨kind, hkind, hentry⟩
  · exact Or.inl hend
  · exact Or.inr ⟨tb, _, hskip, hnext, by omega, by omega, hcursor tb hentries⟩
  · refine Or.inr ⟨_, _, hentry, hnext, by omega, by omega, hcursor _ fun kind' i hi ↦ ?_⟩
    by_cases hsame : kind' = kind
    · subst hsame
      rw [Function.update_self] at hi
      obtain rfl := Option.some.inj hi
      exact ⟨hkind, hhere⟩
    · rw [Function.update_of_ne hsame] at hi
      exact hentries kind' i hi

/-- The parser reads any bytes without going further past the end of the stream than `overrun`, and
every entry it makes is an attribute inside the stream. -/
theorem parse_within (f : List UInt8) (maxtype head : ℕ) (len : Int)
    (policy : Option (ℕ → NlaPolicy)) (hlow : -2 ^ 31 ≤ len) (hhigh : len < 2 ^ 31)
    (hroom : head + len.toNat + overrun len ≤ f.length) :
    ∃ err tb, libbpfNlaParse f maxtype head len policy = .ok (err, tb) ∧ (err = 0 ∨ err = -1) ∧
      ∀ kind nla, tb kind = some nla → kind ≤ maxtype ∧ Within f head len nla := by
  have hstep : ∀ nla rem tb, StreamAt f maxtype head len nla rem tb →
      nlaOk f nla rem = .ok false ∨ nlaOk f nla rem = .ok true ∧
        ((∃ r : Int × NlTable, parseAttr f maxtype policy nla tb = .ok (.inl r) ∧ r.1 = -1 ∧
            ∀ kind i, r.2 kind = some i → kind ≤ maxtype ∧ Within f head len i) ∨
          ∃ tb' n, parseAttr f maxtype policy nla tb = .ok (.inr tb') ∧ nlaNext f nla = .ok n ∧
            0 < n ∧ 0 < rem ∧ StreamAt f maxtype head len (nla + n) (rem - n) tb') :=
    fun nla rem tb hcur ↦ (hcur.step hlow hhigh hroom).imp id
      (And.imp id (Or.imp (fun h ↦ ⟨_, h, rfl, hcur.entries⟩) id))
  rw [libbpfNlaParse]
  rcases eachFrame_safe NlFault.cutOff _ _ hstep (Nat.lt_add_one _)
    (StreamAt.init f maxtype head len) with ⟨⟨err, tb⟩, hend, herr, hentries⟩ |
      ⟨i, rem, tb, hend, hcur⟩
  · rw [hend]
    exact ⟨err, tb, rfl, Or.inr herr, hentries⟩
  · rw [hend]
    exact ⟨0, tb, rfl, Or.inl rfl, hcur.entries⟩

/-- The length of a next attribute is read behind the five bytes of the first. -/
example : libbpfNlaParse [5, 0, 1, 0, 7, 0, 0, 0] 4 0 5 none = .error (.outside 8) := rfl

theorem parse_within_five : ∃ err tb,
    libbpfNlaParse [5, 0, 1, 0, 7, 0, 0, 0, 0, 0] 4 0 5 none = .ok (err, tb) ∧
      (err = 0 ∨ err = -1) ∧ ∀ kind nla, tb kind = some nla → kind ≤ 4 ∧
        Within [5, 0, 1, 0, 7, 0, 0, 0, 0, 0] 0 5 nla :=
  parse_within [5, 0, 1, 0, 7, 0, 0, 0, 0, 0] 4 0 5 none (by decide) (by decide) (by decide)

end AntiDos
