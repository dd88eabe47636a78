import AntiDos.Object.Elf
import Mathlib.Data.List.Sort

/-!
# The maps of an object file

Each symbol in the section `maps` is a map, whose parameters are the bytes at the symbol. Each data
section is a map with one value. `bpf_object__create_maps` has the kernel create them, and notes the
descriptors.
-/

namespace AntiDos

open Bytes Faulting

/-! ## The definitions -/

structure BpfMapDef where
  type : UInt32
  keySize : UInt32
  valueSize : UInt32
  maxEntries : UInt32
  mapFlags : UInt32
deriving DecidableEq

abbrev sizeofBpfMapDef : ℕ := 20

inductive LibbpfMapType
  | unspec
  | data
  | bss
  | rodata
deriving DecidableEq

/-- `libbpf_type_to_btf_name`. -/
def LibbpfMapType.name : LibbpfMapType → String
  | .unspec => ""
  | .data => ".data"
  | .bss => ".bss"
  | .rodata => ".rodata"

/-- `struct bpf_map`; the descriptor is `none` where it is `-1`. -/
structure ObjMap where
  fd : Option UInt32
  name : String
  secIdx : ℕ
  secOffset : UInt64
  params : BpfMapDef
  libbpfType : LibbpfMapType

/-- The parameters in the memory image of a definition. -/
def loadMapDef (f : List UInt8) : Except ObjFault BpfMapDef := do
  let type ← load32 .outside f 0
  let keySize ← load32 .outside f 4
  let valueSize ← load32 .outside f 8
  let maxEntries ← load32 .outside f 12
  let mapFlags ← load32 .outside f 16
  .ok ⟨type, keySize, valueSize, maxEntries, mapFlags⟩

/-- The copy of a definition of `size` bytes: what is missing is zero, and what is too much has to
be zero. -/
def copyMapDef (strict : Bool) (data : List UInt8) (offset size : ℕ) :
    Except ObjFault BpfMapDef :=
  let image := (data.drop offset).take size
  if image.length < size then .error (.outside offset)
  else if size ≤ sizeofBpfMapDef then
    loadMapDef (image ++ List.replicate (sizeofBpfMapDef - size) 0)
  else if strict ∧ ∃ b ∈ image.drop sizeofBpfMapDef, b ≠ 0 then .error (.err (-objEinval))
  else loadMapDef image

/-- One turn of the second loop of `bpf_object__init_user_maps`. -/
def initUserMap (strict : Bool) (shndx : ℕ) (data : List UInt8) (mapDefSz : ℕ) (sym : ElfSym) :
    Except ObjFault ObjMap :=
  match sym.name with
  | none => .error (.err (-errnoFormat))
  | some name =>
      -- the sum can wrap
      if data.length < (sym.value + UInt64.ofNat mapDefSz).toNat then .error (.err (-objEinval))
      else do
        let params ← copyMapDef strict data sym.value.toNat mapDefSz
        .ok ⟨none, name, shndx, sym.value, params, .unspec⟩

def bpfObjectInitUserMaps (strict : Bool) (sections : List ElfSection) (e : Efile) :
    Except ObjFault (List ObjMap) :=
  match e.mapsShndx with
  | none => .ok []
  | some shndx =>
      match e.symbols, sectionAt sections shndx with
      | some symbols, some scn =>
          let mapSyms := symbols.filter (·.shndx = shndx)
          if scn.data.length = 0 ∨ mapSyms.length = 0 ∨
              scn.data.length % mapSyms.length ≠ 0 then .error (.err (-objEinval))
          else
            mapSyms.mapM (initUserMap strict shndx scn.data (scn.data.length / mapSyms.length))
      | _, _ => .error (.err (-objEinval))

/-! ## Data sections -/

abbrev bpfFRdonlyProg : UInt32 := 128

def bpfObjectInitInternalMap (objName : String) (type : LibbpfMapType) (sections : List ElfSection)
    (shndx : Option ℕ) : List ObjMap :=
  match shndx with
  | none => []
  | some idx =>
      let size := ((sectionAt sections idx).map fun s ↦ s.data.length).getD 0
      [{ fd := none
         name := (objName.take 8).toString ++ (type.name.take 7).toString
         secIdx := idx
         secOffset := 0
         -- an array with one value
         params := ⟨2, 4, UInt32.ofNat size, 1, if type = .rodata then bpfFRdonlyProg else 0⟩
         libbpfType := type }]

def bpfObjectInitGlobalDataMaps (globalData : Bool) (objName : String)
    (sections : List ElfSection) (e : Efile) : List ObjMap :=
  if globalData then
    bpfObjectInitInternalMap objName .data sections e.dataShndx ++
      (bpfObjectInitInternalMap objName .rodata sections e.rodataShndx ++
        bpfObjectInitInternalMap objName .bss sections e.bssShndx)
  else []

/-- The difference of the offsets is cut down to an `int`. -/
def compareBpfMap (a b : ObjMap) : Int :=
  if a.secIdx ≠ b.secIdx then a.secIdx - b.secIdx
  else (a.secOffset - b.secOffset).toUInt32.toInt32.toInt

/-- The sort keeps the order of maps that compare as equal. -/
def bpfObjectInitMaps (strict globalData : Bool) (objName : String) (sections : List ElfSection)
    (e : Efile) : Except ObjFault (List ObjMap) := do
  let maps ← bpfObjectInitUserMaps strict sections e
  .ok ((maps ++ bpfObjectInitGlobalDataMaps globalData objName sections e).mergeSort
    fun a b ↦ compareBpfMap a b ≤ 0)

/-- The kernel has been given the type data when the programs get their names; `btfExt` is what is
left of `.BTF.ext` then. Type data that is missing or refused is no error in an object without
`.maps`. -/
def bpfObjectElfCollect (strict globalData : Bool) (objName : String) (btfExt : Option BtfExt)
    (sections : List ElfSection) : Except ObjFault (Efile × List ObjMap) := do
  let e ← collectSections sections
  let maps ← bpfObjectInitMaps strict globalData objName sections e
  let progs ← bpfObjectInitProgNames e
  .ok ({ e with programs := progs, btfExt := btfExt }, maps)

/-! ## Creating them -/

abbrev bpfMapTypePerfEventArray : UInt32 := 4

/-- The answers for one map: its descriptor or an error number, and whether its content is
accepted. -/
structure CreateReply where
  create : Except ℕ UInt32
  populate : Bool

/-- The parameters that a map is created with; the size of an array of perf events is the number of
processors if none is given. -/
def createAttr (nrCpus : UInt32) (params : BpfMapDef) : BpfMapDef :=
  if params.type = bpfMapTypePerfEventArray ∧ params.maxEntries = 0 then
    { params with maxEntries := nrCpus }
  else params

/-- A map of the kernel: the descriptor it is known by, and what it was created with. -/
structure KernelMap where
  fd : UInt32
  attr : BpfMapDef

/-- One turn of the loop of `bpf_object__create_maps`, for a map without a pin path; `nrCpus` is the
answer of `libbpf_num_possible_cpus`. -/
def createMap (nrCpus : Int) (reply : CreateReply) (m : ObjMap) :
    Except ObjFault (ObjMap × List KernelMap) :=
  if m.fd.isSome then .ok (m, [])
  else if m.params.type = bpfMapTypePerfEventArray ∧ m.params.maxEntries = 0 ∧ nrCpus < 0 then
    .error (.err nrCpus)
  else
    match reply.create with
    | .error errno => .error (.err (-errno))
    | .ok fd =>
        if m.libbpfType ≠ .unspec ∧ m.libbpfType ≠ .bss ∧ ¬reply.populate then .error (.err (-1))
        else .ok ({ m with fd := some fd },
          [⟨fd, createAttr (UInt32.ofNat nrCpus.toNat) m.params⟩])

/-- The maps with their descriptors, and the maps that the kernel has created; there is an answer
for each map. -/
def bpfObjectCreateMaps (nrCpus : Int) : (ℕ → CreateReply) → List ObjMap →
    Except ObjFault (List ObjMap × List KernelMap)
  | _, [] => .ok ([], [])
  | replies, m :: maps => do
      let created ← createMap nrCpus (replies 0) m
      let rest ← bpfObjectCreateMaps nrCpus (fun i ↦ replies (i + 1)) maps
      .ok (created.1 :: rest.1, created.2 ++ rest.2)

end AntiDos
