import AntiDos.Lib.Bytes
import AntiDos.Lib.Fault

/-!
# The sections of an object file

`bpf_object__elf_collect` goes over the sections of the object file of the filter: it finds the
maps, the symbols and the data, and makes a program of each section with instructions. What
`libelf` reads as symbols and relocations is given with the sections, and what `btf.c` reads in
`.BTF.ext` with the object. The maps that `.maps` defines in type data are left out.
-/

namespace AntiDos

open Bytes Faulting

/-- An error that is returned, an access outside an array, or the use of an entry that was never
written. -/
inductive ObjFault
  | err (ret : Int)
  | outside (index : ℕ)
  | unwritten
deriving DecidableEq

/-- `LIBBPF_ERRNO__LIBELF`. -/
abbrev errnoLibelf : Int := 4000

/-- `LIBBPF_ERRNO__FORMAT`. -/
abbrev errnoFormat : Int := 4001

/-- `LIBBPF_ERRNO__RELOC`. -/
abbrev errnoReloc : Int := 4005

abbrev objEinval : Int := 22

/-! ## What the file holds -/

structure BpfInsn where
  code : UInt8
  dstReg : UInt8
  srcReg : UInt8
  off : UInt16
  imm : UInt32
deriving DecidableEq

abbrev sizeofBpfInsn : ℕ := 8

/-- The instruction at `i`; the registers are the halves of one byte. -/
def BpfInsn.ofBytes (f : List UInt8) (i : ℕ) : BpfInsn where
  code := byte f i
  dstReg := byte f (i + 1) &&& 0xf
  srcReg := byte f (i + 1) >>> 4
  off := le16 (byte f (i + 2)) (byte f (i + 3))
  imm := le32 (byte f (i + 4)) (byte f (i + 5)) (byte f (i + 6)) (byte f (i + 7))

/-- A symbol; its name is `none` if the string table does not have it. -/
structure ElfSym where
  name : Option String
  shndx : ℕ
  value : UInt64
  isGlobal : Bool

structure ElfRel where
  offset : UInt64
  sym : ℕ

inductive ElfType
  | progbits
  | symtab
  | rel
  | nobits
  | other
deriving DecidableEq

structure ElfSection where
  name : String
  type : ElfType
  execinstr : Bool
  info : ℕ
  link : ℕ
  data : List UInt8
  symbols : List ElfSym
  rels : List ElfRel

/-- Sections are counted from one; there is nothing in section zero. -/
def sectionAt (sections : List ElfSection) : ℕ → Option ElfSection
  | 0 => none
  | idx + 1 => sections[idx]?

def sectionHaveExecinstr (sections : List ElfSection) (idx : ℕ) : Bool :=
  match sectionAt sections idx with
  | none => false
  | some s => s.execinstr

/-! ## What is made of it -/

/-- `struct reloc_desc`, without the offset `text_off`, which is written and never read. -/
inductive RelocDesc
  | ld64 (insnIdx mapIdx : ℕ)
  | call (insnIdx : ℕ)
  | data (insnIdx mapIdx : ℕ)
deriving DecidableEq

/-- `struct bpf_program`. An entry of `relocDesc` is `none` as long as nothing is written to it. -/
structure ObjProgram where
  idx : ℕ
  name : Option String
  sectionName : String
  insns : List BpfInsn
  mainProgCnt : ℕ
  relocDesc : Option (List (Option RelocDesc))

def bpfProgramInit (data : List UInt8) (sectionName : String) (idx : ℕ) :
    Except ObjFault ObjProgram :=
  if data.length = 0 ∨ data.length % sizeofBpfInsn ≠ 0 then .error (.err (-objEinval))
  else .ok
    { idx := idx
      name := none
      sectionName := sectionName
      insns := (List.range (data.length / sizeofBpfInsn)).map
        fun k ↦ .ofBytes data (sizeofBpfInsn * k)
      mainProgCnt := 0
      relocDesc := none }

/-- `.BTF.ext` as the relocation finds it: the length of `field_reloc_info`, and the answers of
`bpf_core_reloc_fields` and of `bpf_program_reloc_btf_ext`, which gives a program the type data of a
section, for an offset. -/
structure BtfExt where
  fieldRelocInfoLen : ℕ
  coreRelocFields : List ObjProgram → Except ObjFault (List ObjProgram)
  programReloc : ObjProgram → String → ℕ → Except ObjFault Unit

/-- The part `efile` of `struct bpf_object`, its programs and its `btf_ext`. Only `textShndx` begins
with `0` instead of `-1`. -/
structure Efile where
  mapsShndx : Option ℕ
  btfMapsShndx : Option ℕ
  textShndx : ℕ
  dataShndx : Option ℕ
  rodataShndx : Option ℕ
  bssShndx : Option ℕ
  symbols : Option (List ElfSym)
  strtabidx : ℕ
  reloc : List (ℕ × List ElfRel)
  programs : List ObjProgram
  btfExt : Option BtfExt

def Efile.empty : Efile := ⟨none, none, 0, none, none, none, none, 0, [], [], none⟩

/-- The names `.BTF` and `.BTF.ext`. -/
def btfSections : List String := [".BTF", ".BTF.ext"]

/-- One turn of the loop of `bpf_object__elf_collect`. -/
def collectSection (sections : List ElfSection) (e : Efile) (scn : ElfSection × ℕ) :
    Except ObjFault Efile :=
  let s := scn.1
  let idx := scn.2
  if s.name = "license" then .ok e
  else if s.name = "version" then
    if s.data.length ≠ 4 then .error (.err (-errnoFormat)) else .ok e
  else if s.name = "maps" then .ok { e with mapsShndx := some idx }
  else if s.name = ".maps" then .ok { e with btfMapsShndx := some idx }
  else if s.name ∈ btfSections then .ok e
  else
    match s.type with
    | .symtab =>
        if e.symbols.isSome then .error (.err (-errnoFormat))
        else .ok { e with symbols := some s.symbols, strtabidx := s.link }
    | .progbits =>
        if s.data.length = 0 then .ok e
        else if s.execinstr then do
          let prog ← bpfProgramInit s.data s.name idx
          .ok { e with
            textShndx := if s.name = ".text" then idx else e.textShndx
            programs := e.programs ++ [prog] }
        else if s.name = ".data" then .ok { e with dataShndx := some idx }
        else if s.name = ".rodata" then .ok { e with rodataShndx := some idx }
        else .ok e
    | .rel =>
        -- only do relo for section with exec instructions
        if sectionHaveExecinstr sections s.info then
          .ok { e with reloc := e.reloc ++ [(s.info, s.rels)] }
        else .ok e
    | .nobits => if s.name = ".bss" then .ok { e with bssShndx := some idx } else .ok e
    | .other => .ok e

/-- The loop of `bpf_object__elf_collect`, and the test behind it. -/
def collectSections (sections : List ElfSection) : Except ObjFault Efile := do
  let e ← (sections.zipIdx 1).foldlM (collectSection sections) Efile.empty
  if e.strtabidx = 0 ∨ sections.length < e.strtabidx then .error (.err (-errnoFormat))
  else .ok e

/-! ## The names of the programs -/

/-- The name of a program is that of the first global symbol of its section; the functions can do
without one. -/
def programName (symbols : List ElfSym) (textShndx idx : ℕ) : Except ObjFault String :=
  match symbols.find? fun sym ↦ sym.shndx = idx ∧ sym.isGlobal with
  | some sym =>
      match sym.name with
      | none => .error (.err (-errnoLibelf))
      | some name => .ok name
  | none => if idx = textShndx then .ok ".text" else .error (.err (-objEinval))

def bpfObjectInitProgNames (e : Efile) : Except ObjFault (List ObjProgram) :=
  e.programs.mapM fun prog ↦ do
    let name ← programName (e.symbols.getD []) e.textShndx prog.idx
    .ok { prog with name := some name }

end AntiDos
