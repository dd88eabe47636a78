import AntiDos.Object.Maps

/-!
# Relocation

A relocation names an instruction of a program and a symbol. `bpf_program__collect_reloc` notes for
each of them which map or which function is meant, and `bpf_program__relocate` writes the
descriptors of the maps into the instructions, and puts a copy of the functions behind the program.
-/

namespace AntiDos

open Faulting

/-- `BPF_LD | BPF_IMM | BPF_DW`. -/
abbrev bpfLdImm64 : UInt8 := 0x18

/-- `BPF_JMP | BPF_CALL`. -/
abbrev bpfCall : UInt8 := 0x85

abbrev bpfPseudoMapFd : UInt8 := 1

abbrev bpfPseudoMapValue : UInt8 := 2

abbrev bpfPseudoCall : UInt8 := 1

abbrev shnLoreserve : ℕ := 0xff00

/-! ## Collecting the relocations -/

def Efile.shndxIsData (e : Efile) (shndx : ℕ) : Prop :=
  some shndx = e.dataShndx ∨ some shndx = e.bssShndx ∨ some shndx = e.rodataShndx

instance (e : Efile) (shndx : ℕ) : Decidable (e.shndxIsData shndx) :=
  inferInstanceAs (Decidable (_ ∨ _ ∨ _))

def Efile.shndxIsMaps (e : Efile) (shndx : ℕ) : Prop :=
  some shndx = e.mapsShndx ∨ some shndx = e.btfMapsShndx

instance (e : Efile) (shndx : ℕ) : Decidable (e.shndxIsMaps shndx) :=
  inferInstanceAs (Decidable (_ ∨ _))

def Efile.reloInKnownSection (e : Efile) (shndx : ℕ) : Prop :=
  shndx = e.textShndx ∨ e.shndxIsMaps shndx ∨ e.shndxIsData shndx

instance (e : Efile) (shndx : ℕ) : Decidable (e.reloInKnownSection shndx) :=
  inferInstanceAs (Decidable (_ ∨ _ ∨ _))

def Efile.sectionToLibbpfMapType (e : Efile) (shndx : ℕ) : LibbpfMapType :=
  if some shndx = e.dataShndx then .data
  else if some shndx = e.bssShndx then .bss
  else if some shndx = e.rodataShndx then .rodata
  else .unspec

/-- The map that a symbol names. -/
def ObjMap.IsNamedBy (m : ObjMap) (type : LibbpfMapType) (sym : ElfSym) : Prop :=
  m.libbpfType = type ∧
    (type ≠ .unspec ∨ m.secIdx = sym.shndx ∧ m.secOffset = sym.value)

instance (m : ObjMap) (type : LibbpfMapType) (sym : ElfSym) : Decidable (m.IsNamedBy type sym) :=
  inferInstanceAs (Decidable (_ ∧ _))

def ElfRel.insnIdx (rel : ElfRel) : ℕ := (rel.offset / 8).toUInt32.toNat

def insnAt (insns : List BpfInsn) (i : ℕ) : Except ObjFault BpfInsn :=
  match insns[i]? with
  | none => .error (.outside i)
  | some insn => .ok insn

/-- What is written for an instruction and the symbol of its relocation, or `none` if nothing is. -/
def collectInsn (globalData : Bool) (e : Efile) (maps : List ObjMap) (insnIdx : ℕ) (sym : ElfSym)
    (insn : BpfInsn) : Except ObjFault (Option RelocDesc) :=
  if insn.code = bpfCall then
    if insn.srcReg ≠ bpfPseudoCall then .error (.err (-errnoReloc))
    else .ok (some (.call insnIdx))
  else if insn.code ≠ bpfLdImm64 then .error (.err (-errnoReloc))
  else if e.shndxIsMaps sym.shndx ∨ e.shndxIsData sym.shndx then
    let type := e.sectionToLibbpfMapType sym.shndx
    if type ≠ .unspec ∧ (sym.isGlobal ∨ ¬globalData) then .error (.err (-errnoReloc))
    else
      match maps.findIdx? fun m ↦ m.IsNamedBy type sym with
      | none => .error (.err (-errnoReloc))
      | some mapIdx =>
          if type ≠ .unspec then .ok (some (.data insnIdx mapIdx))
          else .ok (some (.ld64 insnIdx mapIdx))
  else .ok none

/-- One turn of the loop of `bpf_program__collect_reloc`. -/
def collectReloc (globalData : Bool) (e : Efile) (maps : List ObjMap) (insns : List BpfInsn)
    (rel : ElfRel) : Except ObjFault (Option RelocDesc) :=
  match (e.symbols.getD [])[rel.sym]? with
  | none => .error (.err (-errnoFormat))
  | some sym =>
      if shnLoreserve ≤ sym.shndx then do
        -- the instruction is printed
        let _ ← insnAt insns rel.insnIdx
        .error (.err (-errnoReloc))
      else if ¬e.reloInKnownSection sym.shndx then .error (.err (-errnoReloc))
      else do
        let insn ← insnAt insns rel.insnIdx
        collectInsn globalData e maps rel.insnIdx sym insn

/-- One turn of the loop of `bpf_object__collect_reloc`: the entries of the first program of the
section. -/
def collectProgram (globalData : Bool) (e : Efile) (maps : List ObjMap)
    (progs : List ObjProgram) (reloc : ℕ × List ElfRel) : Except ObjFault (List ObjProgram) :=
  match progs.findIdx? (·.idx = reloc.1) with
  | none => .error (.err (-errnoReloc))
  | some k =>
      match progs[k]? with
      | none => .error (.outside k)
      | some prog => do
          let descs ← reloc.2.mapM (collectReloc globalData e maps prog.insns)
          .ok (progs.set k { prog with relocDesc := some descs })

def bpfObjectCollectReloc (globalData : Bool) (e : Efile) (maps : List ObjMap) :
    Except ObjFault (List ObjProgram) :=
  e.reloc.foldlM (collectProgram globalData e maps) e.programs

/-! ## Relocating -/

/-- The descriptor of a map as the immediate of an instruction. -/
def fdOf (maps : List ObjMap) (mapIdx : ℕ) : Except ObjFault UInt32 :=
  match maps[mapIdx]? with
  | none => .error (.outside mapIdx)
  | some m => .ok (m.fd.getD 0xffffffff)

/-- The load of the address of a map. -/
def BpfInsn.loadsMap (insn : BpfInsn) (fd : UInt32) : BpfInsn :=
  { insn with srcReg := bpfPseudoMapFd, imm := fd }

/-- The load of the address of the value of a map. -/
def BpfInsn.loadsMapValue (insn : BpfInsn) (fd : UInt32) : BpfInsn :=
  { insn with srcReg := bpfPseudoMapValue, imm := fd }

def BpfInsn.withImm (insn : BpfInsn) (imm : UInt32) : BpfInsn := { insn with imm := imm }

/-- `bpf_program_reloc_btf_ext`, which is called if there is type data. -/
def Efile.programRelocBtfExt (e : Efile) (prog : ObjProgram) (sectionName : String)
    (insnOffset : ℕ) : Except ObjFault Unit :=
  match e.btfExt with
  | none => .ok ()
  | some ext => ext.programReloc prog sectionName insnOffset

/-- The functions of the object, behind the program that calls them. -/
def appendText (e : Efile) (progs : List ObjProgram) (prog : ObjProgram) :
    Except ObjFault ObjProgram :=
  if prog.mainProgCnt = 0 then
    match progs.find? (·.idx = e.textShndx) with
    | none => .error (.err (-errnoReloc))
    | some text => do
        let _ ← e.programRelocBtfExt prog text.sectionName prog.insns.length
        .ok { prog with
          insns := prog.insns ++ text.insns
          mainProgCnt := prog.insns.length }
  else .ok prog

def bpfProgramRelocText (e : Efile) (progs : List ObjProgram) (prog : ObjProgram) (i : ℕ) :
    Except ObjFault ObjProgram := do
  if prog.idx = e.textShndx then .error (.err (-errnoReloc))
  else
    let prog ← appendText e progs prog
    let insn ← insnAt prog.insns i
    let distance := UInt32.ofNat prog.mainProgCnt - UInt32.ofNat i
    .ok { prog with insns := prog.insns.set i (insn.withImm (insn.imm + distance)) }

/-- One turn of the loop of `bpf_program__relocate`. -/
def relocate (e : Efile) (maps : List ObjMap) (progs : List ObjProgram) (prog : ObjProgram)
    (desc : Option RelocDesc) : Except ObjFault ObjProgram :=
  match desc with
  | none => .error .unwritten
  | some (.ld64 i mapIdx) =>
      if prog.insns.length ≤ i + 1 then .error (.err (-errnoReloc))
      else do
        let insn ← insnAt prog.insns i
        let fd ← fdOf maps mapIdx
        .ok { prog with insns := prog.insns.set i (insn.loadsMap fd) }
  | some (.data i mapIdx) =>
      if prog.insns.length ≤ i + 1 then .error (.err (-errnoReloc))
      else do
        let insn ← insnAt prog.insns i
        let second ← insnAt prog.insns (i + 1)
        let fd ← fdOf maps mapIdx
        let insns := prog.insns.set (i + 1) (second.withImm insn.imm)
        .ok { prog with insns := insns.set i (insn.loadsMapValue fd) }
  | some (.call i) => bpfProgramRelocText e progs prog i

def bpfProgramRelocate (e : Efile) (maps : List ObjMap) (progs : List ObjProgram)
    (prog : ObjProgram) : Except ObjFault ObjProgram := do
  let _ ← e.programRelocBtfExt prog prog.sectionName 0
  match prog.relocDesc with
  | none => .ok prog
  | some descs => do
      let prog ← descs.foldlM (relocate e maps progs) prog
      .ok { prog with relocDesc := none }

/-- The loop of `bpf_object__relocate`, with the programs before and from its turn on. -/
def relocateFrom (e : Efile) (maps : List ObjMap) :
    List ObjProgram → List ObjProgram → Except ObjFault (List ObjProgram)
  | before, [] => .ok before
  | before, prog :: rest => do
      let prog ← bpfProgramRelocate e maps (before ++ prog :: rest) prog
      relocateFrom e maps (before ++ [prog]) rest

def bpfObjectRelocateCore (e : Efile) (progs : List ObjProgram) :
    Except ObjFault (List ObjProgram) :=
  match e.btfExt with
  | none => .ok progs
  | some ext => if ext.fieldRelocInfoLen ≠ 0 then ext.coreRelocFields progs else .ok progs

def bpfObjectRelocate (e : Efile) (maps : List ObjMap) (progs : List ObjProgram) :
    Except ObjFault (List ObjProgram) := do
  let progs ← bpfObjectRelocateCore e progs
  relocateFrom e maps [] progs

end AntiDos
