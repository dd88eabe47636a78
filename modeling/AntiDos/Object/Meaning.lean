import AntiDos.Object.Relocations
import AntiDos.Lib.Linking

/-!
# The meaning of programs

A program in an object file refers to maps and functions by symbols; the program that the kernel is
given refers to maps by descriptors and to functions by distances. Both run on a machine that leaves
open what the other instructions do. A map is known by the place of its definition in the file.
-/

namespace AntiDos

open Linking

/-- The section and the offset at which a map is defined. -/
abbrev MapKey := ℕ × UInt64

/-- What the instructions do that mean the same wherever a program lies. -/
structure Cpu (σ : Type) where
  plain : BpfInsn → σ → Option σ
  taken : BpfInsn → σ → Bool
  imm64 : BpfInsn → BpfInsn → σ → σ
  mapAddress : MapKey → UInt8 → σ → σ
  mapValue : MapKey → UInt64 → UInt8 → σ → σ

/-! ## Instructions -/

inductive InsnKind
  | second
  | wide
  | function
  | exit
  | jump
  | plain
deriving DecidableEq

/-- `BPF_JMP | BPF_EXIT`. -/
abbrev bpfExit : UInt8 := 0x95

/-- `BPF_JMP | BPF_JA`. -/
abbrev bpfJa : UInt8 := 0x05

/-- The classes `BPF_JMP` and `BPF_JMP32` hold the jumps, calls and exits; a call of a helper is
not among those that move the program counter. -/
def BpfInsn.kind (insn : BpfInsn) : InsnKind :=
  if insn.code = 0 then .second
  else if insn.code = bpfLdImm64 then .wide
  else if insn.code = bpfCall then if insn.srcReg = bpfPseudoCall then .function else .plain
  else if insn.code = bpfExit then .exit
  else if insn.code &&& 7 = 5 ∨ insn.code &&& 7 = 6 then .jump
  else .plain

theorem kind_of_wide {insn : BpfInsn} (h : insn.code = bpfLdImm64) : insn.kind = .wide := by
  rw [BpfInsn.kind, h]
  rfl

theorem kind_of_function {insn : BpfInsn} (h : insn.code = bpfCall)
    (hsrc : insn.srcReg = bpfPseudoCall) : insn.kind = .function := by
  rw [BpfInsn.kind, h, hsrc]
  rfl

theorem kind_function {insn : BpfInsn} (h : insn.kind = .function) :
    insn.code = bpfCall ∧ insn.srcReg = bpfPseudoCall := by
  unfold BpfInsn.kind at h
  split_ifs at h with h₀ h₁ h₂ h₃
  exact ⟨h₂, h₃⟩

/-- The address `d` slots behind the next one. -/
def relative (i : ℕ) (d : Int) : Option ℕ :=
  if 0 ≤ i + 1 + d then some (i + 1 + d).toNat else none

theorem relative_add {i j : ℕ} {d : Int} (h : relative i d = some j) (base : ℕ) :
    relative (base + i) d = some (base + j) := by
  unfold relative at h ⊢
  split_ifs at h with hpos
  obtain rfl := Option.some.inj h
  rw [if_pos (by omega)]
  exact congrArg some (by omega)

section Effect

variable {P Q σ : Type}

/-- The effect of the instruction at `i`, where a wide load and a call of a function are given. -/
def bpfEffect (cpu : Cpu σ) (code : List BpfInsn) (here : ℕ → P)
    (load : BpfInsn → BpfInsn → σ → Option σ) (callee : BpfInsn → Option P) (i : ℕ) (s : σ) :
    Option (Effect P σ) := do
  let insn ← code[i]?
  match insn.kind with
  | .second => none
  | .wide => do
      let second ← code[i + 1]?
      if second.code ≠ 0 then none
      else (load insn second s).map (.goto (here (i + 2)))
  | .function => (callee insn).map fun target ↦ .call target (here (i + 1)) s
  | .exit => some (.ret s)
  | .jump =>
      if insn.code = bpfJa ∨ cpu.taken insn s then
        (relative i insn.off.toInt16.toInt).map fun j ↦ .goto (here j) s
      else some (.goto (here (i + 1)) s)
  | .plain => (cpu.plain insn s).map (.goto (here (i + 1)))

/-- The instruction at `i'` does what the one at `i` does: other than a load or a call it is the
same one. -/
structure Replaces (code code' : List BpfInsn) (place : P → Q)
    (load load' : BpfInsn → BpfInsn → σ → Option σ) (callee : BpfInsn → Option P)
    (callee' : BpfInsn → Option Q) (i i' : ℕ) (insn : BpfInsn) : Prop where
  same : insn.kind ≠ .second → insn.kind ≠ .wide → insn.kind ≠ .function → code'[i']? = some insn
  wide : insn.kind = .wide → ∀ second, code[i + 1]? = some second → second.code = 0 →
    ∃ insn' second', code'[i']? = some insn' ∧ insn'.kind = .wide ∧
      code'[i' + 1]? = some second' ∧ second'.code = 0 ∧
        ∀ s s', load insn second s = some s' → load' insn' second' s = some s'
  function : insn.kind = .function → ∀ target, callee insn = some target →
    ∃ insn', code'[i']? = some insn' ∧ insn'.kind = .function ∧ callee' insn' = some (place target)

variable {cpu : Cpu σ} {code code' : List BpfInsn} {here : ℕ → P} {here' : ℕ → Q} {place : P → Q}
  {load load' : BpfInsn → BpfInsn → σ → Option σ} {callee : BpfInsn → Option P}
  {callee' : BpfInsn → Option Q} {base i : ℕ} {s : σ} {e : Effect P σ}

theorem bpfEffect_move (hplace : ∀ j, place (here j) = here' (base + j))
    (hreplaces : ∀ insn, code[i]? = some insn →
      Replaces code code' place load load' callee callee' i (base + i) insn)
    (h : bpfEffect cpu code here load callee i s = some e) :
    bpfEffect cpu code' here' load' callee' (base + i) s = some (e.move place) := by
  obtain ⟨insn, hinsn, h⟩ := Option.bind_eq_some_iff.mp h
  obtain ⟨hsame, hwide, hfunction⟩ := hreplaces insn hinsn
  have hnext : place (here (i + 1)) = here' (base + i + 1) := hplace (i + 1)
  unfold bpfEffect
  cases hkind : insn.kind with
  | second =>
      rw [hkind] at h
      cases h
  | wide =>
      rw [hkind] at h
      obtain ⟨second, hsecond, h⟩ := Option.bind_eq_some_iff.mp h
      split_ifs at h with hcode
      obtain ⟨s', hload, rfl⟩ := Option.map_eq_some_iff.mp h
      obtain ⟨insn', second', hinsn', hkind', hsecond', hcode', hload'⟩ :=
        hwide hkind second hsecond (not_not.mp hcode)
      rw [hinsn', Option.bind_eq_bind, Option.bind_some, hkind']
      dsimp only
      rw [hsecond', Option.bind_some, if_neg (not_not_intro hcode'),
        hload' s s' hload, Option.map_some, Effect.move, hplace]
      rfl
  | function =>
      rw [hkind] at h
      obtain ⟨target, htarget, rfl⟩ := Option.map_eq_some_iff.mp h
      obtain ⟨insn', hinsn', hkind', htarget'⟩ := hfunction hkind target htarget
      rw [hinsn', Option.bind_eq_bind, Option.bind_some, hkind']
      dsimp only
      rw [htarget', Option.map_some, Effect.move, hnext]
  | exit =>
      rw [hkind] at h
      obtain rfl := Option.some.inj h
      rw [hsame (by rw [hkind]; decide) (by rw [hkind]; decide) (by rw [hkind]; decide),
        Option.bind_eq_bind, Option.bind_some, hkind]
      rfl
  | jump =>
      rw [hkind] at h
      rw [hsame (by rw [hkind]; decide) (by rw [hkind]; decide) (by rw [hkind]; decide),
        Option.bind_eq_bind, Option.bind_some, hkind]
      dsimp only at h ⊢
      split_ifs at h ⊢ with htaken
      · obtain ⟨j, hj, rfl⟩ := Option.map_eq_some_iff.mp h
        rw [relative_add hj, Option.map_some, Effect.move, hplace]
      · obtain rfl := Option.some.inj h
        rw [Effect.move, hnext]
  | plain =>
      rw [hkind] at h
      obtain ⟨s', hplain, rfl⟩ := Option.map_eq_some_iff.mp h
      rw [hsame (by rw [hkind]; decide) (by rw [hkind]; decide) (by rw [hkind]; decide),
        Option.bind_eq_bind, Option.bind_some, hkind]
      dsimp only
      rw [hplain, Option.map_some, Effect.move, hnext]

/-- An instruction goes on in the code that it stands in, or at a function. -/
theorem bpfEffect_within {live : P → Prop} (hhere : ∀ j, live (here j))
    (hcallee : ∀ insn target, code[i]? = some insn → insn.kind = .function →
      callee insn = some target → live target)
    (h : bpfEffect cpu code here load callee i s = some e) : e.Within live := by
  obtain ⟨insn, hinsn, h⟩ := Option.bind_eq_some_iff.mp h
  cases hkind : insn.kind with
  | second =>
      rw [hkind] at h
      cases h
  | wide =>
      rw [hkind] at h
      obtain ⟨second, -, h⟩ := Option.bind_eq_some_iff.mp h
      split_ifs at h
      obtain ⟨s', -, rfl⟩ := Option.map_eq_some_iff.mp h
      exact hhere (i + 2)
  | function =>
      rw [hkind] at h
      obtain ⟨target, htarget, rfl⟩ := Option.map_eq_some_iff.mp h
      exact ⟨hcallee insn target hinsn hkind htarget, hhere (i + 1)⟩
  | exit =>
      rw [hkind] at h
      obtain rfl := Option.some.inj h
      exact trivial
  | jump =>
      rw [hkind] at h
      dsimp only at h
      split_ifs at h
      · obtain ⟨j, -, rfl⟩ := Option.map_eq_some_iff.mp h
        exact hhere j
      · obtain rfl := Option.some.inj h
        exact hhere (i + 1)
  | plain =>
      rw [hkind] at h
      obtain ⟨s', -, rfl⟩ := Option.map_eq_some_iff.mp h
      exact hhere (i + 1)

end Effect

/-! ## The two machines -/

section Machines

variable {σ : Type}

/-- A load of the kernel; a descriptor stands for the map it was created for. -/
def kernelLoad (cpu : Cpu σ) (fdMap : UInt32 → Option MapKey) (insn second : BpfInsn) (s : σ) :
    Option σ :=
  if insn.srcReg = 0 then some (cpu.imm64 insn second s)
  else if insn.srcReg = bpfPseudoMapFd then
    (fdMap insn.imm).map fun key ↦ cpu.mapAddress key insn.dstReg s
  else if insn.srcReg = bpfPseudoMapValue then
    (fdMap insn.imm).map fun key ↦ cpu.mapValue key second.imm.toUInt64 insn.dstReg s
  else none

theorem kernelLoad_loadsMap (cpu : Cpu σ) {fdMap : UInt32 → Option MapKey} {fd : UInt32}
    {key : MapKey} (h : fdMap fd = some key) (insn second : BpfInsn) (s : σ) :
    kernelLoad cpu fdMap (insn.loadsMap fd) second s =
      some (cpu.mapAddress key insn.dstReg s) := by
  have hsrc : (insn.loadsMap fd).srcReg = bpfPseudoMapFd := rfl
  rw [kernelLoad, hsrc, if_neg (by decide), if_pos rfl]
  exact congrArg (Option.map _) h

theorem kernelLoad_loadsMapValue (cpu : Cpu σ) {fdMap : UInt32 → Option MapKey} {fd : UInt32}
    {key : MapKey} (h : fdMap fd = some key) (insn second : BpfInsn) (s : σ) :
    kernelLoad cpu fdMap (insn.loadsMapValue fd) second s =
      some (cpu.mapValue key second.imm.toUInt64 insn.dstReg s) := by
  have hsrc : (insn.loadsMapValue fd).srcReg = bpfPseudoMapValue := rfl
  rw [kernelLoad, hsrc, if_neg (by decide), if_neg (by decide), if_pos rfl]
  exact congrArg (Option.map _) h

/-- A program of the kernel: addresses are positions in one list of instructions. -/
def kernelEffect (cpu : Cpu σ) (fdMap : UInt32 → Option MapKey) (code : List BpfInsn) (i : ℕ)
    (s : σ) : Option (Effect ℕ σ) :=
  bpfEffect cpu code id (kernelLoad cpu fdMap) (fun insn ↦ relative i insn.imm.toInt32.toInt) i s

/-- The program itself, or the functions of the object. -/
inductive Part
  | main
  | text
deriving DecidableEq

/-- A program of an object, with what it refers to. -/
structure Source where
  code : Part → List BpfInsn
  rels : Part → List ElfRel

/-- The symbol that the instruction is relocated with, if it is relocated. -/
def Source.symbol (e : Efile) (src : Source) (part : Part) (i : ℕ) : Option ElfSym := do
  let rel ← (src.rels part).find? (·.insnIdx = i)
  (e.symbols.getD [])[rel.sym]?

/-- What is added to the value of the symbol. -/
def addend (insn second : BpfInsn) : UInt64 :=
  UInt64.ofNat (insn.imm.toNat + 2 ^ 32 * second.imm.toNat)

/-- A load in an object: the symbol is one in a data section, or a map. -/
def objectLoad (cpu : Cpu σ) (e : Efile) (sym : Option ElfSym) (insn second : BpfInsn) (s : σ) :
    Option σ :=
  match sym with
  | none => if insn.srcReg = 0 then some (cpu.imm64 insn second s) else none
  | some sym =>
      if e.shndxIsData sym.shndx then
        some (cpu.mapValue (sym.shndx, 0) (sym.value + addend insn second) insn.dstReg s)
      else if e.shndxIsMaps sym.shndx then
        some (cpu.mapAddress (sym.shndx, sym.value + addend insn second) insn.dstReg s)
      else none

/-- The function that a call in an object goes to: one of the same section, or the one in `.text`
that the symbol and the distance name. -/
def objectCallee (e : Efile) (src : Source) (part : Part) (i : ℕ) (insn : BpfInsn) :
    Option (Part × ℕ) :=
  match src.symbol e part i with
  | none => (relative i insn.imm.toInt32.toInt).map (part, ·)
  | some sym =>
      if sym.shndx = e.textShndx then do
        let j ← relative (sym.value / 8).toNat insn.imm.toInt32.toInt
        if j < (src.code .text).length then some (.text, j) else none
      else none

/-- A program of an object: addresses are positions in the program or in the functions. -/
def objectEffect (cpu : Cpu σ) (e : Efile) (src : Source) (p : Part × ℕ) (s : σ) :
    Option (Effect (Part × ℕ) σ) :=
  bpfEffect cpu (src.code p.1) (p.1, ·) (objectLoad cpu e (src.symbol e p.1 p.2))
    (objectCallee e src p.1 p.2) p.2 s

end Machines

end AntiDos
