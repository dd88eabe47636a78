import AntiDos.Object.Load

/-!
# Loaded programs

A program of the loaded object runs as it does in the file, when it is compiled the way the filter
is: one table of relocations for each section, and relocations that name the beginning of what they
mean.
-/

namespace AntiDos

open Faulting Linking

/-- The functions of the object, which are in the section `.text`. -/
def Efile.textInsns (e : Efile) : List BpfInsn :=
  ((e.programs.find? (·.idx = e.textShndx)).map ObjProgram.insns).getD []

/-- A program of the file, and the functions that it calls. -/
def Efile.source (e : Efile) (prog : ObjProgram) : Source where
  code
    | .main => prog.insns
    | .text => e.textInsns
  rels
    | .main => e.relsOf prog.idx
    | .text => e.relsOf e.textShndx

/-- What is asked of the file: its type data defines no maps and has no relocations of its own, a
section has one table of relocations, the functions come before the programs that call them or have
no relocations, and relocations name the beginning of what they mean. -/
structure Linkable (e : Efile) : Prop where
  btfMaps : e.btfMapsShndx = none
  core : ∀ ext ∈ e.btfExt, ext.fieldRelocInfoLen = 0
  nodup : (e.reloc.map Prod.fst).Nodup
  first : ∀ text ∈ e.programs.drop 1, text.idx = e.textShndx → e.relsOf e.textShndx = []
  direct : ∀ prog ∈ e.programs, Direct e prog.insns (e.relsOf prog.idx)
  small : ∀ prog ∈ e.programs, prog.insns.length + e.textInsns.length < 2 ^ 31

instance (e : Efile) : Decidable (Linkable e) :=
  decidable_of_iff (_ ∧ _ ∧ _ ∧ _ ∧ _ ∧ _)
    ⟨fun ⟨btfMaps, core, nodup, first, direct, small⟩ ↦
        ⟨btfMaps, core, nodup, first, direct, small⟩,
      fun ⟨btfMaps, core, nodup, first, direct, small⟩ ↦
        ⟨btfMaps, core, nodup, first, direct, small⟩⟩

section Run

variable {e : Efile} {globalData : Bool} {maps maps' : List ObjMap}
  {progs progs' view : List ObjProgram} {prog₀ prog prog' : ObjProgram}

/-- What the relocation of a program leaves. -/
theorem relocated_relocating (hfresh : e.Fresh)
    (hdirect : Direct e prog₀.insns (e.relsOf prog₀.idx)) (hprog : prog₀ ∈ e.programs)
    (h : HasEntries globalData e maps e.reloc prog₀ prog)
    (hrun : bpfProgramRelocate e maps' view prog = .ok prog') :
    ∃ descs, Entries globalData e maps prog₀.insns (e.relsOf prog₀.idx) descs ∧
      Relocating e maps' view prog₀ descs prog' := by
  obtain ⟨descs, hentries, hdescs⟩ := h.descs
  have hcnt : prog.mainProgCnt = 0 := by
    rw [h.same]
    exact (hfresh.fresh prog₀ hprog).1
  have hinsns : prog.insns = prog₀.insns := by rw [h.same]
  have hidx : prog.idx = prog₀.idx := by rw [h.same]
  refine ⟨descs, hentries, ?_⟩
  rcases hdescs with hsome | ⟨hnone, rfl⟩
  · have hrelocating := bpfProgramRelocate_relocating hsome hcnt
      (fun d hd ↦ hinsns ▸ hentries.fits hdirect hd) (hentries.pairwise hdirect.nodup) hrun
    obtain ⟨hprogIdx, hwritten, hparts⟩ := hrelocating
    refine ⟨hprogIdx.trans hidx, hwritten, ?_⟩
    rw [hinsns] at hparts
    unfold Behind at hparts ⊢
    rwa [hidx, hinsns] at hparts
  · obtain ⟨_, -, hrun⟩ := bind_eq_ok_iff.mp hrun
    rw [hnone] at hrun
    obtain rfl := Except.ok.inj hrun
    exact ⟨hidx, fun _ hd ↦ absurd hd List.not_mem_nil, prog₀.insns, [],
      hinsns.trans (List.append_nil _).symm, Patched.nil maps' prog₀.insns,
      Or.inl ⟨hcnt, rfl, fun _ ↦ List.not_mem_nil⟩⟩

theorem textInsns_eq (hfresh : e.Fresh) {text : ObjProgram} (htext : text ∈ e.programs)
    (hidx : text.idx = e.textShndx) : e.textInsns = text.insns := by
  rw [Efile.textInsns, find?_of_nodup hfresh.nodup htext hidx]
  rfl

/-- What the loops of `bpf_object__collect_reloc` and `bpf_object__relocate` have done to each
program. -/
structure LoadedFrom (globalData : Bool) (e : Efile) (maps maps' : List ObjMap)
    (progs progs' : List ObjProgram) : Prop where
  entries : ∀ (k : ℕ) prog₀, e.programs[k]? = some prog₀ → ∃ prog, progs[k]? = some prog ∧
    HasEntries globalData e maps e.reloc prog₀ prog
  length : progs.length = e.programs.length
  relocated : ∀ (k : ℕ) prog, progs[k]? = some prog → ∃ prog', progs'[k]? = some prog' ∧
    bpfProgramRelocate e maps' (progs'.take k ++ progs.drop k) prog = .ok prog'

/-- A program and what has become of it. -/
theorem LoadedFrom.program (h : LoadedFrom globalData e maps maps' progs progs') (hfresh : e.Fresh)
    (hlink : Linkable e) {k : ℕ} (hk : e.programs[k]? = some prog₀) :
    ∃ prog' descs, progs'[k]? = some prog' ∧
      Entries globalData e maps prog₀.insns (e.relsOf prog₀.idx) descs ∧
      Relocating e maps' (progs'.take k ++ progs.drop k) prog₀ descs prog' := by
  obtain ⟨prog, hprog, hentries⟩ := h.entries k prog₀ hk
  obtain ⟨prog', hprog', hrun⟩ := h.relocated k prog hprog
  have hmem := List.mem_of_getElem? hk
  obtain ⟨descs, hdescs, hrelocating⟩ :=
    relocated_relocating hfresh (hlink.direct prog₀ hmem) hmem hentries hrun
  exact ⟨prog', descs, hprog', hdescs, hrelocating⟩

/-- The functions that are put behind a program have had their own relocations worked off. -/
theorem LoadedFrom.text (h : LoadedFrom globalData e maps maps' progs progs') (hfresh : e.Fresh)
    (hlink : Linkable e) {k : ℕ} (hk : e.programs[k]? = some prog₀)
    (hmain : prog₀.idx ≠ e.textShndx) {text : ObjProgram}
    (hfind : (progs'.take k ++ progs.drop k).find? (·.idx = e.textShndx) = some text) :
    (∃ text₀ ∈ e.programs, text₀.idx = e.textShndx) ∧
      ∃ descs, Entries globalData e maps e.textInsns (e.relsOf e.textShndx) descs ∧
        (∀ d ∈ descs, d ≠ none) ∧ (∀ i, some (.call i) ∉ descs) ∧
          Patched maps' e.textInsns descs text.insns := by
  have hidx : text.idx = e.textShndx := by simpa using List.find?_some hfind
  rcases List.mem_append.mp (List.mem_of_find?_eq_some hfind) with hbefore | hafter
  · -- relocated in an earlier turn
    obtain ⟨j, hj⟩ := List.mem_iff_getElem?.mp hbefore
    rw [List.getElem?_take] at hj
    split_ifs at hj with hjk
    have hlt : j < e.programs.length := hjk.trans (List.getElem?_eq_some_iff.mp hk).1
    have ht := List.getElem?_eq_getElem hlt
    obtain ⟨text', descs, htext', hentries, hrelocating⟩ := h.program hfresh hlink ht
    obtain rfl := Option.some.inj (hj.symm.trans htext')
    have hidx₀ : e.programs[j].idx = e.textShndx := hrelocating.idx.symm.trans hidx
    have hmem := List.getElem_mem hlt
    obtain ⟨body, tail, hinsns, hpatched, hbehind⟩ := hrelocating.insns
    rw [textInsns_eq hfresh hmem hidx₀]
    refine ⟨⟨_, hmem, hidx₀⟩, descs, hidx₀ ▸ hentries, hrelocating.written, ?_⟩
    rcases hbehind with ⟨-, rfl, hcalls⟩ | ⟨-, hne, -⟩
    · rw [hinsns, List.append_nil]
      exact ⟨hcalls, hpatched⟩
    · exact absurd hidx₀ hne
  · -- not relocated yet
    obtain ⟨i, hi⟩ := List.mem_iff_getElem?.mp hafter
    rw [List.getElem?_drop] at hi
    have hlt : k + i < e.programs.length := h.length ▸ (List.getElem?_eq_some_iff.mp hi).1
    have ht := List.getElem?_eq_getElem hlt
    obtain ⟨text', htext', hentries⟩ := h.entries _ _ ht
    obtain rfl := Option.some.inj (hi.symm.trans htext')
    have hsame : text.idx = e.programs[k + i].idx := by rw [hentries.same]
    have hinsns : text.insns = e.programs[k + i].insns := by rw [hentries.same]
    have hidx₀ := hsame.symm.trans hidx
    have hmem := List.getElem_mem hlt
    have hrels : e.relsOf e.textShndx = [] := by
      refine hlink.first _ (List.mem_iff_getElem?.mpr ⟨k + i - 1, ?_⟩) hidx₀
      have hpos : k + i ≠ 0 := by
        intro hzero
        obtain ⟨rfl, rfl⟩ := Nat.add_eq_zero_iff.mp hzero
        obtain rfl := Option.some.inj (hk.symm.trans ht)
        exact hmain hidx₀
      rw [List.getElem?_drop, Nat.add_sub_cancel' (Nat.one_le_iff_ne_zero.mpr hpos)]
      exact ht
    rw [textInsns_eq hfresh hmem hidx₀, hrels, hinsns]
    exact ⟨⟨_, hmem, hidx₀⟩, [], .nil, fun _ hd ↦ absurd hd List.not_mem_nil,
      fun _ ↦ List.not_mem_nil, Patched.nil maps' _⟩

/-! ## Runs -/

/-- Where the instructions of a program of `cnt` instructions and of its functions are loaded. -/
def loadedAt (cnt : ℕ) : Part × ℕ → ℕ
  | (.main, i) => i
  | (.text, i) => cnt + i

/-- The instructions that a run comes to have been loaded, and their effects are those that they
have in the file. -/
theorem LoadedFrom.effect {σ : Type} (h : LoadedFrom globalData e maps maps' progs progs')
    (hfresh : e.Fresh) (hlink : Linkable e) {fds : UInt32 → Option MapKey}
    (hresolves : Resolves e maps maps' fds) {k : ℕ} (hk : e.programs[k]? = some prog₀)
    (hmain : prog₀.idx ≠ e.textShndx) (cpu : Cpu σ) :
    ∃ prog', progs'[k]? = some prog' ∧ ∃ live : Part × ℕ → Prop, (∀ i, live (.main, i)) ∧
      ∀ p, live p → ∀ s eff, objectEffect cpu e (e.source prog₀) p s = some eff →
        kernelEffect cpu fds prog'.insns (loadedAt prog₀.insns.length p) s =
          some (eff.move (loadedAt prog₀.insns.length)) ∧ eff.Within live := by
  obtain ⟨prog', descs, hprog', hentries, hrelocating⟩ := h.program hfresh hlink hk
  have hmem := List.mem_of_getElem? hk
  obtain ⟨body, tail, hinsns, hpatched, hbehind⟩ := hrelocating.insns
  have hlaid : Laid globalData e maps maps' (e.source prog₀) .main (loadedAt prog₀.insns.length) 0
      prog'.insns descs := by
    refine ⟨hlink.direct prog₀ hmem, hentries, hrelocating.written, ⟨body, hpatched, fun j hj ↦ ?_⟩,
      fun j ↦ (Nat.zero_add j).symm, fun _ _ ↦ ⟨rfl, hlink.small prog₀ hmem, fun _ ↦ rfl⟩⟩
    rw [hinsns, Nat.zero_add]
    exact List.getElem?_append_left (hpatched.length ▸ hj)
  have hstep : ∀ i s eff, objectEffect cpu e (e.source prog₀) (.main, i) s = some eff →
      kernelEffect cpu fds prog'.insns i s = some (eff.move (loadedAt prog₀.insns.length)) := by
    intro i s eff heff
    have hmoved := hlaid.effect hresolves heff
    rwa [Nat.zero_add] at hmoved
  refine ⟨prog', hprog', ?_⟩
  rcases hbehind with ⟨-, -, hnone⟩ | ⟨-, -, text, hfind, rfl⟩
  · -- no call has been relocated, so that the program goes on in its own code
    refine ⟨fun p ↦ p.1 = .main, fun _ ↦ rfl, ?_⟩
    rintro ⟨part, i⟩ rfl s eff heff
    refine ⟨hstep i s eff heff,
      bpfEffect_within (fun _ ↦ rfl) (fun insn target hinsn hkind ↦ ?_) heff⟩
    have hsymbol : (e.source prog₀).symbol e .main i = none := by
      refine symbol_eq_none fun rel hrel hi ↦ ?_
      obtain ⟨d, sym, insn', hd, -, hinsn', hcollected⟩ :=
        hentries.of_rel hrelocating.written hrel
      rw [hi] at hinsn' hcollected
      obtain rfl := Option.some.inj (hinsn.symm.trans hinsn')
      obtain ⟨hcode, -⟩ := kind_function hkind
      cases hcollected with
      | call => exact hnone i hd
      | ld64 hwide => exact absurd (hwide.symm.trans hcode) (by decide)
      | data hwide => exact absurd (hwide.symm.trans hcode) (by decide)
    intro htarget
    rw [objectCallee, hsymbol] at htarget
    obtain ⟨j, -, rfl⟩ := Option.map_eq_some_iff.mp htarget
    rfl
  · -- the functions stand behind the program
    obtain ⟨⟨text₀, htext₀, hidx⟩, descs', hentries', hwritten', hcalls', hpatched'⟩ :=
      h.text hfresh hlink hk hmain hfind
    have hdirect : Direct e e.textInsns (e.relsOf e.textShndx) := by
      have := hlink.direct text₀ htext₀
      rwa [hidx, ← textInsns_eq hfresh htext₀ hidx] at this
    have hlaid' : Laid globalData e maps maps' (e.source prog₀) .text
        (loadedAt prog₀.insns.length) prog₀.insns.length prog'.insns descs' := by
      refine ⟨hdirect, hentries', hwritten', ⟨text.insns, hpatched', fun j _ ↦ ?_⟩, fun _ ↦ rfl,
        fun i hi ↦ absurd hi (hcalls' i)⟩
      rw [hinsns, ← hpatched.length, List.getElem?_append_right (Nat.le_add_right _ _),
        Nat.add_sub_cancel_left]
    refine ⟨fun _ ↦ True, fun _ ↦ trivial, ?_⟩
    rintro ⟨part, i⟩ - s eff heff
    refine ⟨?_, bpfEffect_within (fun _ ↦ trivial) (fun _ _ _ _ _ ↦ trivial) heff⟩
    cases part with
    | main => exact hstep i s eff heff
    | text => exact hlaid'.effect hresolves heff

end Run

/-- The steps of loading. -/
structure Loaded (sections : List ElfSection) (e : Efile) (maps maps' : List ObjMap)
    (kernel : List KernelMap) (progs' : List ObjProgram) (objName : String)
    (strict globalData : Bool) (btfExt : Option BtfExt) (nrCpus : Int)
    (replies : ℕ → CreateReply) : Prop where
  collect : bpfObjectElfCollect strict globalData objName btfExt sections = .ok (e, maps)
  create : bpfObjectCreateMaps nrCpus replies maps = .ok (maps', kernel)
  relocate : ∃ progs, bpfObjectCollectReloc globalData e maps = .ok progs ∧
    bpfObjectRelocate e maps' progs = .ok progs'

section Loaded

variable {sections : List ElfSection} {e : Efile} {maps maps' : List ObjMap}
  {kernel : List KernelMap} {progs' : List ObjProgram} {objName : String}
  {strict globalData : Bool} {btfExt : Option BtfExt} {nrCpus : Int} {replies : ℕ → CreateReply}
  {prog₀ : ObjProgram}

end Loaded

/-! ## A small object -/

def sampleSymbols : List ElfSym :=
  [⟨some "first", 4, 0, true⟩, ⟨some "second", 4, 20, true⟩, ⟨some "", 1, 0, false⟩,
    ⟨some "xdp_sample", 2, 0, true⟩]

/-- A function in `.text`, and a program that loads the second of two maps and calls the
function. -/
def sampleSections : List ElfSection :=
  [⟨".text", .progbits, true, 0, 0,
      [0xb7, 0, 0, 0, 1, 0, 0, 0, 0x95, 0, 0, 0, 0, 0, 0, 0], [], []⟩,
    ⟨"xdp", .progbits, true, 0, 0,
      [0x18, 1, 0, 0, 0, 0, 0, 0, 0, 0, 0, 0, 0, 0, 0, 0,
        0x85, 0x10, 0, 0, 0xff, 0xff, 0xff, 0xff, 0x95, 0, 0, 0, 0, 0, 0, 0], [], []⟩,
    ⟨".relxdp", .rel, false, 2, 5, [], [], [⟨0, 1⟩, ⟨16, 2⟩]⟩,
    ⟨"maps", .progbits, false, 0, 0,
      [2, 0, 0, 0, 4, 0, 0, 0, 8, 0, 0, 0, 1, 0, 0, 0, 0, 0, 0, 0,
        1, 0, 0, 0, 4, 0, 0, 0, 8, 0, 0, 0, 9, 0, 0, 0, 0, 0, 0, 0], [], []⟩,
    ⟨".symtab", .symtab, false, 0, 6, [], sampleSymbols, []⟩,
    ⟨".strtab", .other, false, 0, 0, [], [], []⟩]

def sampleText : ObjProgram :=
  ⟨1, some ".text", ".text", [⟨0xb7, 0, 0, 0, 1⟩, ⟨0x95, 0, 0, 0, 0⟩], 0, none⟩

def sampleProgram : ObjProgram :=
  ⟨2, some "xdp_sample", "xdp",
    [⟨0x18, 1, 0, 0, 0⟩, ⟨0, 0, 0, 0, 0⟩, ⟨0x85, 0, 1, 0, 0xffffffff⟩, ⟨0x95, 0, 0, 0, 0⟩],
    0, none⟩

def sampleEfile : Efile :=
  ⟨some 4, none, 1, none, none, none, some sampleSymbols, 6, [(2, [⟨0, 1⟩, ⟨16, 2⟩])],
    [sampleText, sampleProgram], none⟩

/-- The maps, with the descriptors `fds`. -/
def sampleMaps (fds : ℕ → Option UInt32) : List ObjMap :=
  [⟨fds 0, "first", 4, 0, ⟨2, 4, 8, 1, 0⟩, .unspec⟩,
    ⟨fds 1, "second", 4, 20, ⟨1, 4, 8, 9, 0⟩, .unspec⟩]

/-- The address of a map is the offset of its definition, and everything else adds its immediate. -/
def sampleCpu : Cpu ℕ where
  plain insn s := some (s + insn.imm.toNat)
  taken _ _ := false
  imm64 insn _ s := s + insn.imm.toNat
  mapAddress key _ s := s + key.2.toNat
  mapValue _ _ _ s := s

theorem sample_loaded : Loaded sampleSections sampleEfile (sampleMaps fun _ ↦ none)
    (sampleMaps fun i ↦ some (UInt32.ofNat (i + 3)))
    [⟨3, ⟨2, 4, 8, 1, 0⟩⟩, ⟨4, ⟨1, 4, 8, 9, 0⟩⟩]
    [sampleText, ⟨2, some "xdp_sample", "xdp",
      [⟨0x18, 1, 1, 0, 4⟩, ⟨0, 0, 0, 0, 0⟩, ⟨0x85, 0, 1, 0, 1⟩, ⟨0x95, 0, 0, 0, 0⟩,
        ⟨0xb7, 0, 0, 0, 1⟩, ⟨0x95, 0, 0, 0, 0⟩], 4, none⟩]
    "sample" false false none 1 (fun i ↦ ⟨.ok (UInt32.ofNat (i + 3)), true⟩) := by
  have hsorted : (sampleMaps fun _ ↦ none).Pairwise fun a b ↦ compareBpfMap a b ≤ 0 := by decide
  have hinit : ∀ e : Efile, bpfObjectInitUserMaps false sampleSections e =
      .ok (sampleMaps fun _ ↦ none) → bpfObjectInitMaps false false "sample" sampleSections e =
        .ok (sampleMaps fun _ ↦ none) := by
    intro e huser
    rw [bpfObjectInitMaps, huser]
    exact congrArg Except.ok (List.mergeSort_of_pairwise (hsorted.imp decide_eq_true))
  refine ⟨bind_eq_ok_iff.mpr ⟨_, rfl, ?_⟩, rfl, _, rfl, rfl⟩
  exact bind_eq_ok_iff.mpr ⟨_, hinit _ rfl, rfl⟩

end AntiDos
