import AntiDos.Object.Meaning

/-!
# Relocated programs

Each relocation rewrites the instruction that it names, and the second half of it where that is the
value of a data section; nothing else changes. What is written makes the instruction do for the
kernel what it does in the object, so that a run of the object is a run of the relocated program.
-/

namespace AntiDos

open Faulting Linking

/-! ## What a relocation writes -/

namespace RelocDesc

def insnIdx : RelocDesc → ℕ
  | ld64 i _ => i
  | call i => i
  | data i _ => i

def Touches (j : ℕ) : RelocDesc → Prop
  | ld64 i _ => j = i
  | call i => j = i
  | data i _ => j = i ∨ j = i + 1

/-- The entry names an instruction of its kind, with a second half behind a load. -/
def Fits (code : List BpfInsn) : RelocDesc → Prop
  | call i => ∃ insn, code[i]? = some insn ∧ insn.code = bpfCall
  | ld64 i _ => ∃ insn second, code[i]? = some insn ∧ insn.code = bpfLdImm64 ∧
      code[i + 1]? = some second ∧ second.code = 0
  | data i _ => ∃ insn second, code[i]? = some insn ∧ insn.code = bpfLdImm64 ∧
      code[i + 1]? = some second ∧ second.code = 0

/-- What stands in `code'` in place of what the entry names in `code`, a program of `cnt`
instructions. -/
def Rewrites (maps : List ObjMap) (cnt : ℕ) (code code' : List BpfInsn) : RelocDesc → Prop
  | ld64 i k => ∃ insn fd, code[i]? = some insn ∧ fdOf maps k = .ok fd ∧
      code'[i]? = some (insn.loadsMap fd)
  | data i k => ∃ insn second fd, code[i]? = some insn ∧ code[i + 1]? = some second ∧
      fdOf maps k = .ok fd ∧
      code'[i]? = some (insn.loadsMapValue fd) ∧
      code'[i + 1]? = some (second.withImm insn.imm)
  | call i => ∃ insn, code[i]? = some insn ∧
      code'[i]? = some (insn.withImm (insn.imm + (UInt32.ofNat cnt - UInt32.ofNat i)))

variable {maps : List ObjMap} {cnt : ℕ} {code body body' : List BpfInsn} {d d' : RelocDesc}

theorem Rewrites.congr (h : d.Rewrites maps cnt code body)
    (hsame : ∀ j, d.Touches j → body'[j]? = body[j]?) : d.Rewrites maps cnt code body' := by
  cases d with
  | ld64 i k =>
      obtain ⟨insn, fd, hinsn, hfd, hnew⟩ := h
      exact ⟨insn, fd, hinsn, hfd, (hsame i rfl).trans hnew⟩
  | call i =>
      obtain ⟨insn, hinsn, hnew⟩ := h
      exact ⟨insn, hinsn, (hsame i rfl).trans hnew⟩
  | data i k =>
      obtain ⟨insn, second, fd, hinsn, hsecond, hfd, hnew, hnew'⟩ := h
      exact ⟨insn, second, fd, hinsn, hsecond, hfd, (hsame i (Or.inl rfl)).trans hnew,
        (hsame (i + 1) (Or.inr rfl)).trans hnew'⟩

/-- The instruction that an entry names is not the second half of another one. -/
theorem Fits.code_ne_zero (h : d.Fits code) :
    ∃ insn, code[d.insnIdx]? = some insn ∧ insn.code ≠ 0 := by
  cases d with
  | ld64 i k =>
      obtain ⟨insn, second, hinsn, hcode, -⟩ := h
      exact ⟨insn, hinsn, by rw [hcode]; decide⟩
  | call i =>
      obtain ⟨insn, hinsn, hcode⟩ := h
      exact ⟨insn, hinsn, by rw [hcode]; decide⟩
  | data i k =>
      obtain ⟨insn, second, hinsn, hcode, -⟩ := h
      exact ⟨insn, hinsn, by rw [hcode]; decide⟩

theorem Fits.touches (h : d.Fits code) {j : ℕ} (hj : d.Touches j) :
    j = d.insnIdx ∨ j = d.insnIdx + 1 ∧ ∃ second, code[j]? = some second ∧ second.code = 0 := by
  cases d with
  | ld64 i k => exact Or.inl hj
  | call i => exact Or.inl hj
  | data i k =>
      rcases hj with rfl | rfl
      · exact Or.inl rfl
      · obtain ⟨insn, second, -, -, hsecond⟩ := h
        exact Or.inr ⟨rfl, second, hsecond⟩

/-- Entries that name different instructions write to different places. -/
theorem Fits.apart (hd : d.Fits code) (hd' : d'.Fits code) (hne : d.insnIdx ≠ d'.insnIdx) {j : ℕ}
    (hj : d.Touches j) : ¬d'.Touches j := by
  intro hj'
  obtain ⟨insn, hinsn, hcode⟩ := hd.code_ne_zero
  obtain ⟨insn', hinsn', hcode'⟩ := hd'.code_ne_zero
  rcases hd.touches hj with rfl | ⟨rfl, second, hsecond, hzero⟩
  · rcases hd'.touches hj' with heq | ⟨-, second', hsecond', hzero'⟩
    · exact hne heq
    · obtain rfl := Option.some.inj (hinsn.symm.trans hsecond')
      exact hcode hzero'
  · rcases hd'.touches hj' with heq | ⟨heq, -⟩
    · rw [heq] at hsecond
      obtain rfl := Option.some.inj (hinsn'.symm.trans hsecond)
      exact hcode' hzero
    · exact hne (Nat.succ.inj heq)

end RelocDesc

/-! ## A whole program -/

/-- The instructions after the entries `descs` have been worked off. -/
structure Patched (maps : List ObjMap) (code : List BpfInsn) (descs : List (Option RelocDesc))
    (body : List BpfInsn) : Prop where
  length : body.length = code.length
  rewritten : ∀ d, some d ∈ descs → d.Rewrites maps code.length code body
  other : ∀ j, (∀ d, some d ∈ descs → ¬d.Touches j) → body[j]? = code[j]?

variable {maps : List ObjMap} {code body body' : List BpfInsn} {pre : List (Option RelocDesc)}
  {d : RelocDesc}

theorem Patched.nil (maps : List ObjMap) (code : List BpfInsn) : Patched maps code [] code :=
  ⟨rfl, fun _ h ↦ absurd h List.not_mem_nil, fun _ _ ↦ rfl⟩

theorem Patched.append (h : Patched maps code pre body) (hlength : body'.length = body.length)
    (hnew : d.Rewrites maps code.length code body')
    (hother : ∀ j, ¬d.Touches j → body'[j]? = body[j]?)
    (hapart : ∀ d', some d' ∈ pre → ∀ j, d.Touches j → ¬d'.Touches j) :
    Patched maps code (pre ++ [some d]) body' := by
  refine ⟨hlength.trans h.length, fun d' hd' ↦ ?_, fun j hj ↦ ?_⟩
  · rcases List.mem_append.mp hd' with hold | hsame
    · exact (h.rewritten d' hold).congr fun j hj ↦ hother j fun hdj ↦ hapart d' hold j hdj hj
    · obtain rfl := Option.some.inj (List.mem_singleton.mp hsame)
      exact hnew
  · have hd : ¬d.Touches j := hj d (by simp)
    exact (hother j hd).trans (h.other j fun d' hd' ↦ hj d' (List.mem_append_left _ hd'))

/-- The places that no other entry writes to are still as they were. -/
theorem Patched.untouched (h : Patched maps code pre body)
    (hapart : ∀ d', some d' ∈ pre → ∀ j, d.Touches j → ¬d'.Touches j) {j : ℕ} (hj : d.Touches j) :
    body[j]? = code[j]? :=
  h.other j fun d' hd' ↦ hapart d' hd' j hj

/-- No entry changes what kind of instruction stands at a place. -/
theorem Patched.code_eq (h : Patched maps code pre body) {j : ℕ} {insn : BpfInsn}
    (hinsn : code[j]? = some insn) : ∃ insn', body[j]? = some insn' ∧ insn'.code = insn.code := by
  by_cases htouched : ∃ d, some d ∈ pre ∧ d.Touches j
  · obtain ⟨d, hd, hj⟩ := htouched
    have hrewrites := h.rewritten d hd
    cases d with
    | ld64 i k =>
        obtain rfl : j = i := hj
        obtain ⟨insn', fd, hinsn', -, hnew⟩ := hrewrites
        obtain rfl := Option.some.inj (hinsn.symm.trans hinsn')
        exact ⟨_, hnew, rfl⟩
    | call i =>
        obtain rfl : j = i := hj
        obtain ⟨insn', hinsn', hnew⟩ := hrewrites
        obtain rfl := Option.some.inj (hinsn.symm.trans hinsn')
        exact ⟨_, hnew, rfl⟩
    | data i k =>
        obtain ⟨insn', second, fd, hinsn', hsecond, -, hnew, hnew'⟩ := hrewrites
        rcases hj with rfl | rfl
        · obtain rfl := Option.some.inj (hinsn.symm.trans hinsn')
          exact ⟨_, hnew, rfl⟩
        · obtain rfl := Option.some.inj (hinsn.symm.trans hsecond)
          exact ⟨_, hnew', rfl⟩
  · exact ⟨insn, (h.other j fun d hd hj ↦ htouched ⟨d, hd, hj⟩).trans hinsn, rfl⟩

section Relocating

variable {e : Efile} {progs : List ObjProgram} {prog p p' : ObjProgram}

theorem insnAt_eq_ok {insns : List BpfInsn} {i : ℕ} {insn : BpfInsn} :
    insnAt insns i = .ok insn ↔ insns[i]? = some insn := by
  unfold insnAt
  cases insns[i]? with
  | none => exact ⟨nofun, nofun⟩
  | some x => simp

/-- The functions stand behind the program as soon as a call has been relocated. -/
def Behind (e : Efile) (progs : List ObjProgram) (prog : ObjProgram)
    (pre : List (Option RelocDesc)) (cnt : ℕ) (tail : List BpfInsn) : Prop :=
  cnt = 0 ∧ tail = [] ∧ (∀ i, some (.call i) ∉ pre) ∨
    cnt = prog.insns.length ∧ prog.idx ≠ e.textShndx ∧
      ∃ text, progs.find? (·.idx = e.textShndx) = some text ∧ tail = text.insns

/-- Where the loop of `bpf_program__relocate` stands after the entries `pre`. -/
structure Relocating (e : Efile) (maps : List ObjMap) (progs : List ObjProgram)
    (prog : ObjProgram) (pre : List (Option RelocDesc)) (p : ObjProgram) : Prop where
  idx : p.idx = prog.idx
  written : ∀ d ∈ pre, d ≠ none
  insns : ∃ body tail, p.insns = body ++ tail ∧ Patched maps prog.insns pre body ∧
    Behind e progs prog pre p.mainProgCnt tail

theorem Behind.append {cnt : ℕ} {tail : List BpfInsn} (h : Behind e progs prog pre cnt tail)
    (hcall : ∀ i, d ≠ .call i) : Behind e progs prog (pre ++ [some d]) cnt tail := by
  refine h.imp_left fun ⟨hcnt, htail, hnone⟩ ↦ ⟨hcnt, htail, fun i hi ↦ ?_⟩
  rcases List.mem_append.mp hi with hold | hsame
  · exact hnone i hold
  · exact hcall i (Option.some.inj (List.mem_singleton.mp hsame)).symm

/-- After a call has been relocated the functions stand behind the program. -/
theorem appendText_behind {q : ObjProgram} {tail : List BpfInsn}
    (hbehind : Behind e progs prog pre p.mainProgCnt tail) (hpos : 0 < prog.insns.length)
    (hinsns : p.insns = body ++ tail) (hlength : body.length = prog.insns.length)
    (h : appendText e progs p = .ok q) :
    ∃ text, progs.find? (·.idx = e.textShndx) = some text ∧ q.insns = body ++ text.insns ∧
      q.mainProgCnt = prog.insns.length ∧ q.idx = p.idx := by
  unfold appendText at h
  rcases hbehind with ⟨hcnt, rfl, -⟩ | ⟨hcnt, -, text, htext, rfl⟩
  · rw [if_pos hcnt] at h
    cases htext : progs.find? (·.idx = e.textShndx) with
    | none =>
        rw [htext] at h
        cases h
    | some text =>
        rw [htext] at h
        obtain ⟨_, -, h⟩ := bind_eq_ok_iff.mp h
        obtain rfl := Except.ok.inj h
        refine ⟨text, rfl, ?_, ?_, rfl⟩
        · rw [hinsns, List.append_nil]
        · rw [hinsns, List.append_nil, hlength]
  · rw [if_neg (hcnt ▸ Nat.ne_of_gt hpos)] at h
    obtain rfl := Except.ok.inj h
    exact ⟨text, htext, hinsns, hcnt, rfl⟩

/-- The loop goes on behind an entry that has been worked off. -/
theorem Relocating.extend {tail : List BpfInsn} (h : Relocating e maps progs prog pre p)
    (hpatched : Patched maps prog.insns pre body)
    (hapart : ∀ d', some d' ∈ pre → ∀ j, d.Touches j → ¬d'.Touches j) (hidx : p'.idx = p.idx)
    (hinsns : p'.insns = body' ++ tail) (hlength : body'.length = body.length)
    (hnew : d.Rewrites maps prog.insns.length prog.insns body')
    (hother : ∀ j, ¬d.Touches j → body'[j]? = body[j]?)
    (hbehind : Behind e progs prog (pre ++ [some d]) p'.mainProgCnt tail) :
    Relocating e maps progs prog (pre ++ [some d]) p' := by
  refine ⟨hidx.trans h.idx, fun d' hd' ↦ ?_, body', tail, hinsns,
    hpatched.append hlength hnew hother hapart, hbehind⟩
  rcases List.mem_append.mp hd' with hold | hlast
  · exact h.written d' hold
  · rw [List.mem_singleton.mp hlast]
    exact Option.some_ne_none d

/-- What one entry does. -/
theorem relocate_step (h : Relocating e maps progs prog pre p) (hfits : d.Fits prog.insns)
    (hapart : ∀ d', some d' ∈ pre → ∀ j, d.Touches j → ¬d'.Touches j)
    (hrun : relocate e maps progs p (some d) = .ok p') :
    Relocating e maps progs prog (pre ++ [some d]) p' := by
  obtain ⟨body, tail, hinsns, hpatched, hbehind⟩ := h.insns
  have hlength := hpatched.length
  have hthere : ∀ {j insn}, d.Touches j → prog.insns[j]? = some insn →
      j < body.length ∧ body[j]? = some insn := by
    intro j insn hj hinsn
    have hc := (hpatched.untouched hapart hj).trans hinsn
    exact ⟨(List.getElem?_eq_some_iff.mp hc).1, hc⟩
  cases d with
  | ld64 i k =>
      obtain ⟨insn, second, hinsn, -⟩ := hfits
      obtain ⟨hi, hc⟩ := hthere rfl hinsn
      rw [relocate] at hrun
      split_ifs at hrun
      obtain ⟨insn', hinsn', hrun⟩ := bind_eq_ok_iff.mp hrun
      obtain ⟨fd, hfd, hrun⟩ := bind_eq_ok_iff.mp hrun
      obtain rfl := Except.ok.inj hrun
      rw [insnAt_eq_ok, hinsns, List.getElem?_append_left hi, hc] at hinsn'
      obtain rfl := Option.some.inj hinsn'
      have hp' : p.insns.set i (insn.loadsMap fd) = body.set i (insn.loadsMap fd) ++ tail := by
        rw [hinsns, List.set_append_left _ _ hi]
      refine h.extend hpatched hapart rfl hp' List.length_set ⟨insn, fd, hinsn, hfd, ?_⟩
        (fun j hj ↦ ?_) (hbehind.append fun _ ↦ nofun)
      · exact List.getElem?_set_self hi
      · exact List.getElem?_set_ne (Ne.symm hj)
  | data i k =>
      obtain ⟨insn, second, hinsn, -, hsecond, -⟩ := hfits
      obtain ⟨hi, hc⟩ := hthere (Or.inl rfl) hinsn
      obtain ⟨hi', hc'⟩ := hthere (Or.inr rfl) hsecond
      rw [relocate] at hrun
      split_ifs at hrun
      obtain ⟨insn', hinsn', hrun⟩ := bind_eq_ok_iff.mp hrun
      obtain ⟨second', hsecond', hrun⟩ := bind_eq_ok_iff.mp hrun
      obtain ⟨fd, hfd, hrun⟩ := bind_eq_ok_iff.mp hrun
      obtain rfl := Except.ok.inj hrun
      rw [insnAt_eq_ok, hinsns, List.getElem?_append_left hi, hc] at hinsn'
      rw [insnAt_eq_ok, hinsns, List.getElem?_append_left hi', hc'] at hsecond'
      obtain rfl := Option.some.inj hinsn'
      obtain rfl := Option.some.inj hsecond'
      have hne : i ≠ i + 1 := Nat.ne_of_lt (Nat.lt_succ_self i)
      have hp' : (p.insns.set (i + 1) (second.withImm insn.imm)).set i (insn.loadsMapValue fd) =
          (body.set (i + 1) (second.withImm insn.imm)).set i (insn.loadsMapValue fd) ++ tail := by
        rw [hinsns, List.set_append_left _ _ hi',
          List.set_append_left _ _ (by rwa [List.length_set])]
      refine h.extend hpatched hapart rfl hp' ?_ ⟨insn, second, fd, hinsn, hsecond, hfd, ?_, ?_⟩
        (fun j hj ↦ ?_) (hbehind.append fun _ ↦ nofun)
      · rw [List.length_set, List.length_set]
      · exact List.getElem?_set_self (by rwa [List.length_set])
      · rw [List.getElem?_set_ne hne]
        exact List.getElem?_set_self hi'
      · rw [List.getElem?_set_ne fun heq ↦ hj (Or.inl heq.symm),
          List.getElem?_set_ne fun heq ↦ hj (Or.inr heq.symm)]
  | call i =>
      obtain ⟨insn, hinsn, -⟩ := hfits
      obtain ⟨hi, hc⟩ := hthere rfl hinsn
      rw [relocate, bpfProgramRelocText] at hrun
      split_ifs at hrun with htext
      obtain ⟨q, hq, hrun⟩ := bind_eq_ok_iff.mp hrun
      obtain ⟨text, hfind, hqinsns, hcnt, hqidx⟩ :=
        appendText_behind hbehind (hlength ▸ Nat.zero_lt_of_lt hi) hinsns hlength hq
      obtain ⟨insn', hinsn', hrun⟩ := bind_eq_ok_iff.mp hrun
      obtain rfl := Except.ok.inj hrun
      rw [insnAt_eq_ok, hqinsns, List.getElem?_append_left hi, hc] at hinsn'
      obtain rfl := Option.some.inj hinsn'
      have hp' : q.insns.set i
          (insn.withImm (insn.imm + (UInt32.ofNat q.mainProgCnt - UInt32.ofNat i))) =
          body.set i (insn.withImm (insn.imm +
            (UInt32.ofNat prog.insns.length - UInt32.ofNat i))) ++ text.insns := by
        rw [hqinsns, hcnt, List.set_append_left _ _ hi]
      refine h.extend hpatched hapart hqidx hp' List.length_set ⟨insn, hinsn, ?_⟩ (fun j hj ↦ ?_)
        (Or.inr ⟨hcnt, h.idx ▸ htext, text, hfind, rfl⟩)
      · exact List.getElem?_set_self hi
      · exact List.getElem?_set_ne (Ne.symm hj)

/-- What the relocation of a whole program does. -/
theorem bpfProgramRelocate_relocating {descs : List (Option RelocDesc)}
    (hdescs : prog.relocDesc = some descs) (hcnt : prog.mainProgCnt = 0)
    (hfits : ∀ d, some d ∈ descs → d.Fits prog.insns)
    (hnodup : descs.Pairwise fun a b ↦ ∀ d ∈ a, ∀ d' ∈ b, d.insnIdx ≠ d'.insnIdx)
    (hrun : bpfProgramRelocate e maps progs prog = .ok p') :
    Relocating e maps progs prog descs p' := by
  obtain ⟨_, -, hrun⟩ := bind_eq_ok_iff.mp hrun
  rw [hdescs] at hrun
  obtain ⟨q, hq, hrun⟩ := bind_eq_ok_iff.mp hrun
  obtain rfl := Except.ok.inj hrun
  have hstart : Relocating e maps progs prog [] prog :=
    ⟨rfl, fun _ h ↦ absurd h List.not_mem_nil, prog.insns, [], (List.append_nil _).symm,
      Patched.nil maps prog.insns, Or.inl ⟨hcnt, rfl, fun _ ↦ List.not_mem_nil⟩⟩
  have hend := foldlM_processed (Relocating e maps progs prog)
    (fun pre desc post p p' hsplit hp hstep ↦ ?_) hstart hq
  · exact ⟨hend.idx, hend.written, hend.insns⟩
  · cases desc with
    | none => cases hstep
    | some d =>
        rw [hsplit, List.pairwise_append] at hnodup
        have hmem : ∀ x ∈ pre ++ some d :: post, x ∈ descs := fun x hx ↦ hsplit ▸ hx
        refine relocate_step hp (hfits d (hmem _ (by simp))) (fun d' hd' j hj ↦ ?_) hstep
        have hne := hnodup.2.2 _ hd' _ List.mem_cons_self d' rfl d rfl
        exact (hfits d (hmem _ (by simp))).apart (hfits d' (hmem _ (by simp [hd']))) hne.symm hj

end Relocating

/-! ## What is collected -/

section Collect

variable {e : Efile} {globalData : Bool} {rel : ElfRel}

/-- The section of the data maps of a type. -/
def Efile.sectionOf (e : Efile) : LibbpfMapType → Option ℕ
  | .unspec => none
  | .data => e.dataShndx
  | .bss => e.bssShndx
  | .rodata => e.rodataShndx

theorem sectionOf_sectionToLibbpfMapType {shndx : ℕ}
    (h : e.sectionToLibbpfMapType shndx ≠ .unspec) :
    e.sectionOf (e.sectionToLibbpfMapType shndx) = some shndx ∧ e.shndxIsData shndx := by
  unfold Efile.sectionToLibbpfMapType at h ⊢
  split_ifs at h ⊢ with hdata hbss hrodata
  · exact ⟨hdata.symm, Or.inl hdata⟩
  · exact ⟨hbss.symm, Or.inr (Or.inl hbss)⟩
  · exact ⟨hrodata.symm, Or.inr (Or.inr hrodata)⟩
  · exact absurd rfl h

theorem not_shndxIsData {shndx : ℕ} (h : e.sectionToLibbpfMapType shndx = .unspec) :
    ¬e.shndxIsData shndx := by
  unfold Efile.sectionToLibbpfMapType at h
  split_ifs at h with hdata hbss hrodata
  rintro (hdata' | hbss' | hrodata')
  · exact hdata hdata'
  · exact hbss hbss'
  · exact hrodata hrodata'

/-- The entries that are written for the instruction `i` and a symbol. -/
inductive Collected (e : Efile) (maps : List ObjMap) (i : ℕ) (sym : ElfSym) (insn : BpfInsn) :
    RelocDesc → Prop
  | call (hcode : insn.code = bpfCall) (hsrc : insn.srcReg = bpfPseudoCall) :
      Collected e maps i sym insn (.call i)
  | ld64 {k : ℕ} {m : ObjMap} (hcode : insn.code = bpfLdImm64) (hmap : maps[k]? = some m)
      (hmaps : e.shndxIsMaps sym.shndx) (hdata : ¬e.shndxIsData sym.shndx)
      (htype : m.libbpfType = .unspec) (hkey : m.secIdx = sym.shndx ∧ m.secOffset = sym.value) :
      Collected e maps i sym insn (.ld64 i k)
  | data {k : ℕ} {m : ObjMap} (hcode : insn.code = bpfLdImm64) (hmap : maps[k]? = some m)
      (hdata : e.shndxIsData sym.shndx) (htype : m.libbpfType ≠ .unspec)
      (hsection : e.sectionOf m.libbpfType = some sym.shndx) :
      Collected e maps i sym insn (.data i k)

theorem named_of_findIdx? {type : LibbpfMapType} {sym : ElfSym} {k : ℕ}
    (h : maps.findIdx? (fun m ↦ m.IsNamedBy type sym) = some k) :
    ∃ m, maps[k]? = some m ∧ m.IsNamedBy type sym := by
  obtain ⟨hk, hnamed, -⟩ := List.findIdx?_eq_some_iff_getElem.mp h
  exact ⟨maps[k], List.getElem?_eq_getElem hk, of_decide_eq_true hnamed⟩

theorem collectInsn_collected {i : ℕ} {sym : ElfSym} {insn : BpfInsn}
    (h : collectInsn globalData e maps i sym insn = .ok (some d)) :
    Collected e maps i sym insn d := by
  unfold collectInsn at h
  dsimp only at h
  split_ifs at h with hcall hsrc hwide hplace hrefused htype
  · obtain rfl := Option.some.inj (Except.ok.inj h)
    exact .call hcall (not_not.mp hsrc)
  · -- the symbol lies in a data section
    cases hfind : maps.findIdx? fun m ↦ m.IsNamedBy (e.sectionToLibbpfMapType sym.shndx) sym with
    | none =>
        rw [hfind] at h
        cases h
    | some k =>
        rw [hfind] at h
        obtain rfl := Option.some.inj (Except.ok.inj h)
        obtain ⟨m, hmap, hsame, -⟩ := named_of_findIdx? hfind
        obtain ⟨hsection, hdata⟩ := sectionOf_sectionToLibbpfMapType htype
        exact .data (not_not.mp hwide) hmap hdata (hsame ▸ htype) (hsame ▸ hsection)
  · cases hfind : maps.findIdx? fun m ↦ m.IsNamedBy (e.sectionToLibbpfMapType sym.shndx) sym with
    | none =>
        rw [hfind] at h
        cases h
    | some k =>
        rw [hfind] at h
        obtain rfl := Option.some.inj (Except.ok.inj h)
        obtain ⟨m, hmap, hsame, hkey⟩ := named_of_findIdx? hfind
        have hdata := not_shndxIsData (not_not.mp htype)
        exact .ld64 (not_not.mp hwide) hmap (hplace.resolve_right hdata) hdata
          (hsame.trans (not_not.mp htype)) (hkey.resolve_left htype)
  · cases h

theorem collectReloc_collected
    (h : collectReloc globalData e maps code rel = .ok (some d)) :
    ∃ sym insn, (e.symbols.getD [])[rel.sym]? = some sym ∧ code[rel.insnIdx]? = some insn ∧
      Collected e maps rel.insnIdx sym insn d := by
  unfold collectReloc at h
  cases hsym : (e.symbols.getD [])[rel.sym]? with
  | none =>
      rw [hsym] at h
      cases h
  | some sym =>
      rw [hsym] at h
      dsimp only at h
      by_cases hreserved : shnLoreserve ≤ sym.shndx
      · rw [if_pos hreserved] at h
        obtain ⟨_, -, h⟩ := bind_eq_ok_iff.mp h
        cases h
      rw [if_neg hreserved] at h
      by_cases hknown : e.reloInKnownSection sym.shndx
      · rw [if_neg (not_not_intro hknown)] at h
        obtain ⟨insn, hinsn, h⟩ := bind_eq_ok_iff.mp h
        exact ⟨sym, insn, rfl, insnAt_eq_ok.mp hinsn, collectInsn_collected h⟩
      · rw [if_pos hknown] at h
        cases h

end Collect

end AntiDos
