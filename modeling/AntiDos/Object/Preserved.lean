import AntiDos.Object.Linked
import Mathlib.Algebra.Group.Int.Defs

/-!
# Relocation preserves the meaning of programs

The relocations that a compiler makes for maps, static variables and static functions name the
beginning of a map, a data section or `.text`. For these the relocated program does what the
program does in the object, with the maps that were created for the definitions that it names.
-/

namespace AntiDos

open Faulting Linking

/-- A load names the beginning of a map without an addend, or the beginning of a data section; a
call names the beginning of `.text`. -/
structure Direct (e : Efile) (code : List BpfInsn) (rels : List ElfRel) : Prop where
  nodup : (rels.map ElfRel.insnIdx).Nodup
  pairs : ∀ rel ∈ rels, ∀ insn ∈ code[rel.insnIdx]?, insn.code = bpfLdImm64 →
    ∃ second ∈ code[rel.insnIdx + 1]?, second.code = 0 ∧ second.imm = 0
  loads : ∀ rel ∈ rels, ∀ sym ∈ (e.symbols.getD [])[rel.sym]?, ∀ insn ∈ code[rel.insnIdx]?,
    insn.code = bpfLdImm64 →
      (e.shndxIsData sym.shndx → sym.value = 0) ∧ (¬e.shndxIsData sym.shndx → insn.imm = 0)
  calls : ∀ rel ∈ rels, ∀ sym ∈ (e.symbols.getD [])[rel.sym]?, ∀ insn ∈ code[rel.insnIdx]?,
    insn.code = bpfCall → sym.shndx = e.textShndx ∧ sym.value = 0

instance (e : Efile) (code : List BpfInsn) (rels : List ElfRel) : Decidable (Direct e code rels) :=
  decidable_of_iff (_ ∧ _ ∧ _ ∧ _)
    ⟨fun ⟨nodup, pairs, loads, calls⟩ ↦ ⟨nodup, pairs, loads, calls⟩,
      fun ⟨nodup, pairs, loads, calls⟩ ↦ ⟨nodup, pairs, loads, calls⟩⟩

/-- Where the map is defined. -/
def ObjMap.key (m : ObjMap) : MapKey := (m.secIdx, m.secOffset)

/-! ## The entries of a program -/

section Entries

variable {e : Efile} {globalData : Bool} {maps : List ObjMap} {code : List BpfInsn}
  {rels : List ElfRel} {descs : List (Option RelocDesc)}

theorem forall₂_of_mapM {α β ε : Type} {f : α → Except ε β} {xs : List α} {ys : List β}
    (h : xs.mapM f = .ok ys) : List.Forall₂ (fun x y ↦ f x = .ok y) xs ys := by
  induction xs generalizing ys with
  | nil =>
      obtain rfl := Except.ok.inj h
      exact .nil
  | cons x xs ih =>
      rw [List.mapM_cons] at h
      obtain ⟨y, hy, h⟩ := bind_eq_ok_iff.mp h
      obtain ⟨rest, hrest, h⟩ := bind_eq_ok_iff.mp h
      obtain rfl := Except.ok.inj h
      exact .cons hy (ih hrest)

/-- Where the keys differ, an entry is found by its key. -/
theorem find?_of_nodup {α κ : Type} [DecidableEq κ] {key : α → κ} {xs : List α} {x : α} {k : κ}
    (hnodup : (xs.map key).Nodup) (hx : x ∈ xs) (hk : key x = k) :
    xs.find? (fun y ↦ key y = k) = some x := by
  cases hfind : xs.find? (fun y ↦ key y = k) with
  | none => exact absurd (decide_eq_true hk) (List.find?_eq_none.mp hfind x hx)
  | some y =>
      have hy : key y = k := by simpa using List.find?_some hfind
      exact congrArg some (List.inj_on_of_nodup_map hnodup (List.mem_of_find?_eq_some hfind) hx
        (hy.trans hk.symm))

theorem Collected.insnIdx {sym : ElfSym} {insn : BpfInsn} {d : RelocDesc} {i : ℕ}
    (h : Collected e maps i sym insn d) : d.insnIdx = i := by
  cases h with
  | call => rfl
  | ld64 => rfl
  | data => rfl

theorem Collected.fits {sym : ElfSym} {insn : BpfInsn} {d : RelocDesc} {rel : ElfRel}
    (h : Collected e maps rel.insnIdx sym insn d) (hdirect : Direct e code rels) (hrel : rel ∈ rels)
    (hinsn : code[rel.insnIdx]? = some insn) : d.Fits code := by
  cases h with
  | call hcode => exact ⟨insn, hinsn, hcode⟩
  | ld64 hcode =>
      obtain ⟨second, hsecond, hzero, -⟩ := hdirect.pairs rel hrel insn hinsn hcode
      exact ⟨insn, second, hinsn, hcode, hsecond, hzero⟩
  | data hcode =>
      obtain ⟨second, hsecond, hzero, -⟩ := hdirect.pairs rel hrel insn hinsn hcode
      exact ⟨insn, second, hinsn, hcode, hsecond, hzero⟩

/-- The entries `descs` of the relocations `rels`. -/
def Entries (globalData : Bool) (e : Efile) (maps : List ObjMap) (code : List BpfInsn)
    (rels : List ElfRel) (descs : List (Option RelocDesc)) : Prop :=
  List.Forall₂ (fun rel desc ↦ collectReloc globalData e maps code rel = .ok desc) rels descs

theorem Entries.of_mem (h : Entries globalData e maps code rels descs) {d : RelocDesc}
    (hd : some d ∈ descs) : ∃ rel ∈ rels, ∃ sym insn, (e.symbols.getD [])[rel.sym]? = some sym ∧
      code[rel.insnIdx]? = some insn ∧ Collected e maps rel.insnIdx sym insn d := by
  induction h with
  | nil => exact absurd hd List.not_mem_nil
  | cons hone _ ih =>
      rcases List.mem_cons.mp hd with rfl | hd
      · exact ⟨_, List.mem_cons_self, collectReloc_collected hone⟩
      · obtain ⟨rel, hrel, hcollected⟩ := ih hd
        exact ⟨rel, List.mem_cons_of_mem _ hrel, hcollected⟩

theorem Entries.of_rel (h : Entries globalData e maps code rels descs)
    (hwritten : ∀ d ∈ descs, d ≠ none) {rel : ElfRel} (hrel : rel ∈ rels) :
    ∃ d sym insn, some d ∈ descs ∧ (e.symbols.getD [])[rel.sym]? = some sym ∧
      code[rel.insnIdx]? = some insn ∧ Collected e maps rel.insnIdx sym insn d := by
  induction h with
  | nil => exact absurd hrel List.not_mem_nil
  | cons hone _ ih =>
      obtain ⟨hdesc, hwritten⟩ := List.forall_mem_cons.mp hwritten
      rcases List.mem_cons.mp hrel with rfl | hrel
      · obtain ⟨d, rfl⟩ := Option.ne_none_iff_exists'.mp hdesc
        obtain ⟨sym, insn, hcollected⟩ := collectReloc_collected hone
        exact ⟨d, sym, insn, List.mem_cons_self, hcollected⟩
      · obtain ⟨d, sym, insn, hd, hcollected⟩ := ih hwritten hrel
        exact ⟨d, sym, insn, List.mem_cons_of_mem _ hd, hcollected⟩

theorem Entries.fits (h : Entries globalData e maps code rels descs)
    (hdirect : Direct e code rels) {d : RelocDesc} (hd : some d ∈ descs) : d.Fits code := by
  obtain ⟨rel, hrel, sym, insn, -, hinsn, hcollected⟩ := h.of_mem hd
  exact hcollected.fits hdirect hrel hinsn

theorem Entries.pairwise (h : Entries globalData e maps code rels descs)
    (hnodup : (rels.map ElfRel.insnIdx).Nodup) :
    descs.Pairwise fun a b ↦ ∀ d ∈ a, ∀ d' ∈ b, d.insnIdx ≠ d'.insnIdx := by
  induction h with
  | nil => exact .nil
  | @cons rel desc rels descs hone hrest ih =>
      obtain ⟨hnew, hnodup⟩ := List.nodup_cons.mp hnodup
      refine .cons (fun b hb d hd d' hd' heq ↦ ?_) (ih hnodup)
      obtain rfl := Option.mem_def.mp hd
      obtain rfl := Option.mem_def.mp hd'
      obtain ⟨sym, insn, -, -, hcollected⟩ := collectReloc_collected hone
      obtain ⟨rel', hrel', sym', insn', -, -, hcollected'⟩ := Entries.of_mem hrest hb
      rw [hcollected.insnIdx, hcollected'.insnIdx] at heq
      exact hnew (List.mem_map.mpr ⟨rel', hrel', heq.symm⟩)

end Entries

/-! ## One instruction -/

theorem toInt_toInt32 (x : UInt32) :
    x.toInt32.toInt = if x.toNat < 2 ^ 31 then (x.toNat : Int) else x.toNat - 2 ^ 32 := by
  have hcond : x.toInt32.toInt = x.toBitVec.toInt := rfl
  have hnat : x.toBitVec.toNat = x.toNat := rfl
  rw [hcond, BitVec.toInt_eq_toNat_cond, hnat]
  split_ifs <;> omega

/-- The distance of a relocated call leads behind the program. -/
theorem relative_call {cnt i j : ℕ} {imm : UInt32} (hi : i < cnt)
    (hj : relative 0 imm.toInt32.toInt = some j) (hsmall : cnt + j < 2 ^ 31) :
    relative i (imm + (UInt32.ofNat cnt - UInt32.ofNat i)).toInt32.toInt = some (cnt + j) := by
  have himm := imm.toNat_lt
  unfold relative at hj ⊢
  split_ifs at hj with hpos
  have hj := Option.some.inj hj
  rw [toInt_toInt32] at hpos hj
  have hsum : (imm + (UInt32.ofNat cnt - UInt32.ofNat i)).toNat =
      (imm.toNat + (cnt - i)) % 2 ^ 32 := by
    rw [UInt32.toNat_add, UInt32.toNat_sub, UInt32.toNat_ofNat', UInt32.toNat_ofNat']
    omega
  have hdist : (imm + (UInt32.ofNat cnt - UInt32.ofNat i)).toInt32.toInt = cnt + j - i - 1 := by
    rw [toInt_toInt32, hsum]
    split_ifs at hpos hj <;> split_ifs <;> omega
  rw [hdist, if_pos (by omega)]
  exact congrArg some (by omega)

theorem kind_second_iff {insn : BpfInsn} : insn.kind = .second ↔ insn.code = 0 := by
  unfold BpfInsn.kind
  split_ifs <;> simp_all

section Replace

variable {σ : Type} {e : Efile} {globalData : Bool} {maps maps' : List ObjMap} {src : Source}
  {part : Part} {descs : List (Option RelocDesc)} {body f : List BpfInsn} {place : Part × ℕ → ℕ}
  {base : ℕ} {fdMap : UInt32 → Option MapKey}

/-- The descriptors of the maps, and what the kernel takes them for. -/
structure Resolves (e : Efile) (maps maps' : List ObjMap) (fdMap : UInt32 → Option MapKey) :
    Prop where
  fd : ∀ k m, maps[k]? = some m → ∃ fd, fdOf maps' k = .ok fd ∧ fdMap fd = some m.key
  data : ∀ m ∈ maps, m.libbpfType ≠ .unspec →
    e.sectionOf m.libbpfType = some m.secIdx ∧ m.secOffset = 0

theorem symbol_of_mem (hnodup : ((src.rels part).map ElfRel.insnIdx).Nodup) {rel : ElfRel}
    (hrel : rel ∈ src.rels part) :
    src.symbol e part rel.insnIdx = (e.symbols.getD [])[rel.sym]? := by
  rw [Source.symbol, find?_of_nodup hnodup hrel rfl]
  rfl

theorem symbol_eq_none {i : ℕ} (h : ∀ rel ∈ src.rels part, rel.insnIdx ≠ i) :
    src.symbol e part i = none := by
  have hfind : (src.rels part).find? (·.insnIdx = i) = none :=
    List.find?_eq_none.mpr fun rel hrel ↦ by simpa using h rel hrel
  rw [Source.symbol, hfind]
  rfl

theorem addend_of_zero {insn second : BpfInsn} (h : second.imm = 0) :
    addend insn second = insn.imm.toUInt64 := by
  have hzero : (0 : UInt32).toNat = 0 := rfl
  rw [addend, h, hzero, Nat.mul_zero, Nat.add_zero]
  exact (UInt64.toNat_inj.mp (UInt64.toNat_ofNat_of_lt' (insn.imm.toNat_lt.trans (by decide))))

/-- An instruction without a relocation stays what it is. -/
theorem replaces_of_plain (cpu : Cpu σ) {i : ℕ} {insn : BpfInsn}
    (hfits : ∀ d, some d ∈ descs → d.Fits (src.code part))
    (hnone : ∀ d, some d ∈ descs → d.insnIdx ≠ i)
    (hpatched : Patched maps' (src.code part) descs body)
    (hlayout : ∀ j < (src.code part).length, f[base + j]? = body[j]?)
    (hplace : ∀ j, place (part, j) = base + j) (hsymbol : src.symbol e part i = none)
    (hinsn : (src.code part)[i]? = some insn) :
    Replaces (src.code part) f place (objectLoad cpu e (src.symbol e part i))
      (kernelLoad cpu fdMap) (objectCallee e src part i)
      (fun insn ↦ relative (base + i) insn.imm.toInt32.toInt) i (base + i) insn := by
  have hsame : insn.kind ≠ .second → f[base + i]? = some insn := by
    intro hkind
    rw [hlayout i (List.getElem?_eq_some_iff.mp hinsn).1, ← hinsn]
    refine hpatched.other i fun d hd htouches ↦ ?_
    rcases (hfits d hd).touches htouches with heq | ⟨-, second, hsecond, hzero⟩
    · exact hnone d hd heq.symm
    · obtain rfl := Option.some.inj (hinsn.symm.trans hsecond)
      exact hkind (kind_second_iff.mpr hzero)
  refine ⟨fun hsecond _ _ ↦ hsame hsecond, fun hwide second hsecond hzero ↦ ?_,
    fun hfunction target htarget ↦ ?_⟩
  · refine ⟨insn, second, hsame (by rw [hwide]; decide), hwide, ?_, hzero, fun s s' hload ↦ ?_⟩
    · rw [Nat.add_assoc, hlayout (i + 1) (List.getElem?_eq_some_iff.mp hsecond).1, ← hsecond]
      refine hpatched.other (i + 1) fun d hd htouches ↦ ?_
      rcases (hfits d hd).touches htouches with heq | ⟨heq, -⟩
      · obtain ⟨insn', hinsn', hcode⟩ := (hfits d hd).code_ne_zero
        rw [← heq] at hinsn'
        obtain rfl := Option.some.inj (hinsn'.symm.trans hsecond)
        exact hcode hzero
      · exact hnone d hd (Nat.succ.inj heq).symm
    · rw [hsymbol, objectLoad] at hload
      split_ifs at hload with hsrc
      rw [kernelLoad, if_pos hsrc]
      exact hload
  · rw [objectCallee, hsymbol] at htarget
    obtain ⟨j, hj, rfl⟩ := Option.map_eq_some_iff.mp htarget
    refine ⟨insn, hsame (by rw [hfunction]; decide), hfunction, ?_⟩
    rw [hplace]
    exact relative_add hj base

/-- A relocated instruction does what it does in the object. -/
theorem replaces_of_collected (cpu : Cpu σ) {rel : ElfRel} {sym : ElfSym} {insn : BpfInsn}
    {d : RelocDesc} (hdirect : Direct e (src.code part) (src.rels part))
    (hresolves : Resolves e maps maps' fdMap) (hpatched : Patched maps' (src.code part) descs body)
    (hlayout : ∀ j < (src.code part).length, f[base + j]? = body[j]?)
    (hcalls : insn.code = bpfCall → base = 0 ∧
      (src.code part).length + (src.code .text).length < 2 ^ 31 ∧
        ∀ j, place (.text, j) = (src.code part).length + j)
    (hrel : rel ∈ src.rels part) (hsym : (e.symbols.getD [])[rel.sym]? = some sym)
    (hinsn : (src.code part)[rel.insnIdx]? = some insn) (hd : some d ∈ descs)
    (hcollected : Collected e maps rel.insnIdx sym insn d) :
    Replaces (src.code part) f place (objectLoad cpu e (src.symbol e part rel.insnIdx))
      (kernelLoad cpu fdMap) (objectCallee e src part rel.insnIdx)
      (fun insn ↦ relative (base + rel.insnIdx) insn.imm.toInt32.toInt) rel.insnIdx
      (base + rel.insnIdx) insn := by
  have hrewrites := hpatched.rewritten d hd
  have hi := (List.getElem?_eq_some_iff.mp hinsn).1
  rw [symbol_of_mem hdirect.nodup hrel, hsym]
  cases hcollected with
  | call hcode hsrc =>
      have hkind := kind_of_function hcode hsrc
      obtain ⟨insn', hinsn', hnew⟩ := hrewrites
      obtain rfl := Option.some.inj (hinsn.symm.trans hinsn')
      obtain ⟨hbase, hsmall, htext⟩ := hcalls hcode
      obtain ⟨hshndx, hvalue⟩ := hdirect.calls rel hrel sym hsym insn hinsn hcode
      refine ⟨fun _ _ h ↦ absurd hkind h, fun h ↦ ?_, fun _ target htarget ↦ ?_⟩
      · rw [hkind] at h
        cases h
      rw [objectCallee, symbol_of_mem hdirect.nodup hrel, hsym] at htarget
      dsimp only at htarget
      rw [if_pos hshndx, hvalue] at htarget
      obtain ⟨j, hj, htarget⟩ := Option.bind_eq_some_iff.mp htarget
      split_ifs at htarget with hjtext
      obtain rfl := Option.some.inj htarget
      refine ⟨_, (hlayout _ hi).trans hnew, kind_of_function hcode hsrc, ?_⟩
      rw [htext, hbase, Nat.zero_add]
      exact relative_call hi hj (by omega)
  | ld64 hcode hmap hmaps hdata htype hkey =>
      have hkind := kind_of_wide hcode
      obtain ⟨insn', fd, hinsn', hfd, hnew⟩ := hrewrites
      obtain rfl := Option.some.inj (hinsn.symm.trans hinsn')
      obtain ⟨fd', hfd', hfdMap⟩ := hresolves.fd _ _ hmap
      obtain rfl := Except.ok.inj (hfd.symm.trans hfd')
      refine ⟨fun _ h ↦ absurd hkind h, fun _ second hsecond hzero ↦ ?_, fun h ↦ ?_⟩
      · obtain ⟨second', hsecond', -, hnoImm⟩ := hdirect.pairs rel hrel insn hinsn hcode
        obtain rfl := Option.some.inj (hsecond.symm.trans hsecond')
        obtain ⟨half, hhalf, hhalfCode⟩ := hpatched.code_eq hsecond
        have himm := (hdirect.loads rel hrel sym hsym insn hinsn hcode).2 hdata
        refine ⟨insn.loadsMap fd, half, (hlayout _ hi).trans hnew, kind_of_wide hcode, ?_,
          hhalfCode.trans hzero, fun s s' hload ↦ ?_⟩
        · rw [Nat.add_assoc]
          exact (hlayout _ (List.getElem?_eq_some_iff.mp hsecond).1).trans hhalf
        · rw [objectLoad, if_neg hdata, if_pos hmaps, addend_of_zero hnoImm, himm, ← hkey.1,
            ← hkey.2] at hload
          have hadd : ∀ x : UInt64, x + (0 : UInt32).toUInt64 = x := UInt64.add_zero
          rw [hadd] at hload
          exact (kernelLoad_loadsMap cpu hfdMap insn half s).trans hload
      · rw [hkind] at h
        cases h
  | data hcode hmap hdata htype hsection =>
      have hkind := kind_of_wide hcode
      obtain ⟨insn', second, fd, hinsn', hsecond, hfd, hnew, hnew'⟩ := hrewrites
      obtain rfl := Option.some.inj (hinsn.symm.trans hinsn')
      obtain ⟨fd', hfd', hfdMap⟩ := hresolves.fd _ _ hmap
      obtain rfl := Except.ok.inj (hfd.symm.trans hfd')
      obtain ⟨hmapSection, hoffset⟩ := hresolves.data _ (List.mem_of_getElem? hmap) htype
      refine ⟨fun _ h ↦ absurd hkind h, fun _ second' hsecond' hzero ↦ ?_, fun h ↦ ?_⟩
      · obtain rfl := Option.some.inj (hsecond.symm.trans hsecond')
        obtain ⟨half, hhalf, -, hnoImm⟩ := hdirect.pairs rel hrel insn hinsn hcode
        obtain rfl := Option.some.inj (hsecond.symm.trans hhalf)
        have hvalue := (hdirect.loads rel hrel sym hsym insn hinsn hcode).1 hdata
        refine ⟨insn.loadsMapValue fd, second.withImm insn.imm, (hlayout _ hi).trans hnew,
          kind_of_wide hcode, ?_, hzero, fun s s' hload ↦ ?_⟩
        · rw [Nat.add_assoc]
          exact (hlayout _ (List.getElem?_eq_some_iff.mp hsecond).1).trans hnew'
        · rw [objectLoad, if_pos hdata, addend_of_zero hnoImm, hvalue, UInt64.zero_add,
            Option.some.inj (hsection.symm.trans hmapSection), ← hoffset] at hload
          exact (kernelLoad_loadsMapValue cpu hfdMap insn (second.withImm insn.imm) s).trans hload
      · rw [hkind] at h
        cases h

/-- The code of a part lies at `base` in `f`, and its relocations have been worked off. A call that
is relocated goes to the functions behind the program. -/
structure Laid (globalData : Bool) (e : Efile) (maps maps' : List ObjMap) (src : Source)
    (part : Part) (place : Part × ℕ → ℕ) (base : ℕ) (f : List BpfInsn)
    (descs : List (Option RelocDesc)) : Prop where
  direct : Direct e (src.code part) (src.rels part)
  entries : Entries globalData e maps (src.code part) (src.rels part) descs
  written : ∀ d ∈ descs, d ≠ none
  patched : ∃ body, Patched maps' (src.code part) descs body ∧
    ∀ j < (src.code part).length, f[base + j]? = body[j]?
  placed : ∀ j, place (part, j) = base + j
  calls : ∀ i, some (.call i) ∈ descs → base = 0 ∧
    (src.code part).length + (src.code .text).length < 2 ^ 31 ∧
      ∀ j, place (.text, j) = (src.code part).length + j

theorem Laid.replaces (h : Laid globalData e maps maps' src part place base f descs)
    (hresolves : Resolves e maps maps' fdMap) (cpu : Cpu σ) {i : ℕ} {insn : BpfInsn}
    (hinsn : (src.code part)[i]? = some insn) :
    Replaces (src.code part) f place (objectLoad cpu e (src.symbol e part i))
      (kernelLoad cpu fdMap) (objectCallee e src part i)
      (fun insn ↦ relative (base + i) insn.imm.toInt32.toInt) i (base + i) insn := by
  obtain ⟨body, hpatched, hlayout⟩ := h.patched
  by_cases hrel : ∃ rel ∈ src.rels part, rel.insnIdx = i
  · obtain ⟨rel, hrel, rfl⟩ := hrel
    obtain ⟨d, sym, insn', hd, hsym, hinsn', hcollected⟩ := h.entries.of_rel h.written hrel
    obtain rfl := Option.some.inj (hinsn.symm.trans hinsn')
    refine replaces_of_collected cpu h.direct hresolves hpatched hlayout (fun hcode ↦ ?_) hrel hsym
      hinsn hd hcollected
    cases hcollected with
    | call => exact h.calls _ hd
    | ld64 hwide => exact absurd (hwide.symm.trans hcode) (by decide)
    | data hwide => exact absurd (hwide.symm.trans hcode) (by decide)
  · have hnot : ∀ rel ∈ src.rels part, rel.insnIdx ≠ i := fun rel hmem heq ↦ hrel ⟨rel, hmem, heq⟩
    refine replaces_of_plain cpu (fun d hd ↦ h.entries.fits h.direct hd) (fun d hd ↦ ?_) hpatched
      hlayout h.placed (symbol_eq_none hnot) hinsn
    obtain ⟨rel, hmem, sym, insn', -, -, hcollected⟩ := h.entries.of_mem hd
    exact hcollected.insnIdx ▸ hnot rel hmem

/-- An instruction of the part has the effect that it has in the object. -/
theorem Laid.effect (h : Laid globalData e maps maps' src part place base f descs)
    (hresolves : Resolves e maps maps' fdMap) {cpu : Cpu σ} {i : ℕ} {s : σ}
    {eff : Effect (Part × ℕ) σ} (heff : objectEffect cpu e src (part, i) s = some eff) :
    kernelEffect cpu fdMap f (base + i) s = some (eff.move place) :=
  bpfEffect_move h.placed (fun _ hinsn ↦ h.replaces hresolves cpu hinsn) heff

end Replace

end AntiDos
