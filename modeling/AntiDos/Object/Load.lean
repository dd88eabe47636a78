import AntiDos.Object.Preserved

/-!
# Loading an object

`bpf_object__open` and `bpf_object__load` as far as the instructions and the maps go: the sections
are collected, the maps are created, and all programs are relocated one after the other. This is
what each step leaves to the next one.
-/

namespace AntiDos

open Faulting Linking

/-! ## The steps of loading -/

section Steps

variable {e : Efile} {globalData : Bool} {maps maps' : List ObjMap} {progs progs' : List ObjProgram}

/-- The relocations of the section with the number `idx`. -/
def Efile.relsOf (e : Efile) (idx : ℕ) : List ElfRel :=
  ((e.reloc.find? (·.1 = idx)).map Prod.snd).getD []

/-- The programs of a file that has just been read. -/
structure Efile.Fresh (e : Efile) : Prop where
  nodup : (e.programs.map ObjProgram.idx).Nodup
  fresh : ∀ prog ∈ e.programs, prog.mainProgCnt = 0 ∧ prog.relocDesc = none

theorem bpfProgramInit_fresh {data : List UInt8} {name : String} {idx : ℕ} {prog : ObjProgram}
    (h : bpfProgramInit data name idx = .ok prog) :
    prog.idx = idx ∧ prog.mainProgCnt = 0 ∧ prog.relocDesc = none := by
  unfold bpfProgramInit at h
  split_ifs at h
  obtain rfl := Except.ok.inj h
  exact ⟨rfl, rfl, rfl⟩

/-- A section adds a program with its number, or none. -/
theorem collectSection_programs {sections : List ElfSection} {e e' : Efile} {scn : ElfSection × ℕ}
    (h : collectSection sections e scn = .ok e') : e'.programs = e.programs ∨
      ∃ prog, bpfProgramInit scn.1.data scn.1.name scn.2 = .ok prog ∧
        e'.programs = e.programs ++ [prog] := by
  have hkept : ∀ {e₁ : Efile}, (Except.ok e₁ : Except ObjFault Efile) = .ok e' →
      e₁.programs = e.programs → e'.programs = e.programs :=
    fun hok hsame ↦ Except.ok.inj hok ▸ hsame
  unfold collectSection at h
  dsimp only at h
  by_cases hlicense : scn.1.name = "license"
  · rw [if_pos hlicense] at h
    exact Or.inl (hkept h rfl)
  rw [if_neg hlicense] at h
  by_cases hversion : scn.1.name = "version"
  · rw [if_pos hversion] at h
    split_ifs at h
    exact Or.inl (hkept h rfl)
  rw [if_neg hversion] at h
  by_cases hmaps : scn.1.name = "maps"
  · rw [if_pos hmaps] at h
    exact Or.inl (hkept h rfl)
  rw [if_neg hmaps] at h
  by_cases hbtfMaps : scn.1.name = ".maps"
  · rw [if_pos hbtfMaps] at h
    exact Or.inl (hkept h rfl)
  rw [if_neg hbtfMaps] at h
  by_cases hbtf : scn.1.name ∈ btfSections
  · rw [if_pos hbtf] at h
    exact Or.inl (hkept h rfl)
  rw [if_neg hbtf] at h
  cases htype : scn.1.type with
  | progbits =>
      rw [htype] at h
      dsimp only at h
      split_ifs at h
      all_goals first
        | exact Or.inl (hkept h rfl)
        | obtain ⟨prog, hprog, h⟩ := bind_eq_ok_iff.mp h
          exact Or.inr ⟨prog, hprog, (congrArg Efile.programs (Except.ok.inj h)).symm⟩
  | symtab | rel | nobits =>
      rw [htype] at h
      dsimp only at h
      split_ifs at h
      all_goals exact Or.inl (hkept h rfl)
  | other =>
      rw [htype] at h
      exact Or.inl (hkept h rfl)

theorem collectSections_fresh {sections : List ElfSection}
    (h : collectSections sections = .ok e) : e.Fresh := by
  obtain ⟨e', hloop, h⟩ := bind_eq_ok_iff.mp h
  split_ifs at h
  obtain rfl := Except.ok.inj h
  have hnumbers : ((sections.zipIdx 1).map Prod.snd).Nodup := by
    rw [List.zipIdx_map_snd]
    exact List.nodup_range'
  have hempty : Efile.empty.Fresh := ⟨List.nodup_nil, fun _ h ↦ absurd h List.not_mem_nil⟩
  refine (foldlM_processed
    (fun pre (e : Efile) ↦ e.Fresh ∧ ∀ prog ∈ e.programs, prog.idx ∈ pre.map Prod.snd)
    (fun pre scn post e e' hsplit he hstep ↦ ?_)
    ⟨hempty, fun _ h ↦ absurd h List.not_mem_nil⟩ hloop).1
  obtain ⟨⟨hnodup, hfresh⟩, hidx⟩ := he
  rcases collectSection_programs hstep with hsame | ⟨prog, hinit, hnew⟩
  · refine ⟨⟨hsame ▸ hnodup, hsame ▸ hfresh⟩, fun prog hprog ↦ ?_⟩
    rw [List.map_append]
    exact List.mem_append_left _ (hidx prog (hsame ▸ hprog))
  · obtain ⟨hprogIdx, hprogFresh⟩ := bpfProgramInit_fresh hinit
    rw [hsplit, List.map_append, List.map_cons] at hnumbers
    have hunused : scn.2 ∉ pre.map Prod.snd := fun hmem ↦
      (List.nodup_append.mp hnumbers).2.2 _ hmem _ List.mem_cons_self rfl
    refine ⟨⟨?_, fun p hp ↦ ?_⟩, fun p hp ↦ ?_⟩
    · rw [hnew, List.map_append, List.map_singleton, hprogIdx]
      refine List.nodup_append.mpr ⟨hnodup, List.nodup_singleton _, ?_⟩
      intro i hi j hj heq
      obtain ⟨p, hp, rfl⟩ := List.mem_map.mp hi
      exact hunused (List.mem_singleton.mp hj ▸ heq ▸ hidx p hp)
    · rw [hnew] at hp
      rcases List.mem_append.mp hp with hold | hlast
      · exact hfresh p hold
      · exact List.mem_singleton.mp hlast ▸ hprogFresh
    · rw [hnew] at hp
      rw [List.map_append, List.map_singleton]
      rcases List.mem_append.mp hp with hold | hlast
      · exact List.mem_append_left _ (hidx p hold)
      · rw [List.mem_singleton.mp hlast, hprogIdx]
        exact List.mem_append_right _ (List.mem_singleton_self _)

/-- A program and what has become of it when it got its name. -/
structure Named (prog prog' : ObjProgram) : Prop where
  same : prog' = { prog with name := prog'.name }
  name : prog'.name ≠ none

theorem initProgNames_named (h : bpfObjectInitProgNames e = .ok progs) :
    List.Forall₂ Named e.programs progs := by
  refine (forall₂_of_mapM h).imp fun prog prog' hname ↦ ?_
  obtain ⟨name, -, hname⟩ := bind_eq_ok_iff.mp hname
  obtain rfl := Except.ok.inj hname
  exact ⟨rfl, Option.some_ne_none name⟩

theorem elfCollect_fresh {strict : Bool} {objName : String} {btfExt : Option BtfExt}
    {sections : List ElfSection}
    (h : bpfObjectElfCollect strict globalData objName btfExt sections = .ok (e, maps)) :
    e.Fresh := by
  obtain ⟨e₀, hloop, h⟩ := bind_eq_ok_iff.mp h
  obtain ⟨_, -, h⟩ := bind_eq_ok_iff.mp h
  obtain ⟨progs, hnames, h⟩ := bind_eq_ok_iff.mp h
  obtain ⟨rfl, -⟩ := Prod.mk.inj (Except.ok.inj h)
  obtain ⟨hnodup, hfresh⟩ := collectSections_fresh hloop
  have hnamed := initProgNames_named hnames
  have hone : ∀ k (hk : k < progs.length), ∃ hk' : k < e₀.programs.length,
      Named e₀.programs[k] progs[k] := by
    intro k hk
    have hk' : k < e₀.programs.length := hnamed.length_eq ▸ hk
    exact ⟨hk', hnamed.get hk' hk⟩
  refine ⟨?_, fun prog hprog ↦ ?_⟩
  · have hidx : progs.map ObjProgram.idx = e₀.programs.map ObjProgram.idx := by
      refine List.ext_getElem (by simp [hnamed.length_eq]) fun k hk hk' ↦ ?_
      rw [List.length_map] at hk
      obtain ⟨_, hnamed⟩ := hone k hk
      rw [List.getElem_map, List.getElem_map, hnamed.same]
    exact hidx ▸ hnodup
  · obtain ⟨k, hk, rfl⟩ := List.getElem_of_mem hprog
    obtain ⟨hk', ⟨hsame, -⟩⟩ := hone k hk
    obtain ⟨hcnt, hdesc⟩ := hfresh _ (List.getElem_mem hk')
    exact ⟨(congrArg ObjProgram.mainProgCnt hsame).trans hcnt,
      (congrArg ObjProgram.relocDesc hsame).trans hdesc⟩

theorem Efile.Fresh.position (hfresh : e.Fresh) {i k : ℕ} {p q : ObjProgram}
    (hi : e.programs[i]? = some p) (hk : e.programs[k]? = some q) (hidx : p.idx = q.idx) :
    i = k := by
  have hlt : i < (e.programs.map ObjProgram.idx).length := by
    rw [List.length_map]
    exact (List.getElem?_eq_some_iff.mp hi).1
  refine (List.getElem?_inj hlt hfresh.nodup).mp ?_
  rw [List.getElem?_map, List.getElem?_map, hi, hk]
  exact congrArg some hidx

/-- The entries of a program, after the relocations `pre` have been collected. -/
structure HasEntries (globalData : Bool) (e : Efile) (maps : List ObjMap)
    (pre : List (ℕ × List ElfRel)) (prog₀ prog : ObjProgram) : Prop where
  same : prog = { prog₀ with relocDesc := prog.relocDesc }
  without : (∀ reloc ∈ pre, reloc.1 ≠ prog₀.idx) → prog.relocDesc = none
  written : ∀ reloc ∈ pre, reloc.1 = prog₀.idx → ∃ descs, prog.relocDesc = some descs ∧
    Entries globalData e maps prog₀.insns reloc.2 descs

theorem collectProgram_step (hfresh : e.Fresh) {pre post : List (ℕ × List ElfRel)}
    {reloc : ℕ × List ElfRel} (hrelocs : ((pre ++ reloc :: post).map Prod.fst).Nodup)
    (h : ∀ (k : ℕ) prog₀, e.programs[k]? = some prog₀ → ∃ prog, progs[k]? = some prog ∧
      HasEntries globalData e maps pre prog₀ prog)
    (hlength : progs.length = e.programs.length)
    (hrun : collectProgram globalData e maps progs reloc = .ok progs') :
    progs'.length = e.programs.length ∧
      ∀ (k : ℕ) prog₀, e.programs[k]? = some prog₀ → ∃ prog, progs'[k]? = some prog ∧
        HasEntries globalData e maps (pre ++ [reloc]) prog₀ prog := by
  unfold collectProgram at hrun
  cases hfind : progs.findIdx? (·.idx = reloc.1) with
  | none =>
      rw [hfind] at hrun
      cases hrun
  | some i =>
      rw [hfind] at hrun
      dsimp only at hrun
      obtain ⟨hi, hidx, -⟩ := List.findIdx?_eq_some_iff_getElem.mp hfind
      have hidx : progs[i].idx = reloc.1 := of_decide_eq_true hidx
      rw [List.getElem?_eq_getElem hi] at hrun
      obtain ⟨descs, hdescs, hrun⟩ := bind_eq_ok_iff.mp hrun
      obtain rfl := Except.ok.inj hrun
      refine ⟨List.length_set.trans hlength, fun k prog₀ hk ↦ ?_⟩
      obtain ⟨prog, hprog, hentries⟩ := h k prog₀ hk
      have hprogIdx : prog.idx = prog₀.idx := by rw [hentries.same]
      by_cases hki : i = k
      · subst hki
        obtain rfl : progs[i] = prog :=
          Option.some.inj ((List.getElem?_eq_getElem hi).symm.trans hprog)
        have hinsns : progs[i].insns = prog₀.insns := by rw [hentries.same]
        refine ⟨_, List.getElem?_set_self hi, ?_, fun hnone ↦ ?_, fun r hr hr' ↦ ⟨descs, rfl, ?_⟩⟩
        · rw [hentries.same]
        · exact absurd (hidx.symm.trans hprogIdx) (hnone reloc (by simp))
        · rw [List.map_append, List.map_cons] at hrelocs
          rcases List.mem_append.mp hr with hold | hlast
          · refine absurd ?_ ((List.nodup_append.mp hrelocs).2.2 r.1
              (List.mem_map_of_mem hold) reloc.1 List.mem_cons_self)
            exact hr'.trans (hprogIdx.symm.trans hidx)
          · rw [List.mem_singleton.mp hlast, ← hinsns]
            exact forall₂_of_mapM hdescs
      · refine ⟨prog, (List.getElem?_set_ne hki).trans hprog, hentries.same, fun hnone ↦ ?_,
          fun r hr hr' ↦ ?_⟩
        · exact hentries.without fun r hr ↦ hnone r (List.mem_append_left _ hr)
        · rcases List.mem_append.mp hr with hold | hlast
          · exact hentries.written r hold hr'
          · -- the two programs would be of the same section
            have hi' := List.getElem?_eq_getElem (hlength ▸ hi : i < e.programs.length)
            obtain ⟨q, hq, hentriesq⟩ := h i _ hi'
            obtain rfl : progs[i] = q :=
              Option.some.inj ((List.getElem?_eq_getElem hi).symm.trans hq)
            have hsame : progs[i].idx = e.programs[i].idx := by rw [hentriesq.same]
            rw [List.mem_singleton.mp hlast] at hr'
            exact absurd (hfresh.position hi' hk (hsame.symm.trans (hidx.trans hr'))) hki

theorem collectReloc_entries (hfresh : e.Fresh) (hrelocs : (e.reloc.map Prod.fst).Nodup)
    (hrun : bpfObjectCollectReloc globalData e maps = .ok progs) :
    progs.length = e.programs.length ∧
      ∀ (k : ℕ) prog₀, e.programs[k]? = some prog₀ → ∃ prog, progs[k]? = some prog ∧
        HasEntries globalData e maps e.reloc prog₀ prog := by
  refine foldlM_processed
    (fun pre (progs : List ObjProgram) ↦ progs.length = e.programs.length ∧
      ∀ (k : ℕ) prog₀, e.programs[k]? = some prog₀ → ∃ prog, progs[k]? = some prog ∧
        HasEntries globalData e maps pre prog₀ prog)
    (fun pre reloc post progs progs' hsplit hprogs hstep ↦ ?_) ⟨rfl, fun k prog₀ hk ↦ ?_⟩ hrun
  · exact collectProgram_step hfresh (hsplit ▸ hrelocs) hprogs.2 hprogs.1 hstep
  · refine ⟨prog₀, hk, rfl, fun _ ↦ ?_, fun reloc hreloc ↦ absurd hreloc List.not_mem_nil⟩
    exact (hfresh.fresh prog₀ (List.mem_of_getElem? hk)).2

/-- A program with the entries of its relocations, or without relocations. -/
theorem HasEntries.descs {prog₀ prog : ObjProgram}
    (h : HasEntries globalData e maps e.reloc prog₀ prog) :
    ∃ descs, Entries globalData e maps prog₀.insns (e.relsOf prog₀.idx) descs ∧
      (prog.relocDesc = some descs ∨ prog.relocDesc = none ∧ descs = []) := by
  unfold Efile.relsOf
  cases hfind : e.reloc.find? (·.1 = prog₀.idx) with
  | none =>
      refine ⟨[], .nil, Or.inr ⟨h.without fun reloc hreloc ↦ ?_, rfl⟩⟩
      simpa using List.find?_eq_none.mp hfind reloc hreloc
  | some reloc =>
      have hidx : reloc.1 = prog₀.idx := by simpa using List.find?_some hfind
      obtain ⟨descs, hdescs, hentries⟩ := h.written reloc (List.mem_of_find?_eq_some hfind) hidx
      exact ⟨descs, hentries, Or.inl hdescs⟩

/-- Each program is relocated with the programs before it already relocated. -/
theorem relocateFrom_spec {before rest : List ObjProgram}
    (hrun : relocateFrom e maps before rest = .ok progs') :
    ∃ after, progs' = before ++ after ∧ ∀ (k : ℕ) prog, rest[k]? = some prog →
      ∃ prog', after[k]? = some prog' ∧
        bpfProgramRelocate e maps (before ++ (after.take k ++ rest.drop k)) prog = .ok prog' := by
  induction rest generalizing before with
  | nil =>
      obtain rfl := Except.ok.inj hrun
      exact ⟨[], (List.append_nil _).symm, fun k prog h ↦ by cases h⟩
  | cons prog rest ih =>
      obtain ⟨prog', hprog, hrun⟩ := bind_eq_ok_iff.mp hrun
      obtain ⟨after, rfl, hafter⟩ := ih hrun
      refine ⟨prog' :: after, by rw [List.append_assoc, List.singleton_append], ?_⟩
      intro k q hk
      cases k with
      | zero =>
          obtain rfl := Option.some.inj hk
          exact ⟨prog', rfl, hprog⟩
      | succ k =>
          obtain ⟨q', hq, hrelocate⟩ := hafter k q hk
          rw [List.append_assoc] at hrelocate
          exact ⟨q', hq, hrelocate⟩

/-- Without CO-RE relocations the programs are relocated as they are. -/
theorem bpfObjectRelocate_eq (hcore : ∀ ext ∈ e.btfExt, ext.fieldRelocInfoLen = 0) :
    bpfObjectRelocate e maps progs = relocateFrom e maps [] progs := by
  rw [bpfObjectRelocate, bpfObjectRelocateCore]
  cases hext : e.btfExt with
  | none => rfl
  | some ext =>
      dsimp only
      rw [if_neg (not_not_intro (hcore ext hext))]
      rfl

end Steps

/-! ## The maps -/

section Maps

variable {e : Efile} {maps maps' : List ObjMap} {kernel : List KernelMap}

/-- What the kernel takes a descriptor for: the map that it was noted for. -/
def fdMap (maps : List ObjMap) (fd : UInt32) : Option MapKey :=
  (maps.find? (·.fd = some fd)).map ObjMap.key

/-- A map and what has become of it when it was created. -/
structure Created (m m' : ObjMap) : Prop where
  same : m' = { m with fd := m'.fd }
  fd : m'.fd ≠ none

theorem createMap_created {nrCpus : Int} {reply : CreateReply} {m m' : ObjMap}
    (h : createMap nrCpus reply m = .ok (m', kernel)) : Created m m' := by
  unfold createMap at h
  cases hcreate : reply.create with
  | error errno =>
      rw [hcreate] at h
      split_ifs at h with hpreset
      obtain ⟨rfl, -⟩ := Prod.mk.inj (Except.ok.inj h)
      exact ⟨rfl, Option.isSome_iff_ne_none.mp hpreset⟩
  | ok fd =>
      rw [hcreate] at h
      dsimp only at h
      split_ifs at h with hpreset
      · obtain ⟨rfl, -⟩ := Prod.mk.inj (Except.ok.inj h)
        exact ⟨rfl, Option.isSome_iff_ne_none.mp hpreset⟩
      · obtain ⟨rfl, -⟩ := Prod.mk.inj (Except.ok.inj h)
        exact ⟨rfl, Option.some_ne_none fd⟩

theorem createMaps_created {nrCpus : Int} {replies : ℕ → CreateReply}
    (h : bpfObjectCreateMaps nrCpus replies maps = .ok (maps', kernel)) :
    List.Forall₂ Created maps maps' := by
  induction maps generalizing replies maps' kernel with
  | nil =>
      obtain ⟨rfl, -⟩ := Prod.mk.inj (Except.ok.inj h)
      exact .nil
  | cons m maps ih =>
      obtain ⟨⟨m', new⟩, hone, h⟩ := bind_eq_ok_iff.mp h
      obtain ⟨⟨rest, others⟩, hrest, h⟩ := bind_eq_ok_iff.mp h
      obtain ⟨rfl, -⟩ := Prod.mk.inj (Except.ok.inj h)
      exact .cons (createMap_created hone) (ih hrest)

/-- Different maps have different descriptors. -/
theorem fdMap_of_created (hcreated : List.Forall₂ Created maps maps')
    (hfds : (maps'.map ObjMap.fd).Nodup) {k : ℕ} {m : ObjMap} (hm : maps[k]? = some m) :
    ∃ fd, fdOf maps' k = .ok fd ∧ fdMap maps' fd = some m.key := by
  have hlt := (List.getElem?_eq_some_iff.mp hm).1
  have hlt' : k < maps'.length := hcreated.length_eq ▸ hlt
  have hone : Created m maps'[k] := by
    rw [← (List.getElem?_eq_some_iff.mp hm).2]
    exact hcreated.get hlt hlt'
  obtain ⟨fd, hfd⟩ := Option.ne_none_iff_exists'.mp hone.fd
  have hget : maps'[k]? = some maps'[k] := List.getElem?_eq_getElem hlt'
  have hkey : maps'[k].key = m.key := by rw [hone.same]; rfl
  refine ⟨fd, ?_, ?_⟩
  · rw [fdOf, hget]
    exact congrArg (fun fd ↦ Except.ok (Option.getD fd 0xffffffff)) hfd
  · rw [fdMap, find?_of_nodup hfds (List.getElem_mem hlt') hfd, Option.map_some, hkey]

theorem initUserMap_unspec {strict : Bool} {shndx size : ℕ} {data : List UInt8} {sym : ElfSym}
    {m : ObjMap} (h : initUserMap strict shndx data size sym = .ok m) :
    m.libbpfType = .unspec := by
  unfold initUserMap at h
  cases hname : sym.name with
  | none =>
      rw [hname] at h
      cases h
  | some name =>
      rw [hname] at h
      dsimp only at h
      split_ifs at h
      obtain ⟨params, -, h⟩ := bind_eq_ok_iff.mp h
      obtain rfl := Except.ok.inj h
      rfl

theorem initUserMaps_unspec {strict : Bool} {sections : List ElfSection}
    (h : bpfObjectInitUserMaps strict sections e = .ok maps) :
    ∀ m ∈ maps, m.libbpfType = .unspec := by
  unfold bpfObjectInitUserMaps at h
  cases hshndx : e.mapsShndx with
  | none =>
      rw [hshndx] at h
      obtain rfl := Except.ok.inj h
      exact fun _ hm ↦ absurd hm List.not_mem_nil
  | some shndx =>
      rw [hshndx] at h
      dsimp only at h
      cases hsymbols : e.symbols with
      | none =>
          rw [hsymbols] at h
          cases h
      | some symbols =>
          cases hscn : sectionAt sections shndx with
          | none =>
              rw [hsymbols, hscn] at h
              cases h
          | some scn =>
              rw [hsymbols, hscn] at h
              dsimp only at h
              split_ifs at h
              have hmaps := forall₂_of_mapM h
              intro m hm
              obtain ⟨k, hk, rfl⟩ := List.getElem_of_mem hm
              exact initUserMap_unspec (hmaps.get (hmaps.length_eq ▸ hk) hk)

theorem mem_initInternalMap {objName : String} {type : LibbpfMapType} {sections : List ElfSection}
    {shndx : Option ℕ} {m : ObjMap}
    (h : m ∈ bpfObjectInitInternalMap objName type sections shndx) :
    m.libbpfType = type ∧ shndx = some m.secIdx ∧ m.secOffset = 0 := by
  cases shndx with
  | none => exact absurd h List.not_mem_nil
  | some idx =>
      obtain rfl := List.mem_singleton.mp h
      exact ⟨rfl, rfl, rfl⟩

/-- The maps of the data sections stand for the whole section. -/
theorem initMaps_data {strict globalData : Bool} {objName : String} {sections : List ElfSection}
    (h : bpfObjectInitMaps strict globalData objName sections e = .ok maps) :
    ∀ m ∈ maps, m.libbpfType ≠ .unspec →
      e.sectionOf m.libbpfType = some m.secIdx ∧ m.secOffset = 0 := by
  obtain ⟨user, huser, h⟩ := bind_eq_ok_iff.mp h
  obtain rfl := Except.ok.inj h
  intro m hm htype
  rw [List.mem_mergeSort, List.mem_append] at hm
  rcases hm with hm | hm
  · exact absurd (initUserMaps_unspec huser m hm) htype
  · unfold bpfObjectInitGlobalDataMaps at hm
    split_ifs at hm
    · rcases List.mem_append.mp hm with hm | hm
      · obtain ⟨hdata, hsection, hoffset⟩ := mem_initInternalMap hm
        exact ⟨hdata ▸ hsection, hoffset⟩
      · rcases List.mem_append.mp hm with hm | hm
        · obtain ⟨hrodata, hsection, hoffset⟩ := mem_initInternalMap hm
          exact ⟨hrodata ▸ hsection, hoffset⟩
        · obtain ⟨hbss, hsection, hoffset⟩ := mem_initInternalMap hm
          exact ⟨hbss ▸ hsection, hoffset⟩
    · exact absurd hm List.not_mem_nil

theorem elfCollect_data {strict globalData : Bool} {objName : String} {btfExt : Option BtfExt}
    {sections : List ElfSection}
    (h : bpfObjectElfCollect strict globalData objName btfExt sections = .ok (e, maps)) :
    ∀ m ∈ maps, m.libbpfType ≠ .unspec →
      e.sectionOf m.libbpfType = some m.secIdx ∧ m.secOffset = 0 := by
  obtain ⟨e₀, -, h⟩ := bind_eq_ok_iff.mp h
  obtain ⟨maps₀, hinit, h⟩ := bind_eq_ok_iff.mp h
  obtain ⟨progs, -, h⟩ := bind_eq_ok_iff.mp h
  obtain ⟨rfl, rfl⟩ := Prod.mk.inj (Except.ok.inj h)
  exact initMaps_data hinit

end Maps

end AntiDos
