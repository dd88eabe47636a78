import AntiDos.Object.Run

/-!
# The section of the maps

A compiler puts the definitions of the maps into one section, one behind the other, and a symbol at
each of them in an order of its own. What is read back are the definitions, in their order, and the
maps of the kernel have their parameters.
-/

namespace AntiDos

open Bytes Faulting

/-- The memory image of a definition. -/
def BpfMapDef.image (d : BpfMapDef) : List UInt8 :=
  image32 d.type ++ (image32 d.keySize ++ (image32 d.valueSize ++
    (image32 d.maxEntries ++ image32 d.mapFlags)))

/-- The section of the definitions, with the names that the symbols give them. -/
def mapSection (defs : List (String × BpfMapDef)) : List UInt8 := defs.flatMap fun d ↦ d.2.image

/-! ## One definition -/

section Definition

variable {defs : List (String × BpfMapDef)} {d : BpfMapDef} {k : ℕ}

@[simp]
theorem length_image (d : BpfMapDef) : d.image.length = sizeofBpfMapDef := by
  simp [BpfMapDef.image]

theorem loadMapDef_image (d : BpfMapDef) : loadMapDef d.image = .ok d := by
  have htype : d.image.drop 0 = image32 d.type ++ _ := rfl
  have hkey := drop_of_append htype (length_image32 d.type)
  have hvalue := drop_of_append hkey (length_image32 d.keySize)
  have hentries := drop_of_append hvalue (length_image32 d.valueSize)
  have hflags : d.image.drop 16 = image32 d.mapFlags ++ [] :=
    (drop_of_append hentries (length_image32 d.maxEntries)).trans (List.append_nil _).symm
  rw [loadMapDef, load32_of_drop htype, ok_bind, load32_of_drop hkey, ok_bind,
    load32_of_drop hvalue, ok_bind, load32_of_drop hentries, ok_bind, load32_of_drop hflags,
    ok_bind]

theorem copyMapDef_image (strict : Bool) {data post : List UInt8} {offset : ℕ}
    (h : data.drop offset = d.image ++ post) :
    copyMapDef strict data offset sizeofBpfMapDef = .ok d := by
  have himage : (data.drop offset).take sizeofBpfMapDef = d.image := by
    rw [h]
    exact List.take_left' (length_image d)
  rw [copyMapDef, himage, length_image, if_neg (Nat.lt_irrefl _), if_pos (Nat.le_refl _)]
  exact (congrArg loadMapDef (List.append_nil _)).trans (loadMapDef_image d)

theorem length_mapSection (defs : List (String × BpfMapDef)) :
    (mapSection defs).length = sizeofBpfMapDef * defs.length := by
  induction defs with
  | nil => rfl
  | cons d defs ih =>
      rw [mapSection, List.flatMap_cons, List.length_append, length_image, List.length_cons,
        Nat.mul_succ, Nat.add_comm]
      exact congrArg (· + sizeofBpfMapDef) ih

theorem drop_mapSection {name : String} (h : defs[k]? = some (name, d)) :
    ∃ post, (mapSection defs).drop (sizeofBpfMapDef * k) = d.image ++ post := by
  induction defs generalizing k with
  | nil => cases h
  | cons d' defs ih =>
      cases k with
      | zero =>
          obtain rfl := Option.some.inj h
          exact ⟨mapSection defs, rfl⟩
      | succ k =>
          obtain ⟨post, hpost⟩ := ih h
          refine ⟨post, ?_⟩
          rw [mapSection, List.flatMap_cons, Nat.mul_succ, Nat.add_comm, ← List.drop_drop]
          exact (congrArg _ (List.drop_left' (length_image d'.2))).trans hpost

end Definition

/-! ## The maps of the section -/

/-- The map of a definition and its number. -/
def definedMap (shndx : ℕ) (d : (String × BpfMapDef) × ℕ) : ObjMap :=
  ⟨none, d.1.1, shndx, UInt64.ofNat (sizeofBpfMapDef * d.2), d.1.2, .unspec⟩

/-- The symbol of a definition. -/
structure IsSymbolOf (sym : ElfSym) (d : (String × BpfMapDef) × ℕ) : Prop where
  name : sym.name = some d.1.1
  value : sym.value = UInt64.ofNat (sizeofBpfMapDef * d.2)

/-- What a compiler makes of the definitions: a section, and symbols in any order. -/
structure CompiledMaps (sections : List ElfSection) (e : Efile) (shndx : ℕ)
    (defs : List (String × BpfMapDef)) : Prop where
  maps : e.mapsShndx = some shndx
  data : ∃ scn, sectionAt sections shndx = some scn ∧ scn.data = mapSection defs
  symbols : ∃ symbols order, e.symbols = some symbols ∧ order.Perm defs.zipIdx ∧
    List.Forall₂ IsSymbolOf (symbols.filter (·.shndx = shndx)) order
  nonempty : defs ≠ []
  small : sizeofBpfMapDef * defs.length ≤ 2 ^ 31

section Section

variable {sections : List ElfSection} {e : Efile} {shndx : ℕ} {defs : List (String × BpfMapDef)}

theorem lt_of_mem_zipIdx {d : (String × BpfMapDef) × ℕ} (hd : d ∈ defs.zipIdx) :
    d.2 < defs.length :=
  (List.getElem?_eq_some_iff.mp (List.mem_zipIdx_iff_getElem?.mp hd)).1

theorem definedMap_offset (shndx : ℕ) (hsmall : sizeofBpfMapDef * defs.length ≤ 2 ^ 31)
    {d : (String × BpfMapDef) × ℕ} (hd : d ∈ defs.zipIdx) :
    (definedMap shndx d).secOffset.toNat = sizeofBpfMapDef * d.2 ∧
      sizeofBpfMapDef * d.2 + sizeofBpfMapDef ≤ sizeofBpfMapDef * defs.length := by
  have hend : sizeofBpfMapDef * d.2 + sizeofBpfMapDef ≤ sizeofBpfMapDef * defs.length :=
    Nat.mul_le_mul_left sizeofBpfMapDef (lt_of_mem_zipIdx hd)
  have hle := (Nat.le_add_right _ _).trans (hend.trans hsmall)
  exact ⟨UInt64.toNat_ofNat_of_lt' (hle.trans_lt (by decide)), hend⟩

theorem initUserMap_definedMap (strict : Bool) (hsmall : sizeofBpfMapDef * defs.length ≤ 2 ^ 31)
    {sym : ElfSym} {d : (String × BpfMapDef) × ℕ} (hd : d ∈ defs.zipIdx) (hsym : IsSymbolOf sym d) :
    initUserMap strict shndx (mapSection defs) sizeofBpfMapDef sym = .ok (definedMap shndx d) := by
  obtain ⟨hoffset, hend⟩ := definedMap_offset shndx hsmall hd
  have hvalue : sym.value.toNat = sizeofBpfMapDef * d.2 := hsym.value ▸ hoffset
  have hsum : (sym.value + UInt64.ofNat sizeofBpfMapDef).toNat =
      sizeofBpfMapDef * d.2 + sizeofBpfMapDef := by
    have hsize : (UInt64.ofNat sizeofBpfMapDef).toNat = sizeofBpfMapDef := rfl
    rw [UInt64.toNat_add, hvalue, hsize]
    exact Nat.mod_eq_of_lt ((hend.trans hsmall).trans_lt (by decide))
  obtain ⟨post, hpost⟩ := drop_mapSection (List.mem_zipIdx_iff_getElem?.mp hd)
  rw [initUserMap, hsym.name]
  dsimp only
  rw [length_mapSection, hsum, if_neg (Nat.not_lt.mpr hend), hvalue, copyMapDef_image strict hpost,
    ok_bind, hsym.value]
  rfl

theorem mapM_of_forall₂ {α β γ ε : Type} {f : α → Except ε β} {g : γ → β} {xs : List α}
    {ds : List γ} (h : List.Forall₂ (fun x d ↦ f x = .ok (g d)) xs ds) :
    xs.mapM f = .ok (ds.map g) := by
  induction h with
  | nil => rfl
  | cons hone _ ih => rw [List.mapM_cons, hone, ok_bind, ih, ok_bind, List.map_cons, pure_eq_ok]

theorem initUserMaps_compiled (strict : Bool) (h : CompiledMaps sections e shndx defs) :
    ∃ order, List.Perm order defs.zipIdx ∧
      bpfObjectInitUserMaps strict sections e = .ok (order.map (definedMap shndx)) := by
  obtain ⟨hmaps, ⟨scn, hscn, hdata⟩, ⟨symbols, order, hsymbols, hperm, hnamed⟩, hne, hsmall⟩ := h
  refine ⟨order, hperm, ?_⟩
  have hcount : (symbols.filter (·.shndx = shndx)).length = defs.length :=
    hnamed.length_eq.trans (hperm.length_eq.trans List.length_zipIdx)
  have hpos := List.length_pos_iff.mpr hne
  have hfits : ¬(sizeofBpfMapDef * defs.length = 0 ∨ defs.length = 0 ∨ 0 ≠ 0) := by
    rintro (hzero | hzero | hzero)
    · exact (Nat.mul_pos (by decide) hpos).ne' hzero
    · exact hpos.ne' hzero
    · exact hzero rfl
  unfold bpfObjectInitUserMaps
  rw [hmaps]
  dsimp only
  rw [hsymbols, hscn]
  dsimp only
  rw [hdata, hcount, length_mapSection, Nat.mul_mod_left, Nat.mul_div_cancel _ hpos,
    if_neg hfits]
  refine mapM_of_forall₂ ?_
  have hmem : ∀ d ∈ order, d ∈ defs.zipIdx := fun d hd ↦ hperm.mem_iff.mp hd
  clear hperm hcount hsymbols
  generalize symbols.filter (·.shndx = shndx) = syms at hnamed ⊢
  induction hnamed with
  | nil => exact .nil
  | cons hone _ ih =>
      obtain ⟨hfirst, hrest⟩ := List.forall_mem_cons.mp hmem
      exact .cons (initUserMap_definedMap strict hsmall hfirst hone) (ih hrest)

end Section

/-! ## Their order -/

/-- The order of the definitions in the file. -/
def ObjMap.Before (a b : ObjMap) : Prop :=
  a.secIdx < b.secIdx ∨ a.secIdx = b.secIdx ∧ a.secOffset.toNat ≤ b.secOffset.toNat

instance (a b : ObjMap) : Decidable (a.Before b) := inferInstanceAs (Decidable (_ ∨ _))

/-- Offsets below `2 ^ 31` are compared as they are. -/
theorem compareBpfMap_le_iff {a b : ObjMap} (ha : a.secOffset.toNat < 2 ^ 31)
    (hb : b.secOffset.toNat < 2 ^ 31) : compareBpfMap a b ≤ 0 ↔ a.Before b := by
  unfold compareBpfMap ObjMap.Before
  by_cases hidx : a.secIdx = b.secIdx
  · have hdiff : (a.secOffset - b.secOffset).toUInt32.toNat =
        (2 ^ 64 - b.secOffset.toNat + a.secOffset.toNat) % 2 ^ 64 % 2 ^ 32 := by
      rw [UInt64.toNat_toUInt32, UInt64.toNat_sub]
    rw [if_neg (not_not_intro hidx), toInt_toInt32, hdiff]
    split_ifs <;> omega
  · rw [if_pos hidx]
    omega

theorem sorted_maps {maps : List ObjMap} (hsmall : ∀ m ∈ maps, m.secOffset.toNat < 2 ^ 31) :
    (maps.mergeSort fun a b ↦ compareBpfMap a b ≤ 0).Pairwise ObjMap.Before := by
  have hsame : (maps.mergeSort fun a b ↦ compareBpfMap a b ≤ 0).map id =
      (maps.map id).mergeSort fun a b ↦ a.Before b :=
    List.map_mergeSort fun a ha b hb ↦
      decide_eq_decide.mpr (compareBpfMap_le_iff (hsmall a ha) (hsmall b hb))
  rw [List.map_id, List.map_id] at hsame
  rw [hsame]
  refine (List.pairwise_mergeSort (fun m₁ m₂ m₃ hab hbc ↦ ?_) (fun a b ↦ ?_) maps).imp
    of_decide_eq_true
  · have hab : m₁.Before m₂ := of_decide_eq_true hab
    have hbc : m₂.Before m₃ := of_decide_eq_true hbc
    refine decide_eq_true ?_
    unfold ObjMap.Before at hab hbc ⊢
    omega
  · rw [Bool.or_eq_true, decide_eq_true_iff, decide_eq_true_iff]
    unfold ObjMap.Before
    omega

section Maps

variable {sections : List ElfSection} {e : Efile} {shndx : ℕ} {defs : List (String × BpfMapDef)}
  {maps maps' : List ObjMap} {kernel : List KernelMap}

theorem mem_initGlobalDataMaps {globalData : Bool} {objName : String} {m : ObjMap}
    (h : m ∈ bpfObjectInitGlobalDataMaps globalData objName sections e) :
    m.libbpfType ≠ .unspec ∧ m.secOffset = 0 ∧ m.fd = none := by
  have hone : ∀ {type : LibbpfMapType} {idx : Option ℕ}, type ≠ .unspec →
      m ∈ bpfObjectInitInternalMap objName type sections idx →
        m.libbpfType ≠ .unspec ∧ m.secOffset = 0 ∧ m.fd = none := by
    intro type idx htype hm
    cases idx with
    | none => exact absurd hm List.not_mem_nil
    | some idx =>
        obtain rfl := List.mem_singleton.mp hm
        exact ⟨htype, rfl, rfl⟩
  unfold bpfObjectInitGlobalDataMaps at h
  split_ifs at h
  · rcases List.mem_append.mp h with hdata | h
    · exact hone (by decide) hdata
    · rcases List.mem_append.mp h with hrodata | hbss
      · exact hone (by decide) hrodata
      · exact hone (by decide) hbss
  · exact absurd h List.not_mem_nil

/-- The definitions are read back in the order of the file. -/
theorem initMaps_compiled (strict globalData : Bool) (objName : String)
    (h : CompiledMaps sections e shndx defs) :
    ∃ maps, bpfObjectInitMaps strict globalData objName sections e = .ok maps ∧
      (∀ m ∈ maps, m.fd = none) ∧
        maps.filter (·.libbpfType = .unspec) = defs.zipIdx.map (definedMap shndx) := by
  obtain ⟨order, hperm, huser⟩ := initUserMaps_compiled strict h
  have hoffset : ∀ {d}, d ∈ defs.zipIdx →
      (definedMap shndx d).secOffset.toNat = sizeofBpfMapDef * d.2 ∧
        sizeofBpfMapDef * d.2 < 2 ^ 31 := by
    intro d hd
    obtain ⟨heq, hend⟩ := definedMap_offset shndx h.small hd
    exact ⟨heq, (Nat.lt_add_of_pos_right (by decide)).trans_le (hend.trans h.small)⟩
  have hof : ∀ {m}, m ∈ order.map (definedMap shndx) →
      ∃ d ∈ defs.zipIdx, definedMap shndx d = m := by
    intro m hm
    obtain ⟨d, hd, hm⟩ := List.mem_map.mp hm
    exact ⟨d, hperm.mem_iff.mp hd, hm⟩
  let all := order.map (definedMap shndx) ++
    bpfObjectInitGlobalDataMaps globalData objName sections e
  have hsmall : ∀ m ∈ all, m.secOffset.toNat < 2 ^ 31 := by
    intro m hm
    rcases List.mem_append.mp hm with hm | hm
    · obtain ⟨d, hd, rfl⟩ := hof hm
      exact (hoffset hd).1 ▸ (hoffset hd).2
    · rw [(mem_initGlobalDataMaps hm).2.1]
      decide
  refine ⟨all.mergeSort fun a b ↦ compareBpfMap a b ≤ 0, ?_, fun m hm ↦ ?_, ?_⟩
  · rw [bpfObjectInitMaps, huser]
    rfl
  · rcases List.mem_append.mp (List.mem_mergeSort.mp hm) with hm | hm
    · obtain ⟨d, -, rfl⟩ := hof hm
      rfl
    · exact (mem_initGlobalDataMaps hm).2.2
  · have hfilter : all.filter (·.libbpfType = .unspec) = order.map (definedMap shndx) := by
      rw [List.filter_append, List.filter_eq_self.mpr, List.filter_eq_nil_iff.mpr, List.append_nil]
      · intro m hm
        simpa using (mem_initGlobalDataMaps hm).1
      · intro m hm
        obtain ⟨d, -, rfl⟩ := hof hm
        rfl
    refine List.Perm.eq_of_pairwise (fun a b ha hb hab hba ↦ ?_)
      ((sorted_maps hsmall).filter _) ?_ ?_
    · have ha : a ∈ order.map (definedMap shndx) := by
        rw [← hfilter]
        exact ((List.mergeSort_perm _ _).filter _).mem_iff.mp ha
      obtain ⟨d, hd, rfl⟩ := hof ha
      obtain ⟨d', hd', rfl⟩ := List.mem_map.mp hb
      have hd₂ : d.2 = d'.2 := by
        unfold ObjMap.Before at hab hba
        rw [(hoffset hd).1, (hoffset hd').1] at hab hba
        unfold sizeofBpfMapDef at hab hba
        omega
      have hd₁ : d.1 = d'.1 := Option.some.inj ((List.mem_zipIdx_iff_getElem?.mp hd).symm.trans
        (hd₂ ▸ List.mem_zipIdx_iff_getElem?.mp hd'))
      rw [Prod.ext hd₁ hd₂]
    · refine List.pairwise_map.mpr (List.pairwise_iff_getElem.mpr fun i j hi hj hij ↦ ?_)
      refine Or.inr ⟨rfl, ?_⟩
      rw [(hoffset (List.getElem_mem hi)).1, (hoffset (List.getElem_mem hj)).1]
      rw [List.getElem_zipIdx, List.getElem_zipIdx]
      exact Nat.mul_le_mul_left _ (Nat.add_le_add_left hij.le _)
    · refine ((List.mergeSort_perm all _).filter _).trans ?_
      rw [hfilter]
      exact hperm.map _

/-- A created map has the parameters of its definition. -/
theorem createMap_params {nrCpus : Int} {reply : CreateReply} {m m' : ObjMap}
    (hfd : m.fd = none) (h : createMap nrCpus reply m = .ok (m', kernel)) :
    { m' with fd := none } = m ∧ kernel.map (fun km ↦ (some km.fd, km.attr)) =
      [(m'.fd, createAttr (UInt32.ofNat nrCpus.toNat) m'.params)] := by
  have hunset : ¬m.fd.isSome := by rw [hfd]; exact Bool.false_ne_true
  unfold createMap at h
  rw [if_neg hunset] at h
  cases hcreate : reply.create with
  | error errno =>
      rw [hcreate] at h
      split_ifs at h
  | ok fd =>
      rw [hcreate] at h
      dsimp only at h
      split_ifs at h
      obtain ⟨rfl, rfl⟩ := Prod.mk.inj (Except.ok.inj h)
      exact ⟨by rw [← hfd], rfl⟩

theorem createMaps_params {nrCpus : Int} {replies : ℕ → CreateReply}
    (hfds : ∀ m ∈ maps, m.fd = none)
    (h : bpfObjectCreateMaps nrCpus replies maps = .ok (maps', kernel)) :
    maps'.map (fun m ↦ { m with fd := none }) = maps ∧
      kernel.map (fun km ↦ (some km.fd, km.attr)) =
        maps'.map fun m ↦ (m.fd, createAttr (UInt32.ofNat nrCpus.toNat) m.params) := by
  induction maps generalizing replies maps' kernel with
  | nil =>
      obtain ⟨rfl, rfl⟩ := Prod.mk.inj (Except.ok.inj h)
      exact ⟨rfl, rfl⟩
  | cons m maps ih =>
      obtain ⟨hfd, hfds⟩ := List.forall_mem_cons.mp hfds
      obtain ⟨⟨m', new⟩, hone, h⟩ := bind_eq_ok_iff.mp h
      obtain ⟨⟨rest, others⟩, hrest, h⟩ := bind_eq_ok_iff.mp h
      obtain ⟨rfl, rfl⟩ := Prod.mk.inj (Except.ok.inj h)
      obtain ⟨hsame, hnew⟩ := createMap_params hfd hone
      obtain ⟨hsames, hothers⟩ := ih hfds hrest
      refine ⟨?_, ?_⟩
      · rw [List.map_cons, hsames, hsame]
      · rw [List.map_append, hnew, hothers]
        rfl

/-- The definitions that a compiler has put into the section are the maps that are found there, and
each map of the kernel has the parameters of the map whose descriptor it is known by. -/
theorem maps_round_trip (strict globalData : Bool) (objName : String)
    (h : CompiledMaps sections e shndx defs) :
    ∃ maps, bpfObjectInitMaps strict globalData objName sections e = .ok maps ∧
      ∀ nrCpus replies maps' kernel,
        bpfObjectCreateMaps nrCpus replies maps = .ok (maps', kernel) →
          (maps'.filter (·.libbpfType = .unspec)).map (fun m ↦ (m.name, m.params)) = defs ∧
            kernel.map (fun km ↦ (some km.fd, km.attr)) =
              maps'.map fun m ↦ (m.fd, createAttr (UInt32.ofNat nrCpus.toNat) m.params) := by
  obtain ⟨maps, hinit, hfds, hmaps⟩ := initMaps_compiled strict globalData objName h
  refine ⟨maps, hinit, fun nrCpus replies maps' kernel hcreate ↦ ?_⟩
  obtain ⟨rfl, hkernel⟩ := createMaps_params hfds hcreate
  refine ⟨?_, hkernel⟩
  rw [List.filter_map] at hmaps
  have hpairs := congrArg (List.map fun m : ObjMap ↦ (m.name, m.params)) hmaps
  rw [List.map_map, List.map_map] at hpairs
  exact hpairs.trans (List.zipIdx_map_fst 0 defs)

end Maps

/-- The two maps of the small object. -/
theorem maps_round_trip_sample : ∃ maps,
    bpfObjectInitMaps true true "sample" sampleSections sampleEfile = .ok maps ∧
      ∀ nrCpus replies maps' kernel,
        bpfObjectCreateMaps nrCpus replies maps = .ok (maps', kernel) →
          (maps'.filter (·.libbpfType = .unspec)).map (fun m ↦ (m.name, m.params)) =
              [("first", ⟨2, 4, 8, 1, 0⟩), ("second", ⟨1, 4, 8, 9, 0⟩)] ∧
            kernel.map (fun km ↦ (some km.fd, km.attr)) =
              maps'.map fun m ↦ (m.fd, createAttr (UInt32.ofNat nrCpus.toNat) m.params) := by
  have hcompiled : CompiledMaps sampleSections sampleEfile 4
      [("first", ⟨2, 4, 8, 1, 0⟩), ("second", ⟨1, 4, 8, 9, 0⟩)] :=
    ⟨rfl, ⟨_, rfl, by decide⟩, ⟨sampleSymbols, _, rfl, .refl _,
      .cons ⟨rfl, rfl⟩ (.cons ⟨rfl, rfl⟩ .nil)⟩, by decide, by decide⟩
  exact maps_round_trip true true "sample" hcompiled

end AntiDos
