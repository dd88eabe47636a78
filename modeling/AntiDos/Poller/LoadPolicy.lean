import AntiDos.Lib.Inet
import AntiDos.Poller.State

/-!
# Loading the policy file

`load_policy` reads an id, an address and a threshold at a time and stores them in the next element
of `list_policy`, until `fscanf` reports the end of the file. It asks neither whether there is a
next element, nor how many of the three were read, nor whether the address is one. So it leaves its
arrays on every file that is not read to its end within ten turns, and accepts every other one. -/

namespace AntiDos

open Bytes Faulting Inet Scanf Words

/-- The number of elements of `list_policy`. -/
abbrev policySlots : ℕ := 10

abbrev ipBytes : ℕ := 20

inductive LoadFault
  | ipBuffer (w : List Char)
  | listPolicy (index : ℕ)

/-- The globals that `load_policy` writes. -/
structure PolicyArray where
  listPolicy : ℕ → Policy
  policyLen : ℕ

/-- The locals of `load_policy` into which `fscanf` reads; `ip` is the content of the buffer. -/
structure PolicyLocals where
  id : Int32
  ip : List Char
  threshold : Int32

/-- The result of `fscanf(fp, "%d %s %d\n", ..)`, what it assigns, and the rest of the file. -/
structure TripleScan where
  ret : Int
  id : Option Int32
  ip : Option (List Char)
  threshold : Option Int32
  rest : List Char

abbrev eof : Int := -1

def scanTriple (file : List Char) : TripleScan :=
  match scanNumeral file with
  | .eof => ⟨eof, none, none, none, []⟩
  | .mismatch rest => ⟨0, none, none, none, rest⟩
  | .found id rest =>
      match scanWord rest with
      | none => ⟨1, some id.toInt32, none, none, []⟩
      | some (ip, rest) =>
          match scanNumeral rest with
          | .eof => ⟨2, some id.toInt32, some ip, none, []⟩
          | .mismatch rest => ⟨2, some id.toInt32, some ip, none, rest⟩
          | .found threshold rest =>
              ⟨3, some id.toInt32, some ip, some threshold.toInt32, rest.dropWhile isSpace⟩

def TripleScan.Fits (r : TripleScan) : Prop := ∀ ip ∈ r.ip, ip.length < ipBytes

instance (r : TripleScan) : Decidable r.Fits :=
  inferInstanceAs (Decidable (∀ ip ∈ r.ip, ip.length < ipBytes))

def PolicyLocals.assign (l : PolicyLocals) (r : TripleScan) : PolicyLocals :=
  ⟨r.id.getD l.id, r.ip.getD l.ip, r.threshold.getD l.threshold⟩

def fscanfTriple (l : PolicyLocals) (file : List Char) :
    Except LoadFault (Int × PolicyLocals × List Char) :=
  let r := scanTriple file
  if r.Fits then .ok (r.ret, l.assign r, r.rest) else .error (.ipBuffer (r.ip.getD []))

/-- One copy of the loop body. `err` is the result of the first `fscanf`; the flag is false when the
body returns `1`. -/
def storePolicy (err : Int) (l : PolicyLocals) (a : PolicyArray) :
    Except LoadFault (Bool × PolicyArray) := do
  let p ← Faulting.read .listPolicy policySlots a.listPolicy a.policyLen
  let p := { p with id := l.id, ip := (inetPton (cString l.ip)).getD p.ip }
  if err = 0 then
    let stored ← write .listPolicy policySlots a.listPolicy a.policyLen p
    .ok (false, ⟨stored, a.policyLen⟩)
  else
    let stored ← write .listPolicy policySlots a.listPolicy a.policyLen
      { p with threshold := l.threshold }
    .ok (true, ⟨stored, a.policyLen + 1⟩)

theorem storePolicy_room {err : Int} {l : PolicyLocals} {a b : PolicyArray}
    (h : storePolicy err l a = .ok (true, b)) :
    a.policyLen < policySlots ∧ b.policyLen = a.policyLen + 1 := by
  obtain ⟨p, hp, h⟩ := bind_eq_ok_iff.mp h
  have hroom : a.policyLen < policySlots := by
    unfold Faulting.read at hp
    split at hp
    · assumption
    · cases hp
  dsimp only at h
  split at h
  · obtain ⟨stored, -, h⟩ := bind_eq_ok_iff.mp h
    cases h
  · obtain ⟨stored, -, h⟩ := bind_eq_ok_iff.mp h
    cases h
    exact ⟨hroom, rfl⟩

def policyLoop (err : Int) (l : PolicyLocals) (file : List Char) (a : PolicyArray) :
    Except LoadFault (Int × PolicyArray) :=
  match fscanfTriple l file with
  | .error e => .error e
  | .ok (ret, l, rest) =>
      if ret = eof then .ok (0, a)
      else
        match _hstore : storePolicy err l a with
        | .error e => .error e
        | .ok (false, a) => .ok (1, a)
        | .ok (true, b) => policyLoop err l rest b
termination_by policySlots - a.policyLen
decreasing_by
  have hroom := storePolicy_room _hstore
  omega

/-- `load_policy` on the content of the file, if it can be opened, with what stands in the locals
and in `list_policy` before. -/
def loadPolicy (file : Option (List Char)) (l : PolicyLocals) (listPolicy : ℕ → Policy) :
    Except LoadFault (Int × PolicyArray) :=
  match file with
  | none => .ok (1, ⟨listPolicy, 0⟩)
  | some file => do
      let (err, l, rest) ← fscanfTriple l file
      if 0 < err then
        match ← storePolicy err l ⟨listPolicy, 0⟩ with
        | (false, a) => .ok (1, a)
        | (true, a) => policyLoop err l rest a
      else .ok (0, ⟨listPolicy, 0⟩)

/-! ## The turns of the loop -/

variable {err : Int} {l : PolicyLocals} {file rest : List Char} {a b : PolicyArray}
  {listPolicy : ℕ → Policy} {r : Int × PolicyArray}

def PolicyArray.push (a : PolicyArray) (p : Policy) : PolicyArray :=
  ⟨Function.update a.listPolicy a.policyLen p, a.policyLen + 1⟩

/-- The element that a turn stores over `old`. -/
def PolicyLocals.policy (l : PolicyLocals) (old : Policy) : Policy :=
  ⟨l.id, (inetPton (cString l.ip)).getD old.ip, l.threshold⟩

theorem storePolicy_of_lt (l : PolicyLocals) (herr : err ≠ 0) (h : a.policyLen < policySlots) :
    storePolicy err l a = .ok (true, a.push (l.policy (a.listPolicy a.policyLen))) := by
  unfold storePolicy
  rw [read_of_lt _ h, ok_bind]
  dsimp only
  rw [if_neg herr, write_of_lt _ _ h]
  rfl

theorem storePolicy_of_le (err : Int) (l : PolicyLocals) (h : policySlots ≤ a.policyLen) :
    storePolicy err l a = .error (.listPolicy a.policyLen) := by
  unfold storePolicy Faulting.read
  rw [if_neg (Nat.not_lt.mpr h)]
  rfl

theorem policyLoop_eq (l : PolicyLocals) (file : List Char) (a : PolicyArray) (herr : err ≠ 0) :
    policyLoop err l file a =
      if ¬ (scanTriple file).Fits then .error (.ipBuffer ((scanTriple file).ip.getD []))
      else if (scanTriple file).ret = eof then .ok (0, a)
      else if a.policyLen < policySlots then
        policyLoop err (l.assign (scanTriple file)) (scanTriple file).rest
          (a.push ((l.assign (scanTriple file)).policy (a.listPolicy a.policyLen)))
      else .error (.listPolicy a.policyLen) := by
  rw [policyLoop, fscanfTriple]
  by_cases hfits : (scanTriple file).Fits
  · rw [if_pos hfits, if_neg (not_not_intro hfits)]
    dsimp only
    by_cases heof : (scanTriple file).ret = eof
    · rw [if_pos heof, if_pos heof]
    · rw [if_neg heof, if_neg heof]
      by_cases hroom : a.policyLen < policySlots
      · rw [if_pos hroom, storePolicy_of_lt _ herr hroom]
      · rw [if_neg hroom, storePolicy_of_le err _ (Nat.not_lt.mp hroom)]
  · rw [if_neg hfits, if_pos hfits]

/-! ## Files that are read to their end -/

/-- The file is read to its end in `n` turns: it is made of `n` records, each of them a number, a
word that fits the buffer and a number. A sign without digits may stand for the last number or for a
whole record, and the last record may break off. -/
inductive Records : ℕ → List Char → Prop
  | done {s : List Char} (hend : Blank s) : Records 0 s
  | sign {n : ℕ} {s rest : List Char} (hsign : SignAt s rest) (hrest : Records n rest) :
      Records (n + 1) s
  | id {s rest : List Char} {m : Numeral} (hid : NumeralAt s m rest) (hend : Blank rest) :
      Records 1 s
  | idIp {s r rest ip : List Char} {m : Numeral} (hid : NumeralAt s m r) (hip : WordAt r ip rest)
      (hfits : ip.length < ipBytes) (hend : Blank rest) : Records 1 s
  | idIpSign {n : ℕ} {s r r' rest ip : List Char} {m : Numeral} (hid : NumeralAt s m r)
      (hip : WordAt r ip r') (hfits : ip.length < ipBytes) (hsign : SignAt r' rest)
      (hrest : Records n rest) : Records (n + 1) s
  | line {n : ℕ} {s r r' rest ip : List Char} {m m' : Numeral} (hid : NumeralAt s m r)
      (hip : WordAt r ip r') (hfits : ip.length < ipBytes) (hthreshold : NumeralAt r' m' rest)
      (hrest : Records n rest) : Records (n + 1) s

/-- The same, in terms of what `fscanf` reports. -/
def Drains : ℕ → List Char → Prop
  | 0, file => (scanTriple file).ret = eof
  | n + 1, file => (scanTriple file).ret ≠ eof ∧ (scanTriple file).Fits ∧
      Drains n (scanTriple file).rest

instance Drains.decidable : (n : ℕ) → (file : List Char) → Decidable (Drains n file)
  | 0, _ => inferInstanceAs (Decidable (_ = _))
  | n + 1, file =>
      have := Drains.decidable n (scanTriple file).rest
      inferInstanceAs (Decidable (_ ∧ _ ∧ _))

variable {s r₁ r₂ ip : List Char} {m m' : Numeral} {n : ℕ}

theorem scanTriple_blank (h : Blank s) : scanTriple s = ⟨eof, none, none, none, []⟩ := by
  rw [scanTriple, scanNumeral_of_blank h]

theorem scanTriple_mismatch (h : SignAt s rest ∨ StuckAt s rest) :
    scanTriple s = ⟨0, none, none, none, rest⟩ := by
  rw [scanTriple, scanNumeral_eq_mismatch_iff.mpr h]

theorem scanTriple_id (hid : NumeralAt s m rest) (hend : Blank rest) :
    scanTriple s = ⟨1, some m.toInt32, none, none, []⟩ := by
  rw [scanTriple, scanNumeral_of_numeralAt hid]
  dsimp only
  rw [scanWord_eq_none_iff.mpr hend]

theorem scanTriple_idIp (hid : NumeralAt s m r₁) (hip : WordAt r₁ ip rest) (hend : Blank rest) :
    scanTriple s = ⟨2, some m.toInt32, some ip, none, []⟩ := by
  rw [scanTriple, scanNumeral_of_numeralAt hid]
  dsimp only
  rw [scanWord_eq_some_iff.mpr hip]
  dsimp only
  rw [scanNumeral_of_blank hend]

theorem scanTriple_idIp_mismatch (hid : NumeralAt s m r₁) (hip : WordAt r₁ ip r₂)
    (h : SignAt r₂ rest ∨ StuckAt r₂ rest) :
    scanTriple s = ⟨2, some m.toInt32, some ip, none, rest⟩ := by
  rw [scanTriple, scanNumeral_of_numeralAt hid]
  dsimp only
  rw [scanWord_eq_some_iff.mpr hip]
  dsimp only
  rw [scanNumeral_eq_mismatch_iff.mpr h]

theorem scanTriple_line (hid : NumeralAt s m r₁) (hip : WordAt r₁ ip r₂)
    (hthreshold : NumeralAt r₂ m' rest) :
    scanTriple s =
      ⟨3, some m.toInt32, some ip, some m'.toInt32, rest.dropWhile isSpace⟩ := by
  rw [scanTriple, scanNumeral_of_numeralAt hid]
  dsimp only
  rw [scanWord_eq_some_iff.mpr hip]
  dsimp only
  rw [scanNumeral_of_numeralAt hthreshold]

theorem scanTriple_dropWhile (s : List Char) : scanTriple (s.dropWhile isSpace) = scanTriple s := by
  unfold scanTriple scanNumeral
  rw [(stops_dropWhile isSpace s).dropWhile_eq]

theorem drains_dropWhile_iff : Drains n (s.dropWhile isSpace) ↔ Drains n s := by
  cases n with
  | zero => rw [Drains, Drains, scanTriple_dropWhile]
  | succ n => rw [Drains, Drains, scanTriple_dropWhile]

theorem not_drains_of_stuckAt (h : StuckAt s rest) : ¬ Drains n s := by
  induction n generalizing s with
  | zero =>
      rw [Drains, scanTriple_mismatch (Or.inr h)]
      simp [eof]
  | succ n ih =>
      rintro ⟨-, -, hrest⟩
      rw [scanTriple_mismatch (Or.inr h)] at hrest
      exact ih h.again hrest

theorem drains_nil (h : Drains n []) : n = 0 := by
  cases n with
  | zero => rfl
  | succ n => exact absurd rfl h.1

theorem Records.drains (h : Records n s) : Drains n s := by
  induction h with
  | done hend =>
      rw [Drains, scanTriple_blank hend]
  | sign hsign hrest ih =>
      rw [Drains, scanTriple_mismatch (Or.inl hsign)]
      exact ⟨by simp [eof], by simp [TripleScan.Fits], ih⟩
  | id hid hend =>
      rw [Drains, scanTriple_id hid hend]
      exact ⟨by simp [eof], by simp [TripleScan.Fits], rfl⟩
  | idIp hid hip hfits hend =>
      rw [Drains, scanTriple_idIp hid hip hend]
      exact ⟨by simp [eof], by simpa [TripleScan.Fits] using hfits, rfl⟩
  | idIpSign hid hip hfits hsign hrest ih =>
      rw [Drains, scanTriple_idIp_mismatch hid hip (Or.inl hsign)]
      exact ⟨by simp [eof], by simpa [TripleScan.Fits] using hfits, ih⟩
  | line hid hip hfits hthreshold hrest ih =>
      rw [Drains, scanTriple_line hid hip hthreshold]
      exact ⟨by simp [eof], by simpa [TripleScan.Fits] using hfits, drains_dropWhile_iff.mpr ih⟩

theorem scanTriple_ret_eq_eof_iff : (scanTriple s).ret = eof ↔ Blank s := by
  refine ⟨fun h ↦ ?_, fun h ↦ by rw [scanTriple_blank h]⟩
  rw [← scanNumeral_eq_eof_iff]
  unfold scanTriple at h
  split at h
  · assumption
  · simp [eof] at h
  · split at h
    · simp [eof] at h
    · split at h <;> simp [eof] at h

theorem Drains.records (h : Drains n s) : Records n s := by
  induction n generalizing s with
  | zero => exact .done (scanTriple_ret_eq_eof_iff.mp h)
  | succ n ih =>
      obtain ⟨hne, hfits, hrest⟩ := h
      rcases numeral_cases s with hs | ⟨m, r, hid⟩ | ⟨rest, hs⟩ | ⟨rest, hs⟩
      · exact absurd (scanTriple_ret_eq_eof_iff.mpr hs) hne
      · cases hword : scanWord r with
        | none =>
            have hend := scanWord_eq_none_iff.mp hword
            rw [scanTriple_id hid hend] at hrest
            obtain rfl := drains_nil hrest
            exact .id hid hend
        | some p =>
            obtain ⟨ip, r'⟩ := p
            have hip := scanWord_eq_some_iff.mp hword
            rcases numeral_cases r' with hend | ⟨m', rest, ht⟩ | ⟨rest, hs⟩ | ⟨rest, hs⟩
            · rw [scanTriple_idIp hid hip hend] at hfits hrest
              obtain rfl := drains_nil hrest
              exact .idIp hid hip (hfits ip rfl) hend
            · rw [scanTriple_line hid hip ht] at hfits hrest
              exact .line hid hip (hfits ip rfl) ht (ih (drains_dropWhile_iff.mp hrest))
            · rw [scanTriple_idIp_mismatch hid hip (Or.inl hs)] at hfits hrest
              exact .idIpSign hid hip (hfits ip rfl) hs (ih hrest)
            · rw [scanTriple_idIp_mismatch hid hip (Or.inr hs)] at hrest
              exact absurd hrest (not_drains_of_stuckAt hs.again)
      · rw [scanTriple_mismatch (Or.inl hs)] at hrest
        exact .sign hs (ih hrest)
      · rw [scanTriple_mismatch (Or.inr hs)] at hrest
        exact absurd hrest (not_drains_of_stuckAt hs.again)

theorem records_iff_drains : Records n s ↔ Drains n s := ⟨Records.drains, Drains.records⟩

/-! ## The arrays -/

theorem exists_policyLoop (herr : err ≠ 0) (hroom : a.policyLen + n ≤ policySlots)
    (h : Drains n file) : ∃ r, policyLoop err l file a = .ok r := by
  induction n generalizing l file a with
  | zero =>
      have heof : (scanTriple file).ret = eof := h
      have hfits : (scanTriple file).Fits := by
        rw [scanTriple_blank (scanTriple_ret_eq_eof_iff.mp heof)]
        simp [TripleScan.Fits]
      refine ⟨(0, a), ?_⟩
      rw [policyLoop_eq l file a herr, if_neg (not_not_intro hfits), if_pos heof]
  | succ n ih =>
      obtain ⟨hne, hfits, hrest⟩ := h
      rw [policyLoop_eq l file a herr, if_neg (not_not_intro hfits), if_neg hne,
        if_pos (by omega)]
      exact ih (by simp only [PolicyArray.push]; omega) hrest

theorem drains_of_policyLoop (herr : err ≠ 0) (ha : a.policyLen ≤ policySlots)
    (h : policyLoop err l file a = .ok r) :
    r.1 = 0 ∧ r.2.policyLen ≤ policySlots ∧
      ∃ n, r.2.policyLen = a.policyLen + n ∧ Drains n file := by
  induction hk : policySlots - a.policyLen generalizing l file a with
  | zero =>
      rw [policyLoop_eq l file a herr] at h
      split_ifs at h with hfits heof hroom
      · obtain rfl := Except.ok.inj h
        exact ⟨rfl, ha, 0, rfl, heof⟩
      · omega
  | succ k ih =>
      rw [policyLoop_eq l file a herr] at h
      split_ifs at h with hfits heof hroom
      · obtain rfl := Except.ok.inj h
        exact ⟨rfl, ha, 0, rfl, heof⟩
      · obtain ⟨hret, hle, n, hn, hdrains⟩ := ih (by simp only [PolicyArray.push]; omega) h
          (by simp only [PolicyArray.push]; omega)
        simp only [PolicyArray.push] at hn
        exact ⟨hret, hle, n + 1, by omega, heof, hfits, hdrains⟩

/-- The file begins with a number, so that the first `fscanf` assigns something. -/
def BeginsWithNumeral (file : List Char) : Prop := ∃ m rest, NumeralAt file m rest

theorem scanTriple_ret_pos_iff : 0 < (scanTriple file).ret ↔ BeginsWithNumeral file := by
  constructor
  · intro h
    rcases numeral_cases file with hs | hs | ⟨rest, hs⟩ | ⟨rest, hs⟩
    · rw [scanTriple_blank hs] at h
      exact absurd h (by simp [eof])
    · exact hs
    · rw [scanTriple_mismatch (Or.inl hs)] at h
      exact absurd h (lt_irrefl 0)
    · rw [scanTriple_mismatch (Or.inr hs)] at h
      exact absurd h (lt_irrefl 0)
  · rintro ⟨m, rest, hm⟩
    rw [scanTriple, scanNumeral_of_numeralAt hm]
    dsimp only
    split
    · simp
    · split <;> simp

theorem fits_of_ret_nonpos (h : ¬ 0 < (scanTriple file).ret) : (scanTriple file).Fits := by
  rcases numeral_cases file with hs | hs | ⟨rest, hs⟩ | ⟨rest, hs⟩
  · rw [scanTriple_blank hs]
    simp [TripleScan.Fits]
  · exact absurd (scanTriple_ret_pos_iff.mpr hs) h
  · rw [scanTriple_mismatch (Or.inl hs)]
    simp [TripleScan.Fits]
  · rw [scanTriple_mismatch (Or.inr hs)]
    simp [TripleScan.Fits]

theorem loadPolicy_of_not_begins (l : PolicyLocals) (listPolicy : ℕ → Policy)
    (h : ¬ BeginsWithNumeral file) :
    loadPolicy (some file) l listPolicy = .ok (0, ⟨listPolicy, 0⟩) := by
  rw [← scanTriple_ret_pos_iff] at h
  unfold loadPolicy fscanfTriple
  dsimp only
  rw [if_pos (fits_of_ret_nonpos h), ok_bind]
  dsimp only
  rw [if_neg h]

theorem loadPolicy_of_begins (l : PolicyLocals) (listPolicy : ℕ → Policy)
    (h : BeginsWithNumeral file) :
    loadPolicy (some file) l listPolicy =
      policyLoop (scanTriple file).ret l file ⟨listPolicy, 0⟩ := by
  have hpos := scanTriple_ret_pos_iff.mpr h
  have herr : (scanTriple file).ret ≠ 0 := ne_of_gt hpos
  have heof : (scanTriple file).ret ≠ eof := by
    intro heq
    rw [heq] at hpos
    exact absurd hpos (by simp [eof])
  rw [policyLoop_eq l file _ herr, if_neg heof]
  unfold loadPolicy fscanfTriple
  dsimp only
  by_cases hfits : (scanTriple file).Fits
  · rw [if_pos hfits, if_neg (not_not_intro hfits), if_pos (by decide), ok_bind]
    dsimp only
    rw [if_pos hpos, storePolicy_of_lt _ herr (by simp), ok_bind]
  · rw [if_neg hfits, if_pos hfits]
    rfl

theorem exists_loadPolicy_iff : (∃ r, loadPolicy (some file) l listPolicy = .ok r) ↔
    ¬ BeginsWithNumeral file ∨ ∃ n ≤ policySlots, Drains n file := by
  by_cases h : BeginsWithNumeral file
  · have herr : (scanTriple file).ret ≠ 0 := ne_of_gt (scanTriple_ret_pos_iff.mpr h)
    rw [loadPolicy_of_begins l listPolicy h]
    constructor
    · rintro ⟨r, hr⟩
      obtain ⟨-, hle, n, hn, hdrains⟩ := drains_of_policyLoop herr (Nat.zero_le _) hr
      exact Or.inr ⟨n, by simpa [hn] using hle, hdrains⟩
    · rintro (hnot | ⟨n, hn, hdrains⟩)
      · exact absurd h hnot
      · exact exists_policyLoop herr (by simpa using hn) hdrains
  · rw [loadPolicy_of_not_begins l listPolicy h]
    exact ⟨fun _ ↦ Or.inl h, fun _ ↦ ⟨_, rfl⟩⟩

/-- `load_policy` stays within its arrays exactly on the files that do not begin with a number, of
which it reads nothing, and on those made of at most ten records. -/
theorem loadPolicy_inBounds_iff (file : List Char) (l : PolicyLocals) (listPolicy : ℕ → Policy) :
    (∃ r, loadPolicy (some file) l listPolicy = .ok r) ↔
      ¬ BeginsWithNumeral file ∨ ∃ n ≤ policySlots, Records n file := by
  simp only [records_iff_drains]
  exact exists_loadPolicy_iff

/-- The second line has no number, and `fscanf` never gets past it. -/
def brokenPolicyFile : List Char := "1 10.10.10.10 100\nx".toList

theorem brokenPolicyFile_not_inBounds :
    ¬ ∃ r, loadPolicy (some brokenPolicyFile) ⟨0, [], 0⟩ (fun _ ↦ ⟨0, 0, 0⟩) = .ok r := by
  have hscan : scanTriple brokenPolicyFile =
      ⟨3, some 1, some "10.10.10.10".toList, some 100, ['x']⟩ := rfl
  have hbegins : BeginsWithNumeral brokenPolicyFile := by
    rw [← scanTriple_ret_pos_iff, hscan]
    decide
  have hstuck : StuckAt ['x'] ['x'] :=
    ⟨[], 'x', [], by simp [Blank], by decide, by decide, by decide, by decide, rfl, rfl⟩
  rw [exists_loadPolicy_iff]
  rintro (h | ⟨n, -, h⟩)
  · exact h hbegins
  · cases n with
    | zero =>
        rw [Drains, hscan] at h
        exact absurd h (by decide)
    | succ n =>
        have hrest := h.2.2
        rw [hscan] at hrest
        exact not_drains_of_stuckAt hstuck hrest

end AntiDos
