import AntiDos.Poller.LoadPolicy

/-!
# The format of the policy file

A policy file is a sequence of words, three for each policy: a decimal `int`, a dotted quad and a
decimal `int`. On such a file `load_policy` leaves the policies of the file in `list_policy`. But it
reports no error on any other file either, so it accepts exactly its format only when it is given
nothing else.
-/

namespace AntiDos

open Bytes Inet Scanf Words

def IsInt (w : List Char) (v : Int32) : Prop := ∃ m, IsNumeral w m ∧ m.value = v.toInt

/-- The word is a dotted quad, which `inet_pton` turns into `x`. -/
def IsAddr (w : List Char) (x : UInt32) : Prop :=
  ∃ a b c d, DottedQuad w a b c d ∧ x = le32 a b c d

inductive PolicyWords : List (List Char) → List Policy → Prop
  | nil : PolicyWords [] []
  | cons {id ip threshold : List Char} {ws : List (List Char)} {p : Policy} {ps : List Policy}
      (hid : IsInt id p.id) (hip : IsAddr ip p.ip) (hthreshold : IsInt threshold p.threshold)
      (hrest : PolicyWords ws ps) : PolicyWords (id :: ip :: threshold :: ws) (p :: ps)

/-- The file is a sequence of the triples `ps`, separated by white space. -/
def PolicyFile (file : List Char) (ps : List Policy) : Prop := PolicyWords (words isSpace file) ps

/-- `load_policy` reports success exactly on the policy files, and leaves their policies. -/
structure Accurate (file : List Char) (r : Int × PolicyArray) : Prop where
  accepts : r.1 = 0 ↔ ∃ ps, PolicyFile file ps
  table : ∀ ps, PolicyFile file ps →
    r.2.policyLen = ps.length ∧ ∀ k (hk : k < ps.length), r.2.listPolicy k = ps[k]

/-! ## Reading a triple -/

variable {err : Int} {l : PolicyLocals} {file w ip rest : List Char} {a : PolicyArray}
  {listPolicy : ℕ → Policy} {r : Int × PolicyArray} {ps : List Policy} {m : Numeral}

theorem toInt32_of_value {v : Int32} (h : m.value = v.toInt) : m.toInt32 = v := by
  have hlow := v.le_toInt
  have hhigh := v.toInt_lt
  rw [Numeral.toInt32, h, min_eq_left (by omega), max_eq_right (by omega), Int32.ofInt_toInt]

theorem stops_isDigit (h : Stops (!isSpace ·) rest) : Stops Char.isDigit rest := by
  cases rest with
  | nil => exact stops_nil
  | cons c rest =>
      have hspace : isSpace c = true := by simpa using stops_cons.mp h
      refine stops_cons.mpr (Bool.eq_false_iff.mpr fun hdigit ↦ ?_)
      rw [isDigit_not_isSpace hdigit] at hspace
      cases hspace

theorem wordAt_of_words {s : List Char} {ws : List (List Char)} (h : words isSpace s = w :: ws) :
    ∃ rest, WordAt s w rest ∧ words isSpace rest = ws := by
  obtain ⟨rest, hnext, hrest⟩ := nextWord_of_words h
  exact ⟨rest, nextWord_eq_some_iff.mp hnext, hrest⟩

theorem numeralAt_of_wordAt {s : List Char} (h : WordAt s w rest) (hw : IsNumeral w m) :
    NumeralAt s m rest := by
  obtain ⟨gap, hgap, -, hrest, rfl⟩ := h
  exact ⟨gap, w, hgap, hw, stops_isDigit hrest, rfl⟩

theorem IsAddr.inetPton_eq {x : UInt32} (h : IsAddr ip x) : inetPton (cString ip) = some x := by
  obtain ⟨a, b, c, d, hquad, rfl⟩ := h
  rw [hquad.cString_eq, inetPton_eq_some_iff]
  exact ⟨a, b, c, d, hquad, rfl⟩

theorem scanTriple_of_words {id threshold : List Char} {ws : List (List Char)} {p : Policy}
    (hid : IsInt id p.id) (hthreshold : IsInt threshold p.threshold)
    (h : words isSpace file = id :: ip :: threshold :: ws) :
    ∃ rest, scanTriple file = ⟨3, some p.id, some ip, some p.threshold, rest⟩ ∧
      words isSpace rest = ws := by
  obtain ⟨m, hm, hvalue⟩ := hid
  obtain ⟨m', hm', hvalue'⟩ := hthreshold
  obtain ⟨r₁, hid, h₁⟩ := wordAt_of_words h
  obtain ⟨r₂, hip, h₂⟩ := wordAt_of_words h₁
  obtain ⟨r₃, hthreshold, h₃⟩ := wordAt_of_words h₂
  refine ⟨r₃.dropWhile isSpace, ?_, (words_dropWhile isSpace r₃).trans h₃⟩
  rw [scanTriple_line (numeralAt_of_wordAt hid hm) hip (numeralAt_of_wordAt hthreshold hm'),
    toInt32_of_value hvalue, toInt32_of_value hvalue']

/-! ## Loading a policy file -/

theorem foldl_push (ps : List Policy) (a : PolicyArray) :
    (ps.foldl PolicyArray.push a).policyLen = a.policyLen + ps.length ∧
      (∀ k < a.policyLen, (ps.foldl PolicyArray.push a).listPolicy k = a.listPolicy k) ∧
      ∀ k (hk : k < ps.length),
        (ps.foldl PolicyArray.push a).listPolicy (a.policyLen + k) = ps[k] := by
  induction ps generalizing a with
  | nil => simp
  | cons p ps ih =>
      obtain ⟨hlen, hold, hnew⟩ := ih (a.push p)
      have hpush : (a.push p).policyLen = a.policyLen + 1 := rfl
      rw [hpush] at hlen hold hnew
      refine ⟨?_, fun k hk ↦ ?_, fun k hk ↦ ?_⟩
      · rw [List.foldl_cons, hlen, List.length_cons]
        omega
      · rw [List.foldl_cons, hold k (by omega), PolicyArray.push]
        exact Function.update_of_ne (by omega) _ _
      · cases k with
        | zero =>
            rw [List.foldl_cons, Nat.add_zero, hold _ (Nat.lt_succ_self _), PolicyArray.push]
            exact Function.update_self _ _ _
        | succ k =>
            have hk' : k < ps.length := by simpa using hk
            have hshift : a.policyLen + (k + 1) = a.policyLen + 1 + k := by omega
            rw [List.foldl_cons, List.getElem_cons_succ, hshift]
            exact hnew k hk'

theorem policyLoop_policyWords {ws : List (List Char)} (herr : err ≠ 0)
    (hws : PolicyWords ws ps) (hfile : words isSpace file = ws)
    (h : policyLoop err l file a = .ok r) : r.2 = ps.foldl PolicyArray.push a := by
  induction hws generalizing l file a with
  | nil =>
      rw [policyLoop_eq l file a herr, scanTriple_blank (words_eq_nil_iff.mp hfile),
        if_neg (by simp [TripleScan.Fits]), if_pos rfl] at h
      rw [← Except.ok.inj h]
      rfl
  | @cons id ip threshold ws p ps hid hip hthreshold hrest ih =>
      obtain ⟨rest, hscan, hws⟩ := scanTriple_of_words hid hthreshold hfile
      have hne : (3 : Int) ≠ eof := by decide
      rw [policyLoop_eq l file a herr, hscan, if_neg hne] at h
      split_ifs at h with hfits hroom
      have hpush := ih hws h
      simp only [PolicyLocals.policy, PolicyLocals.assign, Option.getD_some,
        hip.inetPton_eq] at hpush
      exact hpush

theorem PolicyFile.eq_nil (h : PolicyFile file ps) (hnot : ¬ BeginsWithNumeral file) : ps = [] := by
  unfold PolicyFile at h
  generalize hws : words isSpace file = ws at h
  cases h with
  | nil => rfl
  | cons hid hip hthreshold hrest =>
      obtain ⟨m, hm, -⟩ := hid
      obtain ⟨rest, hword, -⟩ := wordAt_of_words hws
      exact absurd ⟨m, rest, numeralAt_of_wordAt hword hm⟩ hnot

theorem loadPolicy_ret (h : loadPolicy (some file) l listPolicy = .ok r) : r.1 = 0 := by
  by_cases hbegins : BeginsWithNumeral file
  · rw [loadPolicy_of_begins l listPolicy hbegins] at h
    have herr : (scanTriple file).ret ≠ 0 := ne_of_gt (scanTriple_ret_pos_iff.mpr hbegins)
    exact (drains_of_policyLoop herr (Nat.zero_le _) h).1
  · rw [loadPolicy_of_not_begins l listPolicy hbegins] at h
    rw [← Except.ok.inj h]

theorem loadPolicy_policyFile (h : loadPolicy (some file) l listPolicy = .ok r)
    (hfile : PolicyFile file ps) : r.2 = ps.foldl PolicyArray.push ⟨listPolicy, 0⟩ := by
  by_cases hbegins : BeginsWithNumeral file
  · rw [loadPolicy_of_begins l listPolicy hbegins] at h
    have herr : (scanTriple file).ret ≠ 0 := ne_of_gt (scanTriple_ret_pos_iff.mpr hbegins)
    exact policyLoop_policyWords herr hfile rfl h
  · rw [loadPolicy_of_not_begins l listPolicy hbegins] at h
    rw [hfile.eq_nil hbegins, ← Except.ok.inj h]
    rfl

/-- Where `load_policy` stays within its arrays, it does what its format asks for exactly on the
files of that format. -/
theorem loadPolicy_accurate_iff (file : List Char) (l : PolicyLocals) (listPolicy : ℕ → Policy)
    (h : loadPolicy (some file) l listPolicy = .ok r) :
    Accurate file r ↔ ∃ ps, PolicyFile file ps := by
  have hret := loadPolicy_ret h
  constructor
  · intro haccurate
    exact haccurate.accepts.mp hret
  · intro hformat
    refine ⟨⟨fun _ ↦ hformat, fun _ ↦ hret⟩, fun ps hfile ↦ ?_⟩
    obtain ⟨hlen, -, hnew⟩ := foldl_push ps ⟨listPolicy, 0⟩
    rw [loadPolicy_policyFile h hfile]
    exact ⟨by simpa using hlen, fun k hk ↦ by simpa using hnew k hk⟩

def policyText : List Char := "1 10.10.10.10 100\n2 10.10.30.1 100".toList

theorem policyText_format :
    PolicyFile policyText [⟨1, 0x0A0A0A0A, 100⟩, ⟨2, 0x011E0A0A, 100⟩] := by
  have hint : ∀ w : List Char, w ≠ [] → w.all Char.isDigit = true → IsNumeral w ⟨false, w⟩ :=
    fun w hne hall ↦ .plain hne (List.all_eq_true.mp hall)
  have hwords : words isSpace policyText = ["1".toList, "10.10.10.10".toList, "100".toList,
      "2".toList, "10.10.30.1".toList, "100".toList] := by decide
  rw [PolicyFile, hwords]
  refine .cons ⟨_, hint _ (by decide) (by decide), by decide⟩ (inetPton_eq_some_iff.mp (by decide))
    ⟨_, hint _ (by decide) (by decide), by decide⟩ ?_
  exact .cons ⟨_, hint _ (by decide) (by decide), by decide⟩ (inetPton_eq_some_iff.mp (by decide))
    ⟨_, hint _ (by decide) (by decide), by decide⟩ .nil

theorem policyText_accurate :
    ∃ r, loadPolicy (some policyText) ⟨0, [], 0⟩ (fun _ ↦ ⟨0, 0, 0⟩) = .ok r ∧
      Accurate policyText r := by
  have hdrains : Drains 2 policyText := by decide
  obtain ⟨r, hr⟩ := exists_loadPolicy_iff.mpr (Or.inr ⟨2, by decide, hdrains⟩)
  exact ⟨r, hr, (loadPolicy_accurate_iff policyText ⟨0, [], 0⟩ _ hr).mpr ⟨_, policyText_format⟩⟩

/-- The second word is no address. -/
theorem bad_address_accepted :
    ∃ r, loadPolicy (some "1 bad 100".toList) ⟨0, [], 0⟩ (fun _ ↦ ⟨0, 0, 0⟩) = .ok r ∧
      ¬ Accurate "1 bad 100".toList r := by
  have hdrains : Drains 1 "1 bad 100".toList := by decide
  obtain ⟨r, hr⟩ := exists_loadPolicy_iff.mpr (Or.inr ⟨1, by decide, hdrains⟩)
  refine ⟨r, hr, fun h ↦ ?_⟩
  obtain ⟨ps, hps⟩ := h.accepts.mp (loadPolicy_ret hr)
  have hwords : words isSpace "1 bad 100".toList = ["1".toList, "bad".toList, "100".toList] := by
    decide
  rw [PolicyFile, hwords] at hps
  cases hps with
  | cons hid hip hthreshold hrest =>
      have hpton : inetPton (cString "bad".toList) = none := by decide
      cases hpton.symm.trans hip.inetPton_eq

end AntiDos
