import AntiDos.Lib.Words
import Mathlib.Algebra.Group.Int.Defs
import Mathlib.Algebra.Group.Nat.Defs

/-!
# Conversions of `scanf` and `printf`

A text is the list of its bytes, each as the character of its code. A conversion of `scanf` skips
white space, takes the longest run that can begin an item, and leaves the rest. It reports the end
of the text when nothing but white space is left. A run that begins an item and is none, which can
only be a sign without digits, is taken all the same.
-/

namespace Scanf

open Words

variable {s t w gap rest ds : List Char} {c : Char}

/-- `isspace` in the C locale. -/
def isSpace (c : Char) : Bool := c = ' ' ∨ '\t'.toNat ≤ c.toNat ∧ c.toNat ≤ '\r'.toNat

/-- A string ends at its first NUL. -/
def cString (s : List Char) : List Char := s.takeWhile (· ≠ '\x00')

theorem cString_eq (h : '\x00' ∉ s) : cString s = s := by
  rw [cString, List.takeWhile_eq_self_iff]
  intro c hc
  rw [decide_eq_true_eq]
  rintro rfl
  exact h hc

/-- `%s`, which fails only at the end of the text. -/
def scanWord (s : List Char) : Option (List Char × List Char) := nextWord isSpace s

/-- An optional sign and the digits behind it. -/
structure Numeral where
  negative : Bool
  digits : List Char
  deriving DecidableEq

/-- What `%d` and `%u` find. -/
inductive Scan where
  | eof
  | mismatch (rest : List Char)
  | found (m : Numeral) (rest : List Char)

def scanSigned : List Char → Scan
  | [] => .eof
  | c :: cs =>
      let body := if c = '-' ∨ c = '+' then cs else c :: cs
      if body.takeWhile Char.isDigit = [] then .mismatch body
      else .found ⟨c = '-', body.takeWhile Char.isDigit⟩ (body.dropWhile Char.isDigit)

def scanNumeral (s : List Char) : Scan := scanSigned (s.dropWhile isSpace)

namespace Numeral

def magnitude (m : Numeral) : ℕ := Nat.ofDigitChars 10 m.digits 0

def value (m : Numeral) : Int := if m.negative then -m.magnitude else m.magnitude

/-- The `int` that `%d` stores: the value as a `long`, at most the bounds of that type, cut to 32
bits. -/
def toInt32 (m : Numeral) : Int32 := Int32.ofInt (max (-2 ^ 63) (min m.value (2 ^ 63 - 1)))

/-- The `unsigned int` that `%u` stores: the value as an `unsigned long`, where a number out of
range is its greatest one, cut to 32 bits. -/
def toUInt32 (m : Numeral) : UInt32 :=
  if 2 ^ 64 ≤ m.magnitude then UInt32.ofNat (2 ^ 64 - 1)
  else if m.negative then -UInt32.ofNat m.magnitude
  else UInt32.ofNat m.magnitude

end Numeral

variable {m : Numeral}

inductive IsNumeral : List Char → Numeral → Prop
  | plain {ds : List Char} (hne : ds ≠ []) (hds : ∀ c ∈ ds, c.isDigit = true) :
      IsNumeral ds ⟨false, ds⟩
  | plus {ds : List Char} (hne : ds ≠ []) (hds : ∀ c ∈ ds, c.isDigit = true) :
      IsNumeral ('+' :: ds) ⟨false, ds⟩
  | minus {ds : List Char} (hne : ds ≠ []) (hds : ∀ c ∈ ds, c.isDigit = true) :
      IsNumeral ('-' :: ds) ⟨true, ds⟩

def Blank (s : List Char) : Prop := ∀ c ∈ s, isSpace c = true

/-- Behind white space stands `w`, which does not go on in what follows it. -/
def WordAt (s w rest : List Char) : Prop :=
  ∃ gap, Blank gap ∧ IsWord isSpace w ∧ Stops (!isSpace ·) rest ∧ s = gap ++ (w ++ rest)

/-- Behind white space stands the numeral `m`, which does not go on in what follows it. -/
def NumeralAt (s : List Char) (m : Numeral) (rest : List Char) : Prop :=
  ∃ gap w, Blank gap ∧ IsNumeral w m ∧ Stops Char.isDigit rest ∧ s = gap ++ (w ++ rest)

/-- Behind white space stands a sign without digits. -/
def SignAt (s rest : List Char) : Prop :=
  ∃ gap c, Blank gap ∧ (c = '-' ∨ c = '+') ∧ Stops Char.isDigit rest ∧ s = gap ++ c :: rest

/-- Behind white space stands something else than a number or a sign. -/
def StuckAt (s rest : List Char) : Prop :=
  ∃ gap c cs, Blank gap ∧ isSpace c = false ∧ c ≠ '-' ∧ c ≠ '+' ∧ c.isDigit = false ∧
    rest = c :: cs ∧ s = gap ++ rest

/-- `%u` of `printf`. -/
def decimal (n : ℕ) : List Char := Nat.toDigits 10 n

/-- `printf` with a format whose only conversions are `%u`. -/
def printfU : List Char → List ℕ → List Char
  | '%' :: 'u' :: fmt, n :: args => decimal n ++ printfU fmt args
  | c :: fmt, args => c :: printfU fmt args
  | [], _ => []

/-! ## What a conversion finds -/

theorem isDigit_not_isSpace (hc : c.isDigit = true) : isSpace c = false := by
  have hrange := Char.isDigit_iff_toNat.mp hc
  simp only [isSpace, decide_eq_false_iff_not, not_or, not_and, not_le]
  refine ⟨?_, fun _ ↦ lt_of_lt_of_le (by decide) hrange.1⟩
  rintro rfl
  exact absurd hrange.1 (by decide)

theorem isDigit_ne {d : Char} (hc : c.isDigit = true) (hd : d.isDigit = false) : c ≠ d := by
  rintro rfl
  exact absurd hc (by simp [hd])

theorem scanNumeral_gap (hgap : Blank gap) (ht : Stops isSpace t) :
    scanNumeral (gap ++ t) = scanSigned t := by
  rw [scanNumeral, dropWhile_append_stops hgap ht]

theorem scanSigned_digits (hne : ds ≠ []) (hds : ∀ c ∈ ds, c.isDigit = true)
    (hrest : Stops Char.isDigit rest) : scanSigned (ds ++ rest) = .found ⟨false, ds⟩ rest := by
  obtain ⟨c, cs, rfl⟩ := List.exists_cons_of_ne_nil hne
  have hc := hds c List.mem_cons_self
  have hminus : c ≠ '-' := isDigit_ne hc (by decide)
  have hplus : c ≠ '+' := isDigit_ne hc (by decide)
  rw [List.cons_append, scanSigned]
  simp only [hminus, hplus, or_self, if_false, ← List.cons_append]
  rw [takeWhile_append_stops hds hrest, dropWhile_append_stops hds hrest, if_neg hne]
  rfl

theorem scanSigned_sign (hc : c = '-' ∨ c = '+') (hne : ds ≠ [])
    (hds : ∀ d ∈ ds, d.isDigit = true) (hrest : Stops Char.isDigit rest) :
    scanSigned (c :: (ds ++ rest)) = .found ⟨c = '-', ds⟩ rest := by
  rw [scanSigned]
  simp only [if_pos hc]
  rw [takeWhile_append_stops hds hrest, dropWhile_append_stops hds hrest, if_neg hne]

theorem scanNumeral_of_blank (h : Blank s) : scanNumeral s = .eof := by
  rw [scanNumeral, List.dropWhile_eq_nil_iff.mpr h]
  rfl

theorem scanNumeral_of_numeralAt (h : NumeralAt s m rest) : scanNumeral s = .found m rest := by
  obtain ⟨gap, w, hgap, hw, hrest, rfl⟩ := h
  cases hw with
  | plain hne hds =>
      obtain ⟨c, cs, rfl⟩ := List.exists_cons_of_ne_nil hne
      have hstop : Stops isSpace (c :: cs ++ rest) :=
        stops_cons.mpr (isDigit_not_isSpace (hds c List.mem_cons_self))
      rw [scanNumeral_gap hgap hstop, scanSigned_digits hne hds hrest]
  | plus hne hds =>
      rw [List.cons_append, scanNumeral_gap hgap (stops_cons.mpr (by decide)),
        scanSigned_sign (Or.inr rfl) hne hds hrest]
      rfl
  | minus hne hds =>
      rw [List.cons_append, scanNumeral_gap hgap (stops_cons.mpr (by decide)),
        scanSigned_sign (Or.inl rfl) hne hds hrest]
      rfl

theorem scanNumeral_of_signAt (h : SignAt s rest) : scanNumeral s = .mismatch rest := by
  obtain ⟨gap, c, hgap, hc, hrest, rfl⟩ := h
  have hspace : isSpace c = false := by
    rcases hc with rfl | rfl
    · decide
    · decide
  rw [scanNumeral_gap hgap (stops_cons.mpr hspace), scanSigned]
  simp only [if_pos hc]
  rw [hrest.takeWhile_eq, if_pos rfl]

theorem scanNumeral_of_stuckAt (h : StuckAt s rest) : scanNumeral s = .mismatch rest := by
  obtain ⟨gap, c, cs, hgap, hspace, hminus, hplus, hdigit, rfl, rfl⟩ := h
  rw [scanNumeral_gap hgap (stops_cons.mpr hspace), scanSigned]
  simp only [hminus, hplus, or_self, if_false]
  rw [(stops_cons.mpr hdigit).takeWhile_eq, if_pos rfl]

theorem exists_digits (s : List Char) : ∃ ds rest, (∀ c ∈ ds, c.isDigit = true) ∧
    Stops Char.isDigit rest ∧ s = ds ++ rest :=
  ⟨_, _, fun _ hc ↦ List.mem_takeWhile_imp hc, stops_dropWhile Char.isDigit s,
    List.takeWhile_append_dropWhile.symm⟩

theorem isNumeral_sign (hc : c = '-' ∨ c = '+') (hne : ds ≠ [])
    (hds : ∀ d ∈ ds, d.isDigit = true) : ∃ m, IsNumeral (c :: ds) m := by
  rcases hc with rfl | rfl
  · exact ⟨_, .minus hne hds⟩
  · exact ⟨_, .plus hne hds⟩

theorem numeral_cases (s : List Char) :
    Blank s ∨ (∃ m rest, NumeralAt s m rest) ∨ (∃ rest, SignAt s rest) ∨
      ∃ rest, StuckAt s rest := by
  obtain ⟨gap, t, hgap, ht, rfl⟩ : ∃ gap t, Blank gap ∧ Stops isSpace t ∧ s = gap ++ t :=
    ⟨_, _, fun _ hc ↦ List.mem_takeWhile_imp hc, stops_dropWhile isSpace s,
      List.takeWhile_append_dropWhile.symm⟩
  cases t with
  | nil => exact Or.inl (by simpa using hgap)
  | cons c cs =>
      refine Or.inr ?_
      by_cases hsign : c = '-' ∨ c = '+'
      · obtain ⟨ds, rest, hds, hrest, rfl⟩ := exists_digits cs
        by_cases hne : ds = []
        · subst hne
          exact Or.inr (Or.inl ⟨rest, gap, c, hgap, hsign, hrest, rfl⟩)
        · obtain ⟨m, hm⟩ := isNumeral_sign hsign hne hds
          exact Or.inl ⟨m, rest, gap, c :: ds, hgap, hm, hrest, rfl⟩
      · rw [not_or] at hsign
        obtain ⟨ds, rest, hds, hrest, heq⟩ := exists_digits (c :: cs)
        by_cases hne : ds = []
        · subst hne
          obtain rfl : c :: cs = rest := heq
          exact Or.inr (Or.inr ⟨_, gap, c, cs, hgap, stops_cons.mp ht, hsign.1, hsign.2,
            stops_cons.mp hrest, rfl, rfl⟩)
        · exact Or.inl ⟨_, rest, gap, ds, hgap, .plain hne hds, hrest, by rw [heq]⟩

theorem scanNumeral_eq_eof_iff : scanNumeral s = .eof ↔ Blank s := by
  refine ⟨fun h ↦ ?_, scanNumeral_of_blank⟩
  rcases numeral_cases s with hs | ⟨m, rest, hs⟩ | ⟨rest, hs⟩ | ⟨rest, hs⟩
  · exact hs
  · cases (scanNumeral_of_numeralAt hs).symm.trans h
  · cases (scanNumeral_of_signAt hs).symm.trans h
  · cases (scanNumeral_of_stuckAt hs).symm.trans h

theorem scanNumeral_eq_mismatch_iff :
    scanNumeral s = .mismatch rest ↔ SignAt s rest ∨ StuckAt s rest := by
  constructor
  · intro h
    rcases numeral_cases s with hs | ⟨m, rest', hs⟩ | ⟨rest', hs⟩ | ⟨rest', hs⟩
    · cases (scanNumeral_of_blank hs).symm.trans h
    · cases (scanNumeral_of_numeralAt hs).symm.trans h
    · cases (scanNumeral_of_signAt hs).symm.trans h
      exact Or.inl hs
    · cases (scanNumeral_of_stuckAt hs).symm.trans h
      exact Or.inr hs
  · rintro (h | h)
    · exact scanNumeral_of_signAt h
    · exact scanNumeral_of_stuckAt h

theorem scanWord_eq_some_iff : scanWord s = some (w, rest) ↔ WordAt s w rest := nextWord_eq_some_iff

theorem scanWord_eq_none_iff : scanWord s = none ↔ Blank s := nextWord_eq_none_iff

/-- What stands behind what cannot be read cannot be read either. -/
theorem StuckAt.again (h : StuckAt s rest) : StuckAt rest rest := by
  obtain ⟨gap, c, cs, -, hspace, hminus, hplus, hdigit, rfl, -⟩ := h
  exact ⟨[], c, cs, by simp [Blank], hspace, hminus, hplus, hdigit, rfl, rfl⟩

/-! ## What a conversion writes -/

theorem printfU_literal (h : '%' ∉ s) (fmt : List Char) (args : List ℕ) :
    printfU (s ++ fmt) args = s ++ printfU fmt args := by
  induction s with
  | nil => rfl
  | cons c s ih =>
      obtain ⟨hc, hs⟩ := not_or.mp (mt List.mem_cons.mpr h)
      rw [List.cons_append, printfU, ih hs, List.cons_append]
      exact fun _ _ _ _ hpercent _ ↦ hc hpercent.symm

theorem printfU_conversion (fmt : List Char) (n : ℕ) (args : List ℕ) :
    printfU ('%' :: 'u' :: fmt) (n :: args) = decimal n ++ printfU fmt args := rfl

theorem decimal_ne_nil (n : ℕ) : decimal n ≠ [] := Nat.toDigits_ne_nil

theorem isDigit_of_mem_decimal {n : ℕ} {c : Char} (hc : c ∈ decimal n) : c.isDigit = true :=
  Nat.isDigit_of_mem_toDigits (by decide) (by decide) hc

theorem decimal_value (n : ℕ) : Nat.ofDigitChars 10 (decimal n) 0 = n :=
  Nat.ofDigitChars_ten_toDigits

theorem scanNumeral_decimal (n : ℕ) (hrest : Stops Char.isDigit rest) :
    scanNumeral (decimal n ++ rest) = .found ⟨false, decimal n⟩ rest :=
  scanNumeral_of_numeralAt ⟨[], decimal n, by simp [Blank],
    .plain (decimal_ne_nil n) fun _ hc ↦ isDigit_of_mem_decimal hc, hrest, rfl⟩

/-- `%u` reads back what `%u` has written. -/
theorem toUInt32_decimal (n : UInt32) : Numeral.toUInt32 ⟨false, decimal n.toNat⟩ = n := by
  have hvalue : Numeral.magnitude ⟨false, decimal n.toNat⟩ = n.toNat := decimal_value n.toNat
  have hlt := n.toNat_lt
  rw [Numeral.toUInt32, hvalue, if_neg (by omega), if_neg Bool.false_ne_true, UInt32.ofNat_toNat]

end Scanf
