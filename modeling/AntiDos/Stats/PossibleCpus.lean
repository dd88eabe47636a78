import AntiDos.Lib.Scanf
import AntiDos.Lib.Fault
import Mathlib.Order.Interval.Finset.Nat

/-!
# The number of possible processors

The kernel lists the processors that there can be as ranges. `libbpf` adds the ranges up; the
programs, which make room for the values of a map on all processors, look at the first range only.
The two agree if and only if the list is one range from zero, and otherwise there is too little
room.
-/

namespace AntiDos

open Faulting Scanf Words

/-! ## The two functions -/

/-- What `sscanf(s, "%u-%u", &start, &end)` finds: nothing (with its result), a number, or two. -/
inductive RangeScan
  | failed (ret : Int)
  | single (start : UInt32)
  | range (start last : UInt32)

/-- The part `-%u` of the format. -/
def scanLast (start : UInt32) : List Char → RangeScan
  | [] => .single start
  | c :: rest =>
      if c = '-' then
        match scanNumeral rest with
        | .found last _ => .range start last.toUInt32
        | _ => .single start
      else .single start

def scanRange (s : List Char) : RangeScan :=
  match scanNumeral s with
  | .eof => .failed (-1)
  | .mismatch _ => .failed 0
  | .found start rest => scanLast start.toUInt32 rest

abbrev cpuBufSize : ℕ := 128

/-- `EINVAL`. -/
abbrev cpuEinval : Int := 22

/-- `EOVERFLOW`. -/
abbrev cpuEoverflow : Int := 75

/-- One turn of the loop of `libbpf_num_possible_cpus` at the end of a part. -/
def addRange (tmpCpus : UInt32) (part : List Char) : Except Int UInt32 :=
  match scanRange part with
  | .failed _ => .error (-cpuEinval)
  | .single start => .ok (tmpCpus + (start - start + 1))
  | .range start last => .ok (tmpCpus + (last - start + 1))

def countCpus (buf : List Char) : Except Int UInt32 :=
  (buf.splitOnP fun c ↦ c = ',' ∨ c = '\x00').foldlM addRange 0

/-- The result, and the value of `cpus`, which keeps it. The file is given by its content or by the
error number of opening or reading it. -/
def libbpfNumPossibleCpus (cpus : Int32) (file : Except ℕ (List Char)) : Int × Int32 :=
  if 0 < cpus then (cpus.toInt, cpus)
  else
    match file with
    | .error errno => (-errno, cpus)
    | .ok content =>
        let buf := content.take cpuBufSize
        if buf.length = 0 then (-cpuEinval, cpus)
        else if buf.length = cpuBufSize then (-cpuEoverflow, cpus)
        else
          match countCpus buf with
          | .error ret => (ret, cpus)
          | .ok tmpCpus =>
              if tmpCpus.toInt32 ≤ 0 then (-cpuEinval, cpus)
              else (tmpCpus.toInt32.toInt, tmpCpus.toInt32)

/-- The program ends, or two variables are read that nothing has been stored in. -/
inductive CpuFault
  | exit
  | unset
deriving DecidableEq

/-- `fgets` with a buffer of `size` bytes. -/
def fgets (size : ℕ) (s : List Char) : List Char :=
  let line := s.take (size - 1)
  line.takeWhile (· ≠ '\n') ++ (line.dropWhile (· ≠ '\n')).take 1

/-- The file is `none` if it cannot be opened. -/
def bpfNumPossibleCpus (file : Option (List Char)) : Except CpuFault UInt32 :=
  match file with
  | none => .error .exit
  | some [] => .ok 0
  | some content =>
      match scanRange (cString (fgets cpuBufSize content)) with
      | .failed ret => .error (if ret = 0 then .exit else .unset)
      | .single start => .ok (if start = 0 then start + 1 else 0)
      | .range start last => .ok (if start = 0 then last + 1 else 0)

/-! ## The list of the kernel -/

/-- The processors from the first to the second number. -/
abbrev CpuRange := ℕ × ℕ

def rangeText (r : CpuRange) : List Char :=
  if r.1 = r.2 then decimal r.1 else decimal r.1 ++ '-' :: decimal r.2

def rangesText : List CpuRange → List Char
  | [] => []
  | [r] => rangeText r
  | r :: rs => rangeText r ++ ',' :: rangesText rs

/-- The content of the file. -/
def cpuList (ranges : List CpuRange) : List Char := rangesText ranges ++ ['\n']

def possibleCpus : List CpuRange → Finset ℕ
  | [] => ∅
  | r :: rs => Finset.Icc r.1 r.2 ∪ possibleCpus rs

/-- Ranges as the kernel lists them, in order and with gaps between them. -/
structure CpusListed (ranges : List CpuRange) : Prop where
  nonempty : ranges ≠ []
  ordered : ∀ r ∈ ranges, r.1 ≤ r.2 ∧ r.2 + 1 < 2 ^ 31
  apart : ranges.Pairwise fun a b ↦ a.2 + 1 < b.1
  short : (cpuList ranges).length < cpuBufSize

section Text

variable {r : CpuRange} {tail : List Char} {ranges : List CpuRange}

theorem mem_rangeText {c : Char} (hc : c ∈ rangeText r) : c.isDigit = true ∨ c = '-' := by
  unfold rangeText at hc
  split_ifs at hc
  · exact Or.inl (isDigit_of_mem_decimal hc)
  · rcases List.mem_append.mp hc with hfirst | hrest
    · exact Or.inl (isDigit_of_mem_decimal hfirst)
    · rcases List.mem_cons.mp hrest with hdash | hlast
      · exact Or.inr hdash
      · exact Or.inl (isDigit_of_mem_decimal hlast)

theorem ne_of_mem_rangeText {c d : Char} (hc : c ∈ rangeText r) (hd : d.isDigit = false)
    (hdash : d ≠ '-') : c ≠ d := by
  rcases mem_rangeText hc with hdigit | rfl
  · exact isDigit_ne hdigit hd
  · exact hdash.symm

/-- No digit and no dash follows. -/
def Ends (tail : List Char) : Prop := Stops (fun c ↦ c.isDigit ∨ c = '-') tail

theorem Ends.digits (h : Ends tail) : Stops Char.isDigit tail := by
  intro c hc
  have hend := h c hc
  simp only [decide_eq_false_iff_not, not_or, Bool.not_eq_true] at hend
  exact hend.1

theorem Ends.scanLast (h : Ends tail) (start : UInt32) :
    scanLast start tail = .single start := by
  cases tail with
  | nil => rfl
  | cons c cs =>
      have hend := h c rfl
      simp only [decide_eq_false_iff_not, not_or] at hend
      rw [AntiDos.scanLast, if_neg hend.2]

theorem toUInt32_of_lt {n : ℕ} (hn : n < 2 ^ 32) :
    Numeral.toUInt32 ⟨false, decimal n⟩ = UInt32.ofNat n := by
  have hnat : (UInt32.ofNat n).toNat = n := UInt32.toNat_ofNat_of_lt' hn
  have hread := toUInt32_decimal (UInt32.ofNat n)
  rwa [hnat] at hread

/-- What is read from a range. -/
theorem scanRange_rangeText (hr : r.1 ≤ r.2 ∧ r.2 + 1 < 2 ^ 31) (htail : Ends tail) :
    r.1 = r.2 ∧ scanRange (rangeText r ++ tail) = .single (UInt32.ofNat r.1) ∨
      scanRange (rangeText r ++ tail) = .range (UInt32.ofNat r.1) (UInt32.ofNat r.2) := by
  have hstart := toUInt32_of_lt (show r.1 < 2 ^ 32 by omega)
  have hlast := toUInt32_of_lt (show r.2 < 2 ^ 32 by omega)
  unfold rangeText scanRange
  split_ifs with heq
  · left
    rw [scanNumeral_decimal r.1 htail.digits]
    dsimp only
    exact ⟨heq, by rw [hstart, htail.scanLast]⟩
  · right
    have hdash : Stops Char.isDigit ('-' :: (decimal r.2 ++ tail)) := stops_cons.mpr rfl
    rw [List.append_assoc, List.cons_append, scanNumeral_decimal r.1 hdash]
    dsimp only
    rw [scanLast, if_pos rfl, scanNumeral_decimal r.2 htail.digits, hstart]
    dsimp only
    rw [hlast]

theorem addRange_rangeText (n : UInt32) (hr : r.1 ≤ r.2 ∧ r.2 + 1 < 2 ^ 31) (htail : Ends tail) :
    addRange n (rangeText r ++ tail) = .ok (n + UInt32.ofNat (r.2 - r.1 + 1)) := by
  unfold addRange
  rcases scanRange_rangeText hr htail with ⟨heq, hscan⟩ | hscan
  · rw [hscan, heq, Nat.sub_self]
    dsimp only
    rw [UInt32.sub_self]
    rfl
  · rw [hscan]
    refine congrArg (fun x ↦ Except.ok (n + x)) (UInt32.toNat_inj.mp ?_)
    rw [UInt32.toNat_add, UInt32.toNat_sub, UInt32.toNat_ofNat', UInt32.toNat_ofNat',
      UInt32.toNat_ofNat', UInt32.toNat_one]
    omega

/-! ## Counting -/

/-- How many processors the ranges have. -/
def cpuTotal : List CpuRange → ℕ
  | [] => 0
  | r :: rs => r.2 - r.1 + 1 + cpuTotal rs

theorem cpuList_cons (r : CpuRange) (ranges : List CpuRange) :
    ∃ tail, Ends tail ∧ cpuList (r :: ranges) = rangeText r ++ tail ∧
      (ranges = [] ∧ tail = ['\n'] ∨ ranges ≠ [] ∧ tail = ',' :: cpuList ranges) := by
  cases ranges with
  | nil => exact ⟨['\n'], stops_cons.mpr (by decide), rfl, Or.inl ⟨rfl, rfl⟩⟩
  | cons r' ranges =>
      refine ⟨',' :: cpuList (r' :: ranges), stops_cons.mpr (by decide), ?_,
        Or.inr ⟨List.cons_ne_nil _ _, rfl⟩⟩
      rw [cpuList, rangesText, List.append_assoc, List.cons_append]
      · rfl
      · exact List.cons_ne_nil _ _

/-- The parts of the list are its ranges, and the new line belongs to the last one. -/
theorem countCpus_cpuList (hranges : ∀ r ∈ ranges, r.1 ≤ r.2 ∧ r.2 + 1 < 2 ^ 31)
    (hne : ranges ≠ []) (n : UInt32) :
    ((cpuList ranges).splitOnP fun c ↦ c = ',' ∨ c = '\x00').foldlM addRange n =
      .ok (n + UInt32.ofNat (cpuTotal ranges)) := by
  induction ranges generalizing n with
  | nil => exact absurd rfl hne
  | cons r ranges ih =>
      obtain ⟨hr, hranges⟩ := List.forall_mem_cons.mp hranges
      have hnot : ∀ c ∈ rangeText r, decide (c = ',' ∨ c = '\x00') = false := by
        intro c hc
        refine decide_eq_false ?_
        rintro (hcomma | hnul)
        · exact ne_of_mem_rangeText hc rfl (by decide) hcomma
        · exact ne_of_mem_rangeText hc rfl (by decide) hnul
      obtain ⟨tail, hends, htext, ⟨rfl, rfl⟩ | ⟨hmore, rfl⟩⟩ := cpuList_cons r ranges
      · have hwhole : ∀ c ∈ rangeText r ++ ['\n'], decide (c = ',' ∨ c = '\x00') = false := by
          intro c hc
          rcases List.mem_append.mp hc with hrange | hend
          · exact hnot c hrange
          · rw [List.mem_singleton.mp hend]
            decide
        rw [htext, List.splitOnP_eq_singleton hwhole, List.foldlM_cons,
          addRange_rangeText n hr hends, ok_bind, List.foldlM_nil, pure_eq_ok]
        rfl
      · rw [htext, List.splitOnP_append_cons_of_forall_mem hnot ',' (by decide), List.foldlM_cons]
        have hfirst : addRange n (rangeText r ++ []) = .ok (n + UInt32.ofNat (r.2 - r.1 + 1)) :=
          addRange_rangeText n hr stops_nil
        rw [List.append_nil] at hfirst
        rw [hfirst, ok_bind, ih hranges hmore, UInt32.add_assoc, ← UInt32.ofNat_add]
        rfl

theorem mem_possibleCpus {c : ℕ} : c ∈ possibleCpus ranges ↔ ∃ r ∈ ranges, r.1 ≤ c ∧ c ≤ r.2 := by
  induction ranges with
  | nil => simp [possibleCpus]
  | cons r ranges ih =>
      rw [possibleCpus, Finset.mem_union, Finset.mem_Icc, ih, List.exists_mem_cons_iff]

theorem card_possibleCpus (hordered : ∀ r ∈ ranges, r.1 ≤ r.2)
    (hapart : ranges.Pairwise fun a b ↦ a.2 + 1 < b.1) :
    (possibleCpus ranges).card = cpuTotal ranges := by
  induction ranges with
  | nil => rfl
  | cons r ranges ih =>
      obtain ⟨hr, hordered⟩ := List.forall_mem_cons.mp hordered
      obtain ⟨hfirst, hapart⟩ := List.pairwise_cons.mp hapart
      have hdisjoint : Disjoint (Finset.Icc r.1 r.2) (possibleCpus ranges) := by
        refine Finset.disjoint_left.mpr fun c hc hother ↦ ?_
        obtain ⟨r', hr', hle, -⟩ := mem_possibleCpus.mp hother
        have hgap := hfirst r' hr'
        have hlast := (Finset.mem_Icc.mp hc).2
        omega
      rw [possibleCpus, Finset.card_union_of_disjoint hdisjoint, Nat.card_Icc, ih hordered hapart,
        cpuTotal]
      omega

theorem cpuTotal_lt (hordered : ∀ r ∈ ranges, r.1 ≤ r.2 ∧ r.2 + 1 < 2 ^ 31)
    (hapart : ranges.Pairwise fun a b ↦ a.2 + 1 < b.1) : cpuTotal ranges < 2 ^ 31 := by
  rw [← card_possibleCpus (fun r hr ↦ (hordered r hr).1) hapart]
  have hsubset : possibleCpus ranges ⊆ Finset.range (2 ^ 31 - 1) := by
    intro c hc
    obtain ⟨r, hr, -, hlast⟩ := mem_possibleCpus.mp hc
    have hbound := (hordered r hr).2
    exact Finset.mem_range.mpr (by omega)
  have hcard := Finset.card_le_card hsubset
  rw [Finset.card_range] at hcard
  omega

/-! ## The two counts -/

theorem ne_of_mem_rangesText (r : CpuRange) (ranges : List CpuRange) :
    ∀ c ∈ rangesText (r :: ranges), c ≠ '\n' ∧ c ≠ '\x00' := by
  have hone : ∀ {r : CpuRange}, ∀ c ∈ rangeText r, c ≠ '\n' ∧ c ≠ '\x00' := fun c hc ↦
    ⟨ne_of_mem_rangeText hc rfl (by decide), ne_of_mem_rangeText hc rfl (by decide)⟩
  induction ranges generalizing r with
  | nil => exact hone
  | cons r' ranges ih =>
      intro c hc
      rw [rangesText] at hc
      · rcases List.mem_append.mp hc with hfirst | hrest
        · exact hone c hfirst
        · rcases List.mem_cons.mp hrest with rfl | hrest
          · exact ⟨by decide, by decide⟩
          · exact ih r' c hrest
      · exact List.cons_ne_nil _ _

/-- A line that fits is read as a whole. -/
theorem fgets_line {line : List Char} {size : ℕ} (hline : '\n' ∉ line)
    (hsize : (line ++ ['\n']).length < size) : fgets size (line ++ ['\n']) = line ++ ['\n'] := by
  have hnot : ∀ c ∈ line, decide (c ≠ '\n') = true := fun c hc ↦
    decide_eq_true fun heq ↦ hline (heq ▸ hc)
  have hstop : Stops (fun c ↦ decide (c ≠ '\n')) ['\n'] := stops_cons.mpr (by decide)
  rw [fgets, List.take_of_length_le (by omega), takeWhile_append_stops hnot hstop,
    dropWhile_append_stops hnot hstop]
  rfl

/-- `libbpf` counts the processors. -/
theorem libbpfNumPossibleCpus_listed {cpus : Int32} (hcpus : ¬0 < cpus) (h : CpusListed ranges) :
    libbpfNumPossibleCpus cpus (.ok (cpuList ranges)) =
      (((possibleCpus ranges).card : Int), Int32.ofNat (possibleCpus ranges).card) := by
  have htotal := cpuTotal_lt h.ordered h.apart
  have hpos : 0 < cpuTotal ranges := by
    obtain ⟨r, rest, rfl⟩ := List.exists_cons_of_ne_nil h.nonempty
    rw [cpuTotal]
    omega
  have hlength : 0 < (cpuList ranges).length := by
    rw [cpuList, List.length_append]
    exact Nat.succ_pos _
  have hcount : countCpus (cpuList ranges) = .ok (UInt32.ofNat (cpuTotal ranges)) := by
    rw [countCpus, countCpus_cpuList h.ordered h.nonempty, UInt32.zero_add]
  have hint : (UInt32.ofNat (cpuTotal ranges)).toInt32 = Int32.ofNat (cpuTotal ranges) := rfl
  have hvalue : (Int32.ofNat (cpuTotal ranges)).toInt = cpuTotal ranges :=
    Int32.toInt_ofNat_of_lt (by omega)
  have hsign : ¬Int32.ofNat (cpuTotal ranges) ≤ 0 := by
    rw [Int32.le_iff_toInt_le, hvalue, Int32.toInt_zero]
    omega
  rw [card_possibleCpus (fun r hr ↦ (h.ordered r hr).1) h.apart, libbpfNumPossibleCpus,
    if_neg hcpus]
  dsimp only
  rw [List.take_of_length_le h.short.le, if_neg hlength.ne', if_neg h.short.ne, hcount]
  dsimp only
  rw [hint, if_neg hsign, hvalue]

/-- The programs count the first range, if it begins with zero. -/
theorem bpfNumPossibleCpus_listed {r : CpuRange} (h : CpusListed (r :: ranges)) :
    bpfNumPossibleCpus (some (cpuList (r :: ranges))) =
      .ok (UInt32.ofNat (if r.1 = 0 then r.2 + 1 else 0)) := by
  have hr := h.ordered r List.mem_cons_self
  have hnot := ne_of_mem_rangesText r ranges
  have hline : fgets cpuBufSize (cpuList (r :: ranges)) = cpuList (r :: ranges) :=
    fgets_line (fun hmem ↦ (hnot _ hmem).1 rfl) h.short
  have hstring : cString (cpuList (r :: ranges)) = cpuList (r :: ranges) := by
    refine cString_eq fun hmem ↦ ?_
    rcases List.mem_append.mp hmem with hmem | hmem
    · exact (hnot _ hmem).2 rfl
    · exact absurd (List.mem_singleton.mp hmem) (by decide)
  obtain ⟨tail, hends, htext, -⟩ := cpuList_cons r ranges
  have hzero : UInt32.ofNat r.1 = 0 ↔ r.1 = 0 := by
    rw [← UInt32.toNat_inj, UInt32.toNat_ofNat_of_lt' (by omega : r.1 < 2 ^ 32), UInt32.toNat_zero]
  unfold bpfNumPossibleCpus
  cases hcontent : cpuList (r :: ranges) with
  | nil => exact absurd hcontent (List.append_ne_nil_of_right_ne_nil _ (List.cons_ne_nil _ _))
  | cons c cs =>
      dsimp only
      rw [← hcontent, hline, hstring, htext]
      rcases scanRange_rangeText hr hends with ⟨heq, hscan⟩ | hscan
      · rw [hscan]
        dsimp only
        simp only [hzero]
        split_ifs with hfirst
        · rw [UInt32.ofNat_add, ← heq]
          rfl
        · rfl
      · rw [hscan]
        dsimp only
        simp only [hzero]
        split_ifs with hfirst
        · rw [UInt32.ofNat_add]
          rfl
        · rfl

/-- The programs never count too many processors, and they count all of them if and only if the
list is one range from zero. With any other list the kernel has more values than they have room
for. -/
theorem possible_cpus {cpus : Int32} (hcpus : ¬0 < cpus) (h : CpusListed ranges) :
    ∃ n, bpfNumPossibleCpus (some (cpuList ranges)) = .ok n ∧
      libbpfNumPossibleCpus cpus (.ok (cpuList ranges)) =
          (((possibleCpus ranges).card : Int), Int32.ofNat (possibleCpus ranges).card) ∧
        n.toNat ≤ (possibleCpus ranges).card ∧
          (n.toNat = (possibleCpus ranges).card ↔ ∃ last, ranges = [(0, last)]) := by
  have hlibbpf := libbpfNumPossibleCpus_listed hcpus h
  have hcard := card_possibleCpus (fun r hr ↦ (h.ordered r hr).1) h.apart
  obtain ⟨r, rest, rfl⟩ := List.exists_cons_of_ne_nil h.nonempty
  refine ⟨_, bpfNumPossibleCpus_listed h, hlibbpf, ?_⟩
  have hr := h.ordered r List.mem_cons_self
  rw [cpuTotal] at hcard
  have hn : (UInt32.ofNat (if r.1 = 0 then r.2 + 1 else 0)).toNat =
      if r.1 = 0 then r.2 + 1 else 0 := by
    refine UInt32.toNat_ofNat_of_lt' ?_
    have hsize : UInt32.size = 2 ^ 32 := rfl
    split_ifs <;> omega
  rw [hn, hcard]
  refine ⟨by split_ifs <;> omega, ⟨fun heq ↦ ?_, ?_⟩⟩
  · have hzero : r.1 = 0 := by
      by_contra hne
      rw [if_neg hne] at heq
      omega
    rw [if_pos hzero] at heq
    have hrest : rest = [] := by
      -- another range would have a processor
      cases rest with
      | nil => rfl
      | cons r' rest =>
          rw [cpuTotal] at heq
          omega
    exact ⟨r.2, by rw [hrest, ← hzero]⟩
  · rintro ⟨last, hsame⟩
    obtain ⟨rfl, rfl⟩ := List.cons.inj hsame
    rfl

/-- A gap in the list is enough. -/
theorem possible_cpus_gap : ∃ n, bpfNumPossibleCpus (some (cpuList [(0, 3), (5, 5)])) = .ok n ∧
    libbpfNumPossibleCpus 0 (.ok (cpuList [(0, 3), (5, 5)])) = (5, 5) ∧ n.toNat < 5 := by
  have hlisted : CpusListed [(0, 3), (5, 5)] := ⟨by decide, by decide, by decide, by decide⟩
  obtain ⟨n, hn, hlibbpf, hle, hall⟩ := possible_cpus (by decide : ¬(0 : Int32) < 0) hlisted
  refine ⟨n, hn, hlibbpf, lt_of_le_of_ne hle fun heq ↦ ?_⟩
  obtain ⟨last, hsingle⟩ := hall.mp heq
  cases hsingle

end Text

end AntiDos
