import AntiDos.Lib.Bytes
import AntiDos.Lib.Scanf

/-!
# Addresses in presentation format

`inet_pton` reads a dotted quad of decimal numbers of one to three digits without leading zeros and
stores its octets in their order; `inet_ntop` writes the octets back. A word on a little-endian
machine has the first octet in its low end.
-/

namespace Inet

open Bytes Scanf

/-- One of the four numbers of a dotted quad. -/
structure IsOctet (w : List Char) (b : UInt8) : Prop where
  length_pos : 1 ≤ w.length
  length_le : w.length ≤ 3
  noLeadingZero : 1 < w.length → w.head? ≠ some '0'
  digits : ∀ c ∈ w, c.isDigit = true
  value : Nat.ofDigitChars 10 w 0 = b.toNat

def DottedQuad (s : List Char) (a b c d : UInt8) : Prop :=
  ∃ w₁ w₂ w₃ w₄, IsOctet w₁ a ∧ IsOctet w₂ b ∧ IsOctet w₃ c ∧ IsOctet w₄ d ∧
    s = w₁ ++ '.' :: (w₂ ++ '.' :: (w₃ ++ '.' :: w₄))

def octet (w : List Char) : Option UInt8 :=
  if 1 ≤ w.length ∧ w.length ≤ 3 ∧ (1 < w.length → w.head? ≠ some '0') ∧
      w.all Char.isDigit = true ∧ Nat.ofDigitChars 10 w 0 ≤ 255 then
    some (UInt8.ofNat (Nat.ofDigitChars 10 w 0))
  else none

/-- `inet_pton(AF_INET, s, &x)`: the word stored at `x`, when the result is `1`. -/
def inetPton (s : List Char) : Option UInt32 :=
  match s.splitOn '.' with
  | [w₁, w₂, w₃, w₄] => do
      let a ← octet w₁
      let b ← octet w₂
      let c ← octet w₃
      let d ← octet w₄
      some (le32 a b c d)
  | _ => none

/-- `inet_ntop(AF_INET, &x, ..)`. -/
def inetNtop (x : UInt32) : List Char :=
  decimal (imageByte x 0).toNat ++ '.' :: (decimal (imageByte x 1).toNat ++
    '.' :: (decimal (imageByte x 2).toNat ++ '.' :: decimal (imageByte x 3).toNat))

/-! ## What is read is a dotted quad -/

variable {s w : List Char} {a b c d : UInt8} {x : UInt32}

theorem octet_eq_some_iff : octet w = some b ↔ IsOctet w b := by
  have hb := b.toNat_lt
  unfold octet
  constructor
  · intro h
    split at h
    · rename_i hw
      obtain ⟨hpos, hle, hzero, hdigits, hbound⟩ := hw
      refine ⟨hpos, hle, hzero, List.all_eq_true.mp hdigits, ?_⟩
      rw [← Option.some.inj h, UInt8.toNat_ofNat_of_lt' (Nat.lt_succ_of_le hbound)]
    · cases h
  · rintro ⟨hpos, hle, hzero, hdigits, hvalue⟩
    rw [if_pos ⟨hpos, hle, hzero, List.all_eq_true.mpr hdigits, by omega⟩, hvalue,
      UInt8.ofNat_toNat]

example : octet "010".toList = none := by decide

theorem IsOctet.dot_not_mem (h : IsOctet w b) : ∀ c ∈ w, (c == '.') = false := by
  intro c hc
  rw [beq_eq_false_iff_ne]
  rintro rfl
  exact absurd (h.digits _ hc) (by decide)

theorem DottedQuad.isDigit_or_dot (h : DottedQuad s a b c d) :
    ∀ x ∈ s, x.isDigit = true ∨ x = '.' := by
  obtain ⟨w₁, w₂, w₃, w₄, h₁, h₂, h₃, h₄, rfl⟩ := h
  intro x hx
  simp only [List.mem_append, List.mem_cons] at hx
  rcases hx with hx | rfl | hx | rfl | hx | rfl | hx
  · exact Or.inl (h₁.digits x hx)
  · exact Or.inr rfl
  · exact Or.inl (h₂.digits x hx)
  · exact Or.inr rfl
  · exact Or.inl (h₃.digits x hx)
  · exact Or.inr rfl
  · exact Or.inl (h₄.digits x hx)

theorem DottedQuad.cString_eq (h : DottedQuad s a b c d) : cString s = s := by
  apply Scanf.cString_eq
  intro hnul
  rcases h.isDigit_or_dot _ hnul with hdigit | hdot
  · exact absurd hdigit (by decide)
  · exact absurd hdot (by decide)

theorem DottedQuad.splitOn_eq (h : DottedQuad s a b c d) : ∃ w₁ w₂ w₃ w₄,
    IsOctet w₁ a ∧ IsOctet w₂ b ∧ IsOctet w₃ c ∧ IsOctet w₄ d ∧
      s.splitOn '.' = [w₁, w₂, w₃, w₄] := by
  obtain ⟨w₁, w₂, w₃, w₄, h₁, h₂, h₃, h₄, rfl⟩ := h
  refine ⟨w₁, w₂, w₃, w₄, h₁, h₂, h₃, h₄, ?_⟩
  have hdot : ('.' == '.') = true := rfl
  rw [List.splitOn_eq_splitOnP, List.splitOnP_append_cons_of_forall_mem h₁.dot_not_mem _ hdot,
    List.splitOnP_append_cons_of_forall_mem h₂.dot_not_mem _ hdot,
    List.splitOnP_append_cons_of_forall_mem h₃.dot_not_mem _ hdot,
    List.splitOnP_eq_singleton h₄.dot_not_mem]

theorem inetPton_eq_some_iff :
    inetPton s = some x ↔ ∃ a b c d, DottedQuad s a b c d ∧ x = le32 a b c d := by
  constructor
  · intro h
    unfold inetPton at h
    split at h
    · rename_i w₁ w₂ w₃ w₄ hsplit
      simp only [Option.bind_eq_bind, Option.bind_eq_some_iff, octet_eq_some_iff] at h
      obtain ⟨a, ha, b, hb, c, hc, d, hd, hx⟩ := h
      refine ⟨a, b, c, d, ⟨w₁, w₂, w₃, w₄, ha, hb, hc, hd, ?_⟩, (Option.some.inj hx).symm⟩
      have hjoin : ['.'].intercalate (s.splitOn '.') = s := List.intercalate_splitOn '.'
      rw [← hjoin, hsplit]
      simp [List.intercalate]
    · cases h
  · rintro ⟨a, b, c, d, hquad, rfl⟩
    obtain ⟨w₁, w₂, w₃, w₄, h₁, h₂, h₃, h₄, hsplit⟩ := hquad.splitOn_eq
    rw [inetPton, hsplit]
    simp [octet_eq_some_iff.mpr h₁, octet_eq_some_iff.mpr h₂, octet_eq_some_iff.mpr h₃,
      octet_eq_some_iff.mpr h₄]

/-! ## What is written is a dotted quad -/

theorem isOctet_decimal (b : UInt8) : IsOctet (decimal b.toNat) b where
  length_pos := List.length_pos_iff.mpr (decimal_ne_nil _)
  length_le := (Nat.length_toDigits_le_iff (by decide) (by decide)).mpr
    (Nat.lt_trans b.toNat_lt (by decide))
  noLeadingZero := by
    revert b
    exact forall_byte (by decide +kernel)
  digits := fun _ hc ↦ isDigit_of_mem_decimal hc
  value := decimal_value _

theorem dottedQuad_inetNtop (x : UInt32) : DottedQuad (inetNtop x)
    (imageByte x 0) (imageByte x 1) (imageByte x 2) (imageByte x 3) :=
  ⟨_, _, _, _, isOctet_decimal _, isOctet_decimal _, isOctet_decimal _, isOctet_decimal _, rfl⟩

end Inet
