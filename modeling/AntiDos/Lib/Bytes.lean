import AntiDos.Lib.Fault
import Mathlib.Algebra.Group.Nat.Defs
import Mathlib.Data.List.GetD
import Mathlib.Data.Nat.Notation

/-!
# Bytes of a buffer

A buffer is a list of bytes. A program on a little-endian machine loads the first byte of a word
into its low end, so a load of a number in network byte order yields the swapped number. Loads fault
outside the buffer.
-/

namespace Bytes

/-- The word whose memory image is `a b`. -/
def le16 (a b : UInt8) : UInt16 := UInt16.ofNat (a.toNat + 256 * b.toNat)

/-- The word whose memory image is `a b c d`. -/
def le32 (a b c d : UInt8) : UInt32 :=
  UInt32.ofNat (a.toNat + 256 * b.toNat + 65536 * c.toNat + 16777216 * d.toNat)

/-- The number that `a b` stands for in network byte order. -/
def be16 (a b : UInt8) : ℕ := 256 * a.toNat + b.toNat

def bswap16 (x : UInt16) : UInt16 := UInt16.ofNat (256 * (x.toNat % 256) + x.toNat / 256)

theorem le16_toNat (a b : UInt8) : (le16 a b).toNat = a.toNat + 256 * b.toNat := by
  have ha := a.toNat_lt
  have hb := b.toNat_lt
  exact UInt16.toNat_ofNat_of_lt' (by change _ < 65536; omega)

theorem bswap16_toNat (x : UInt16) :
    (bswap16 x).toNat = 256 * (x.toNat % 256) + x.toNat / 256 := by
  have hx := x.toNat_lt
  exact UInt16.toNat_ofNat_of_lt' (by change _ < 65536; omega)

theorem bswap16_le16 (a b : UInt8) : (bswap16 (le16 a b)).toNat = be16 a b := by
  have ha := a.toNat_lt
  rw [bswap16_toNat, le16_toNat, be16]
  omega

theorem le16_and_eq_zero_iff (a b m n : UInt8) :
    le16 a b &&& le16 m n = 0 ↔ a &&& m = 0 ∧ b &&& n = 0 := by
  have ha := a.toNat_lt
  have hm := m.toNat_lt
  have hlow : (le16 a b &&& le16 m n).toNat % 2 ^ 8 = (a &&& m).toNat := by
    rw [UInt16.toNat_and, Nat.and_mod_two_pow, le16_toNat, le16_toNat, UInt8.toNat_and]
    congr 1 <;> omega
  have hhigh : (le16 a b &&& le16 m n).toNat / 2 ^ 8 = (b &&& n).toNat := by
    rw [UInt16.toNat_and, Nat.and_div_two_pow, le16_toNat, le16_toNat, UInt8.toNat_and]
    congr 1 <;> omega
  rw [← UInt16.toNat_inj, ← UInt8.toNat_inj, ← UInt8.toNat_inj, ← hlow, ← hhigh]
  change _ = 0 ↔ _ = 0 ∧ _ = 0
  omega

theorem le32_toNat (a b c d : UInt8) :
    (le32 a b c d).toNat = a.toNat + 256 * b.toNat + 65536 * c.toNat + 16777216 * d.toNat := by
  have ha := a.toNat_lt
  have hb := b.toNat_lt
  have hc := c.toNat_lt
  have hd := d.toNat_lt
  exact UInt32.toNat_ofNat_of_lt' (by change _ < 4294967296; omega)

theorem le32_inj {a b c d a' b' c' d' : UInt8} :
    le32 a b c d = le32 a' b' c' d' ↔ a = a' ∧ b = b' ∧ c = c' ∧ d = d' := by
  have ha := a.toNat_lt
  have hb := b.toNat_lt
  have hc := c.toNat_lt
  have hd := d.toNat_lt
  have ha' := a'.toNat_lt
  have hb' := b'.toNat_lt
  have hc' := c'.toNat_lt
  have hd' := d'.toNat_lt
  rw [← UInt32.toNat_inj, le32_toNat, le32_toNat, ← UInt8.toNat_inj, ← UInt8.toNat_inj,
    ← UInt8.toNat_inj, ← UInt8.toNat_inj]
  omega

/-- Byte `i` of the memory image of a word. -/
def imageByte (x : UInt32) (i : ℕ) : UInt8 := UInt8.ofNat (x.toNat / 256 ^ i)

theorem le32_imageByte (x : UInt32) :
    le32 (imageByte x 0) (imageByte x 1) (imageByte x 2) (imageByte x 3) = x := by
  have hx := x.toNat_lt
  rw [← UInt32.toNat_inj, le32_toNat]
  simp only [imageByte, UInt8.toNat_ofNat', Nat.reducePow]
  omega

/-- The memory image of a word of two bytes. -/
def image16 (x : UInt16) : List UInt8 := [UInt8.ofNat x.toNat, UInt8.ofNat (x.toNat / 256)]

/-- The memory image of a word of four bytes. -/
def image32 (x : UInt32) : List UInt8 :=
  [imageByte x 0, imageByte x 1, imageByte x 2, imageByte x 3]

@[simp] theorem length_image16 (x : UInt16) : (image16 x).length = 2 := rfl

@[simp] theorem length_image32 (x : UInt32) : (image32 x).length = 4 := rfl

theorem forall_byte {p : UInt8 → Prop} (h : ∀ n : Fin 256, p (UInt8.ofFin n)) (b : UInt8) :
    p b := by
  simpa using h b.toFin

/-- The low two bits cleared. -/
theorem toNat_and_not_three (x : UInt32) : (x &&& ~~~3).toNat = x.toNat / 4 * 4 := by
  have hx := x.toNat_lt
  have hmask : (~~~(3 : UInt32)).toNat = 4294967292 := by decide
  have hhigh : (x &&& ~~~3).toNat / 2 ^ 2 = x.toNat / 4 := by
    rw [UInt32.toNat_and, hmask, Nat.and_div_two_pow]
    exact (Nat.and_two_pow_sub_one_eq_mod _ 30).trans (Nat.mod_eq_of_lt (by omega))
  have hlow : (x &&& ~~~3).toNat % 2 ^ 2 = 0 := by
    rw [UInt32.toNat_and, hmask, Nat.and_mod_two_pow]
    exact Nat.and_zero _
  omega

/-! ## Loads -/

variable {ε : Type} (fault : ℕ → ε) (f : List UInt8) (i : ℕ)

/-- Byte `i`, or `0` past the end. -/
def byte : UInt8 := f.getD i 0

variable {f} in
theorem byte_append_left {i : ℕ} (h : i < f.length) (g : List UInt8) :
    byte (f ++ g) i = byte f i := List.getD_append f g 0 i h

theorem byte_append_right (g : List UInt8) (i : ℕ) : byte (f ++ g) (f.length + i) = byte g i := by
  rw [byte, List.getD_append_right f g 0 _ (Nat.le_add_right _ _), Nat.add_sub_cancel_left, byte]

variable {f} in
theorem byte_take {n i : ℕ} (h : i < n) : byte (f.take n) i = byte f i := by
  simp [byte, List.getD_eq_getElem?_getD, h]

def load8 : Except ε UInt8 := if i < f.length then .ok (byte f i) else .error (fault i)

def load16 : Except ε UInt16 := do
  let a ← load8 fault f i
  let b ← load8 fault f (i + 1)
  .ok (le16 a b)

def load32 : Except ε UInt32 := do
  let a ← load8 fault f i
  let b ← load8 fault f (i + 1)
  let c ← load8 fault f (i + 2)
  let d ← load8 fault f (i + 3)
  .ok (le32 a b c d)

/-- Store `bs` from byte `i` on. -/
def store (bs : List UInt8) : Except ε (List UInt8) :=
  if i + bs.length ≤ f.length then .ok (f.take i ++ (bs ++ f.drop (i + bs.length)))
  else .error (fault i)

variable {fault f i}

theorem load8_of_lt (h : i + 1 ≤ f.length) : load8 fault f i = .ok (byte f i) := if_pos h

theorem load16_of_le (h : i + 2 ≤ f.length) :
    load16 fault f i = .ok (le16 (byte f i) (byte f (i + 1))) := by
  rw [load16, load8_of_lt (by omega), load8_of_lt (by omega)]
  rfl

theorem load32_of_le (h : i + 4 ≤ f.length) :
    load32 fault f i =
      .ok (le32 (byte f i) (byte f (i + 1)) (byte f (i + 2)) (byte f (i + 3))) := by
  rw [load32, load8_of_lt (by omega), load8_of_lt (by omega), load8_of_lt (by omega),
    load8_of_lt (by omega)]
  rfl

/-! ## Loads from a memory image -/

/-- What follows a part of the buffer that has been found. -/
theorem drop_of_append {as post : List UInt8} {n : ℕ} (h : f.drop i = as ++ post)
    (hn : as.length = n) : f.drop (i + n) = post := by
  rw [← List.drop_drop, h, ← hn]
  exact List.drop_left

theorem byte_of_drop {as : List UInt8} (h : f.drop i = as) (j : ℕ) :
    byte f (i + j) = byte as j := by
  simp [byte, List.getD_eq_getElem?_getD, ← h]

theorem length_of_drop {as : List UInt8} (h : f.drop i = as) (hne : as ≠ []) :
    i + as.length = f.length := by
  have hlen := congrArg List.length h
  have hpos := List.length_pos_iff.mpr hne
  rw [List.length_drop] at hlen
  omega

theorem load8_of_drop {b : UInt8} {post : List UInt8} (h : f.drop i = b :: post) :
    load8 fault f i = .ok b := by
  have hlen := length_of_drop h (List.cons_ne_nil _ _)
  rw [List.length_cons] at hlen
  refine (load8_of_lt (by omega)).trans (congrArg Except.ok ?_)
  rw [show byte f i = byte f (i + 0) from rfl, byte_of_drop h]
  rfl

theorem load16_of_drop {x : UInt16} {post : List UInt8} (h : f.drop i = image16 x ++ post) :
    load16 fault f i = .ok x := by
  have hlen : i + 2 ≤ f.length := by
    have := length_of_drop h (by simp [image16])
    simp only [List.length_append, length_image16] at this
    omega
  have hx := x.toNat_lt
  refine (load16_of_le hlen).trans (congrArg Except.ok ?_)
  rw [show byte f i = byte f (i + 0) from rfl, byte_of_drop h, byte_of_drop h]
  apply UInt16.toNat_inj.mp
  simp only [le16_toNat, byte, image16, List.cons_append, List.getD_cons_zero, List.getD_cons_succ,
    UInt8.toNat_ofNat', Nat.reducePow]
  omega

theorem load32_of_drop {x : UInt32} {post : List UInt8} (h : f.drop i = image32 x ++ post) :
    load32 fault f i = .ok x := by
  have hlen : i + 4 ≤ f.length := by
    have := length_of_drop h (by simp [image32])
    simp only [List.length_append, length_image32] at this
    omega
  refine (load32_of_le hlen).trans (congrArg Except.ok ?_)
  rw [show byte f i = byte f (i + 0) from rfl, byte_of_drop h, byte_of_drop h, byte_of_drop h,
    byte_of_drop h]
  exact le32_imageByte x

end Bytes
