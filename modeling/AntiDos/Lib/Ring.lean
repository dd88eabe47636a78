import Mathlib.Data.Int.ModEq
import Mathlib.Data.List.Basic
import Mathlib.Data.List.Range
import Mathlib.Logic.Function.Basic

/-!
# Circular buffers

A memory of `n` cells is used over and over: positions grow without end, and position `p` lies in
cell `p % n`. Positions that are less than `n` apart lie in different cells, so what is put behind
the elements still in use does not touch them. Elements may come in blocks of any length, of which
the first is taken away as a whole.
-/

namespace Ring

variable {α : Type*} {n pos len : ℕ} {mem : ℕ → α} {as : List α}

/-- The cells `start, .., start + len - 1`. -/
def cells (mem : ℕ → α) (start len : ℕ) : List α := (List.range' start len).map mem

/-- The elements at the positions `pos, .., pos + len - 1`. -/
def span (n : ℕ) (mem : ℕ → α) (pos len : ℕ) : List α := cells (fun p ↦ mem (p % n)) pos len

/-- Put the elements of a list at the positions from `pos` on. -/
def fill (n : ℕ) : (ℕ → α) → ℕ → List α → ℕ → α
  | mem, _, [] => mem
  | mem, pos, a :: as => fill n (Function.update mem (pos % n) a) (pos + 1) as

/-! ## Cells and spans -/

@[simp] theorem length_cells (mem : ℕ → α) (start len : ℕ) :
    (cells mem start len).length = len := by
  simp [cells]

@[simp] theorem length_span (n : ℕ) (mem : ℕ → α) (pos len : ℕ) :
    (span n mem pos len).length = len := length_cells _ pos len

theorem cells_append (mem : ℕ → α) (start a b : ℕ) :
    cells mem start (a + b) = cells mem start a ++ cells mem (start + a) b := by
  simp [cells, ← List.range'_append_1]

theorem span_append (n : ℕ) (mem : ℕ → α) (pos a b : ℕ) :
    span n mem pos (a + b) = span n mem pos a ++ span n mem (pos + a) b := cells_append _ pos a b

theorem cells_congr {mem' : ℕ → α} {start start' : ℕ}
    (h : ∀ i < len, mem (start + i) = mem' (start' + i)) :
    cells mem start len = cells mem' start' len := by
  apply List.ext_getElem
  · simp
  · intro i hi _
    simpa [cells] using h i (by simpa using hi)

/-- Only the cell of the first position matters. -/
theorem span_congr {p q : ℕ} (h : p % n = q % n) : span n mem p len = span n mem q len := by
  apply cells_congr
  intro i _
  rw [Nat.add_mod, h, ← Nat.add_mod]

/-- A span that does not reach the end of the memory is a run of cells. -/
theorem span_eq_cells (h : pos % n + len ≤ n) : span n mem pos len = cells mem (pos % n) len := by
  apply cells_congr
  intro i hi
  congr 1
  rw [Nat.add_mod, Nat.mod_eq_of_lt (show i < n by omega)]
  exact Nat.mod_eq_of_lt (by omega)

/-- Any other span goes on at the first cell. -/
theorem span_eq_wrap (hn : 0 < n) (h : n ≤ pos % n + len) (hlen : len ≤ n) :
    span n mem pos len =
      cells mem (pos % n) (n - pos % n) ++ cells mem 0 (len - (n - pos % n)) := by
  have hlt : pos % n < n := Nat.mod_lt pos hn
  have hsplit : len = (n - pos % n) + (len - (n - pos % n)) := by omega
  have hstart : (pos + (n - pos % n)) % n = 0 := by
    have hdiv := Nat.div_add_mod pos n
    rw [show pos + (n - pos % n) = n * (pos / n + 1) by rw [Nat.mul_add]; omega]
    exact Nat.mul_mod_right n _
  conv_lhs => rw [hsplit, span_append]
  rw [span_eq_cells (by omega), span_eq_cells (by rw [hstart]; omega), hstart]

/-! ## Filling -/

/-- Positions less than `n` apart lie in different cells. -/
theorem mod_ne {p q : ℕ} (hlt : p < q) (hnear : q < p + n) : p % n ≠ q % n := by
  intro heq
  have hdvd : n ∣ q - p := (Nat.modEq_iff_dvd' hlt.le).mp heq
  exact absurd (Nat.le_of_dvd (by omega) hdvd) (by omega)

/-- A position before the filled ones, and near enough to them, keeps its element. -/
theorem fill_before {p : ℕ} (hlt : p < pos) (hnear : pos + as.length ≤ p + n) :
    fill n mem pos as (p % n) = mem (p % n) := by
  induction as generalizing mem pos with
  | nil => rfl
  | cons a as ih =>
      rw [List.length_cons] at hnear
      have hrest : fill n (Function.update mem (pos % n) a) (pos + 1) as (p % n) =
          Function.update mem (pos % n) a (p % n) := ih (by omega) (by omega)
      exact hrest.trans (Function.update_of_ne (mod_ne hlt (by omega)) _ _)

theorem span_fill (h : as.length ≤ n) : span n (fill n mem pos as) pos as.length = as := by
  induction as generalizing mem pos with
  | nil => rfl
  | cons a as ih =>
      rw [List.length_cons] at h
      rw [List.length_cons, Nat.add_comm, span_append]
      have hhead : fill n (Function.update mem (pos % n) a) (pos + 1) as (pos % n) = a := by
        rw [fill_before (Nat.lt_succ_self pos) (by omega)]
        exact Function.update_self _ _ _
      exact congrArg₂ (· ++ ·) (congrArg (fun b ↦ [b]) hhead) (ih (by omega))

/-! ## Blocks -/

/-- The blocks `bs` lie one after the other from position `pos` on. -/
def Stored (n : ℕ) (mem : ℕ → α) (pos : ℕ) (bs : List (List α)) : Prop :=
  span n mem pos bs.flatten.length = bs.flatten

theorem stored_nil (n : ℕ) (mem : ℕ → α) (pos : ℕ) : Stored n mem pos [] := rfl

variable {b : List α} {bs : List (List α)}

theorem stored_cons : Stored n mem pos (b :: bs) ↔
    span n mem pos b.length = b ∧ Stored n mem (pos + b.length) bs := by
  unfold Stored
  rw [List.flatten_cons, List.length_append, span_append]
  constructor
  · intro h
    exact List.append_inj h (length_span n mem pos b.length)
  · rintro ⟨hhead, hrest⟩
    exact congrArg₂ (· ++ ·) hhead hrest

theorem Stored.drop {cs : List (List α)} (h : Stored n mem pos (bs ++ cs)) :
    Stored n mem (pos + bs.flatten.length) cs := by
  unfold Stored at h ⊢
  rw [List.flatten_append, List.length_append, span_append] at h
  exact (List.append_inj h (length_span n mem pos _)).2

/-- A block is stored behind the others in a memory that holds them as before and the block behind
them. -/
theorem Stored.push {mem' : ℕ → α} (h : Stored n mem pos bs)
    (hkept : span n mem' pos bs.flatten.length = span n mem pos bs.flatten.length)
    (hnew : span n mem' (pos + bs.flatten.length) b.length = b) :
    Stored n mem' pos (bs ++ [b]) := by
  unfold Stored
  rw [List.flatten_append, List.length_append, span_append, List.flatten_singleton, hkept, hnew]
  exact congrArg (· ++ b) h

end Ring
