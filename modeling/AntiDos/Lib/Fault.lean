import Mathlib.Data.Nat.Notation
import Mathlib.Logic.Function.Basic

/-!
# Computations that may fault

A C function whose array accesses are all checked is an `Except` computation: it faults at the
first access outside its array. Collected here are the way a successful `do` block comes apart,
the invariant rules for loops, and arrays whose reads and writes name the index at which they
fault. An array of `n` elements is a function on indices of which only the first `n` can be
reached.
-/

namespace Faulting

variable {ε α β : Type}

@[simp] theorem ok_bind (a : α) (f : α → Except ε β) : ((Except.ok a : Except ε α) >>= f) = f a :=
  rfl

@[simp] theorem error_bind (e : ε) (f : α → Except ε β) :
    ((Except.error e : Except ε α) >>= f) = Except.error e := rfl

@[simp] theorem pure_eq_ok (a : α) : (pure a : Except ε α) = Except.ok a := rfl

/-- A successful `do` block is a successful first step followed by a successful rest. -/
theorem bind_eq_ok_iff {x : Except ε α} {f : α → Except ε β} {b : β} :
    x >>= f = .ok b ↔ ∃ a, x = .ok a ∧ f a = .ok b := by
  cases x with
  | error e => simp
  | ok a => simp

/-! ## Loops -/

section Loops

variable {f : β → α → Except ε β}

/-- What the body of a loop preserves, the loop preserves. -/
theorem foldlM_invariant (I : β → Prop) {xs : List α}
    (hstep : ∀ b, ∀ a ∈ xs, ∀ b', I b → f b a = .ok b' → I b')
    {b b' : β} (hb : I b) (h : xs.foldlM f b = .ok b') : I b' := by
  induction xs generalizing b with
  | nil =>
      have heq : b = b' := by simpa using h
      exact heq ▸ hb
  | cons a xs ih =>
      rw [List.foldlM_cons] at h
      obtain ⟨c, hc, hrest⟩ := bind_eq_ok_iff.mp h
      exact ih (fun d a' ha' ↦ hstep d a' (List.mem_cons_of_mem a ha'))
        (hstep b a List.mem_cons_self c hb hc) hrest

/-- A loop whose body cannot fault under an invariant does not fault. The invariant sees the
elements already processed. -/
theorem foldlM_total (I : List α → β → Prop) {xs : List α}
    (hstep : ∀ pre a post b, xs = pre ++ a :: post → I pre b →
      ∃ b', f b a = .ok b' ∧ I (pre ++ [a]) b')
    {b : β} (hb : I [] b) : ∃ b', xs.foldlM f b = .ok b' ∧ I xs b' := by
  suffices hgen : ∀ pre post b, xs = pre ++ post → I pre b →
      ∃ b', post.foldlM f b = .ok b' ∧ I xs b' from hgen [] xs b rfl hb
  intro pre post
  induction post generalizing pre with
  | nil =>
      intro b hsplit hI
      exact ⟨b, rfl, by simpa [hsplit] using hI⟩
  | cons a post ih =>
      intro b hsplit hI
      obtain ⟨c, hc, hIc⟩ := hstep pre a post b hsplit hI
      obtain ⟨b', hb', hIb'⟩ := ih (pre ++ [a]) c (by simp [hsplit]) hIc
      exact ⟨b', by rw [List.foldlM_cons, hc, ok_bind, hb'], hIb'⟩

/-- The elements a successful loop has processed determine what an invariant says at its end. -/
theorem foldlM_processed (I : List α → β → Prop) {xs : List α}
    (hstep : ∀ pre a post b b', xs = pre ++ a :: post → I pre b → f b a = .ok b' →
      I (pre ++ [a]) b')
    {b b' : β} (hb : I [] b) (h : xs.foldlM f b = .ok b') : I xs b' := by
  suffices hgen : ∀ pre post b, xs = pre ++ post → I pre b → post.foldlM f b = .ok b' → I xs b'
    from hgen [] xs b rfl hb h
  intro pre post
  induction post generalizing pre with
  | nil =>
      intro b hsplit hI hrun
      have heq : b = b' := by simpa using hrun
      simpa [hsplit, heq] using hI
  | cons a post ih =>
      intro b hsplit hI hrun
      rw [List.foldlM_cons] at hrun
      obtain ⟨c, hc, hrest⟩ := bind_eq_ok_iff.mp hrun
      exact ih (pre ++ [a]) c (by simp [hsplit]) (hstep pre a post b c hsplit hI hc) hrest

end Loops

/-! ## Which faults -/

def FaultsIn (E : ε → Prop) (x : Except ε α) : Prop := ∀ e, x = .error e → E e

section FaultsIn

variable {E : ε → Prop}

theorem faultsIn_ok (a : α) : FaultsIn E (.ok a : Except ε α) := fun _ h ↦ by cases h

theorem FaultsIn.bind {x : Except ε α} {f : α → Except ε β} (hx : FaultsIn E x)
    (hf : ∀ a, FaultsIn E (f a)) : FaultsIn E (x >>= f) := by
  cases x with
  | error e => exact fun e' h ↦ hx e' (by simpa using h)
  | ok a => exact hf a

theorem FaultsIn.foldlM {f : β → α → Except ε β} (hf : ∀ b a, FaultsIn E (f b a)) (xs : List α)
    (b : β) : FaultsIn E (xs.foldlM f b) := by
  induction xs generalizing b with
  | nil => exact faultsIn_ok b
  | cons a xs ih =>
      rw [List.foldlM_cons]
      exact (hf b a).bind ih

end FaultsIn

/-! ## Arrays -/

variable {fault : ℕ → ε} {n k : ℕ}

/-- Read element `k` of an array of `n` elements. -/
def read (fault : ℕ → ε) (n : ℕ) (a : ℕ → α) (k : ℕ) : Except ε α :=
  if k < n then .ok (a k) else .error (fault k)

/-- Store `v` at element `k` of an array of `n` elements. -/
def write (fault : ℕ → ε) (n : ℕ) (a : ℕ → α) (k : ℕ) (v : α) : Except ε (ℕ → α) :=
  if k < n then .ok (Function.update a k v) else .error (fault k)

theorem read_of_lt (a : ℕ → α) (h : k < n) : read fault n a k = .ok (a k) := if_pos h

theorem write_of_lt (a : ℕ → α) (v : α) (h : k < n) :
    write fault n a k v = .ok (Function.update a k v) := if_pos h

theorem write_of_le (a : ℕ → α) (v : α) (h : n ≤ k) :
    write fault n a k v = .error (fault k) := if_neg (Nat.not_lt.mpr h)

theorem faultsIn_read {E : ε → Prop} (a : ℕ → α) (hE : ∀ k, E (fault k)) :
    FaultsIn E (read fault n a k) := by
  unfold read
  split
  · exact faultsIn_ok _
  · rintro e h
    cases h
    exact hE k

theorem faultsIn_write {E : ε → Prop} (a : ℕ → α) (v : α) (hE : ∀ k, E (fault k)) :
    FaultsIn E (write fault n a k v) := by
  unfold write
  split
  · exact faultsIn_ok _
  · rintro e h
    cases h
    exact hE k

end Faulting
