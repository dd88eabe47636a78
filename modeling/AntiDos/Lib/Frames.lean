import AntiDos.Lib.Fault
import Mathlib.Data.Int.Notation
import Mathlib.Data.List.Basic

/-!
# Streams of frames

A buffer holds frames one behind the other. A loop goes from frame to frame: it asks whether there
is another one in what remains, works on it, and may end early. On a buffer that holds the frames of
a list the loop does what the same work does on the list.
-/

namespace Frames

open Faulting

variable {ε σ ρ α β : Type}

/-! ## Loops -/

/-- From the frame at `i` on, with `rem` elements of the buffer left; `.inl` is an early end. The
loop is cut off after `fuel` frames. -/
def eachFrame (cutOff : ε) (ok : ℕ → Int → Except ε Bool) (size : ℕ → Except ε ℕ)
    (body : ℕ → σ → Except ε (ρ ⊕ σ)) : ℕ → ℕ → Int → σ → Except ε (ρ ⊕ σ)
  | 0, _, _, _ => .error cutOff
  | fuel + 1, i, rem, s => do
      let more ← ok i rem
      if more then
        match ← body i s with
        | .inl r => .ok (.inl r)
        | .inr s => do
            let n ← size i
            eachFrame cutOff ok size body fuel (i + n) (rem - n) s
      else .ok (.inr s)

/-- The same on the elements of a list. -/
def eachOf (body : α → σ → Except ε (ρ ⊕ σ)) : List α → σ → Except ε (ρ ⊕ σ)
  | [], s => .ok (.inr s)
  | x :: xs, s => do
      match ← body x s with
      | .inl r => .ok (.inl r)
      | .inr s => eachOf body xs s

theorem eachOf_cons {body : α → σ → Except ε (ρ ⊕ σ)} (x : α) (xs : List α) (s : σ) :
    eachOf body (x :: xs) s = body x s >>= fun
      | .inl r => .ok (.inl r)
      | .inr s => eachOf body xs s := rfl

theorem eachOf_append {body : α → σ → Except ε (ρ ⊕ σ)} (xs ys : List α) (s : σ) :
    eachOf body (xs ++ ys) s = eachOf body xs s >>= fun
      | .inl r => .ok (.inl r)
      | .inr s => eachOf body ys s := by
  induction xs generalizing s with
  | nil => rfl
  | cons x xs ih =>
      rw [List.cons_append, eachOf_cons, eachOf_cons]
      cases body x s with
      | error e => rfl
      | ok r =>
          cases r with
          | inl r => rfl
          | inr s => exact ih s

/-- A loop over any bytes at all: under an invariant that lets every step go through, and with every
step getting ahead, it comes to its end, early or not. -/
theorem eachFrame_safe (cutOff : ε) {ok : ℕ → Int → Except ε Bool} {size : ℕ → Except ε ℕ}
    {body : ℕ → σ → Except ε (ρ ⊕ σ)} (I : ℕ → Int → σ → Prop) (Q : ρ → Prop)
    (hok : ∀ i rem s, I i rem s → ok i rem = .ok false ∨ ok i rem = .ok true ∧
      ((∃ r, body i s = .ok (.inl r) ∧ Q r) ∨
        ∃ s' n, body i s = .ok (.inr s') ∧ size i = .ok n ∧ 0 < n ∧ 0 < rem ∧
          I (i + n) (rem - n) s'))
    {fuel i : ℕ} {rem : Int} {s : σ} (hfuel : rem.toNat < fuel) (hI : I i rem s) :
    (∃ r, eachFrame cutOff ok size body fuel i rem s = .ok (.inl r) ∧ Q r) ∨
      ∃ i' rem' s', eachFrame cutOff ok size body fuel i rem s = .ok (.inr s') ∧
        I i' rem' s' := by
  induction fuel generalizing i rem s with
  | zero => exact absurd hfuel (Nat.not_lt_zero _)
  | succ fuel ih =>
      rw [eachFrame]
      rcases hok i rem s hI with hend |
        ⟨hmore, ⟨r, hbody, hr⟩ | ⟨s', n, hbody, hsize, hn, hrem, hI'⟩⟩
      · refine Or.inr ⟨i, rem, s, ?_, hI⟩
        rw [hend]
        rfl
      · refine Or.inl ⟨r, ?_, hr⟩
        rw [hmore, ok_bind, if_pos rfl, hbody]
        rfl
      · rw [hmore, ok_bind, if_pos rfl, hbody, ok_bind]
        dsimp only
        rw [hsize, ok_bind]
        exact ih (by omega) hI'

/-! ## The frames of a list -/

/-- The frame of `x`, whose elements are `image x`, is read where it lies, with up to `bound`
elements left. -/
structure Reads (f : List β) (image : α → List β) (ok : ℕ → Int → Except ε Bool)
    (size : ℕ → Except ε ℕ) (bound : ℕ) (x : α) : Prop where
  ok : ∀ i post (rem : Int), f.drop i = image x ++ post → ((image x).length : Int) ≤ rem →
    rem ≤ bound → ok i rem = .ok true
  size : ∀ i post, f.drop i = image x ++ post → size i = .ok (image x).length

variable {f : List β} {image : α → List β} {cutOff : ε} {ok : ℕ → Int → Except ε Bool}
  {size : ℕ → Except ε ℕ} {body : ℕ → σ → Except ε (ρ ⊕ σ)} {xs : List α} {post : List β}
  {bound i fuel : ℕ} {s : σ}

theorem drop_frame {x : α} (h : f.drop i = (x :: xs).flatMap image ++ post) :
    f.drop i = image x ++ (xs.flatMap image ++ post) ∧
      f.drop (i + (image x).length) = xs.flatMap image ++ post := by
  rw [List.flatMap_cons, List.append_assoc] at h
  refine ⟨h, ?_⟩
  rw [← List.drop_drop, h]
  exact List.drop_left

/-- The loop over a buffer that holds the frames of `xs`, and these only, is the loop over `xs`. -/
theorem eachFrame_eq {bodyOf : α → σ → Except ε (ρ ⊕ σ)}
    (hreads : ∀ x ∈ xs, Reads f image ok size bound x) (hend : ∀ i, ok i 0 = .ok false)
    (hbody : ∀ x ∈ xs, ∀ i post s, f.drop i = image x ++ post → body i s = bodyOf x s)
    (h : f.drop i = xs.flatMap image ++ post) (hbound : (xs.flatMap image).length ≤ bound)
    (hfuel : xs.length < fuel) :
    eachFrame cutOff ok size body fuel i ((xs.flatMap image).length : Int) s =
      eachOf bodyOf xs s := by
  induction xs generalizing i fuel s with
  | nil =>
      obtain ⟨fuel, rfl⟩ := Nat.exists_eq_succ_of_ne_zero (Nat.ne_of_gt hfuel)
      rw [eachFrame]
      simp only [List.flatMap_nil, List.length_nil, Int.natCast_zero, hend]
      rfl
  | cons x xs ih =>
      obtain ⟨fuel, rfl⟩ := Nat.exists_eq_succ_of_ne_zero (Nat.ne_of_gt (Nat.zero_lt_of_lt hfuel))
      obtain ⟨hhere, hnext⟩ := drop_frame h
      obtain ⟨hx, hrest⟩ := List.forall_mem_cons.mp hreads
      obtain ⟨hbodyx, hbodies⟩ := List.forall_mem_cons.mp hbody
      have hlen : (((x :: xs).flatMap image).length : Int) =
          (image x).length + (xs.flatMap image).length := by simp
      have hleft : (((x :: xs).flatMap image).length : Int) - (image x).length =
          (xs.flatMap image).length := by omega
      rw [eachFrame, hx.ok i _ _ hhere (by omega) (by omega), ok_bind, if_pos rfl,
        hbodyx i _ s hhere, eachOf_cons]
      cases bodyOf x s with
      | error e => rfl
      | ok r =>
          cases r with
          | inl r => rfl
          | inr s =>
              have htail := ih (s := s) hrest hbodies hnext (by omega)
                (Nat.lt_of_succ_lt_succ hfuel)
              rw [ok_bind, ok_bind]
              dsimp only
              rw [hx.size i _ hhere, ok_bind, hleft, htail]

/-- A loop that does not end early, with an invariant that sees the frames already processed. -/
theorem eachFrame_processed (I : List α → σ → Prop)
    (hreads : ∀ x ∈ xs, Reads f image ok size bound x) (hend : ∀ i, ok i 0 = .ok false)
    (hbody : ∀ pre x rest, xs = pre ++ x :: rest → ∀ i post s, f.drop i = image x ++ post →
      I pre s → ∃ s', body i s = .ok (.inr s') ∧ I (pre ++ [x]) s')
    (h : f.drop i = xs.flatMap image ++ post) (hbound : (xs.flatMap image).length ≤ bound)
    (hfuel : xs.length < fuel) (hs : I [] s) :
    ∃ s', eachFrame cutOff ok size body fuel i ((xs.flatMap image).length : Int) s =
      .ok (.inr s') ∧ I xs s' := by
  suffices hgen : ∀ pre rest i fuel s, xs = pre ++ rest → f.drop i = rest.flatMap image ++ post →
      (rest.flatMap image).length ≤ bound → rest.length < fuel → I pre s →
        ∃ s', eachFrame cutOff ok size body fuel i ((rest.flatMap image).length : Int) s =
          .ok (.inr s') ∧ I xs s' from hgen [] xs i fuel s rfl h hbound hfuel hs
  intro pre rest
  induction rest generalizing pre with
  | nil =>
      intro i fuel s hsplit _ _ hfuel hI
      obtain ⟨fuel, rfl⟩ := Nat.exists_eq_succ_of_ne_zero (Nat.ne_of_gt hfuel)
      refine ⟨s, ?_, by rwa [hsplit, List.append_nil]⟩
      rw [eachFrame]
      simp only [List.flatMap_nil, List.length_nil, Int.natCast_zero, hend]
      rfl
  | cons x rest ih =>
      intro i fuel s hsplit h hbound hfuel hI
      obtain ⟨fuel, rfl⟩ := Nat.exists_eq_succ_of_ne_zero (Nat.ne_of_gt (Nat.zero_lt_of_lt hfuel))
      obtain ⟨hhere, hnext⟩ := drop_frame h
      have hx := hreads x (by rw [hsplit]; simp)
      have hlen : (((x :: rest).flatMap image).length : Int) =
          (image x).length + (rest.flatMap image).length := by simp
      have hleft : (((x :: rest).flatMap image).length : Int) - (image x).length =
          (rest.flatMap image).length := by omega
      obtain ⟨s₁, hone, hI₁⟩ := hbody pre x rest hsplit i _ s hhere hI
      obtain ⟨s', hrun, hI'⟩ := ih (pre ++ [x]) (i + (image x).length) fuel s₁ (by simp [hsplit])
        hnext (by omega) (Nat.lt_of_succ_lt_succ hfuel) hI₁
      refine ⟨s', ?_, hI'⟩
      rw [eachFrame, hx.ok i _ _ hhere (by omega) (by omega), ok_bind, if_pos rfl, hone, ok_bind]
      dsimp only
      rw [hx.size i _ hhere, ok_bind, hleft, hrun]

end Frames
