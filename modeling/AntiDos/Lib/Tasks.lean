import AntiDos.Lib.Transducer

/-!
# Computations cut into tasks

A computation that others may interrupt is a list of tasks still to be done. Executing the first one
changes the state, emits events, and may put new tasks in its place. A list of tasks that is left
alone is done after finitely many steps.
-/

namespace Tasks

open Transducer

variable {σ κ ω ε ι : Type*}

structure Running (σ κ : Type*) where
  state : σ
  todo : List κ

/-- Execute task `t` in front of the tasks `ts`. -/
def next (exec : κ → σ → Except ε (σ × List ω × List κ)) (s : σ) (t : κ) (ts : List κ) :
    Except ε (Running σ κ × List ω) :=
  match exec t s with
  | .error e => .error e
  | .ok (s', out, new) => .ok (⟨s', new ++ ts⟩, out)

variable {exec : κ → σ → Except ε (σ × List ω × List κ)}

theorem next_eq_ok_iff {s : σ} {t : κ} {ts : List κ} {r : Running σ κ × List ω} :
    next exec s t ts = .ok r ↔
      ∃ s' out new, exec t s = .ok (s', out, new) ∧ r = (⟨s', new ++ ts⟩, out) := by
  unfold next
  cases exec t s with
  | error e => simp
  | ok p =>
      obtain ⟨s', out, new⟩ := p
      simp [eq_comm]

/-- The tasks lead from `s` to `s'`, with the tasks they bring up, and emit `out`. -/
inductive Completes (exec : κ → σ → Except ε (σ × List ω × List κ)) :
    List κ → σ → σ → List ω → Prop
  | nil (s : σ) : Completes exec [] s s []
  | cons {s s₁ s₂ : σ} {t : κ} {ts new : List κ} {out out' : List ω}
      (hexec : exec t s = .ok (s₁, out, new)) (hrest : Completes exec (new ++ ts) s₁ s₂ out') :
      Completes exec (t :: ts) s s₂ (out ++ out')

variable {s s' s'' : σ} {t : κ} {ts us new : List κ} {out out' : List ω}

theorem Completes.append (h : Completes exec ts s s' out) (h' : Completes exec us s' s'' out') :
    Completes exec (ts ++ us) s s'' (out ++ out') := by
  induction h with
  | nil s => exact h'
  | cons hexec hrest ih =>
      rw [List.cons_append, List.append_assoc]
      refine .cons hexec ?_
      rw [← List.append_assoc]
      exact ih h'

theorem Completes.of_exec (hexec : exec t s = .ok (s', out, new))
    (hnew : Completes exec new s' s'' out') : Completes exec [t] s s'' (out ++ out') :=
  .cons hexec (by rwa [List.append_nil])

theorem Completes.single (hexec : exec t s = .ok (s', out, [])) :
    Completes exec [t] s s' out := by
  simpa using Completes.of_exec hexec (.nil s')

/-- Tasks that are left alone are done after finitely many steps. -/
theorem Completes.run {step : Running σ κ → ι → Except ε (Running σ κ × List ω)} {i : ι}
    (hstep : ∀ s t ts, step ⟨s, t :: ts⟩ i = next exec s t ts)
    (h : Completes exec ts s s' out) :
    ∃ m, Transducer.run step ⟨s, ts⟩ (List.replicate m i) = .ok (⟨s', []⟩, out) := by
  induction h with
  | nil s => exact ⟨0, rfl⟩
  | cons hexec hrest ih =>
      obtain ⟨m, hm⟩ := ih
      refine ⟨m + 1, run_cons_eq_ok_iff.mpr ⟨_, _, _, ?_, hm, rfl⟩⟩
      rw [hstep]
      exact next_eq_ok_iff.mpr ⟨_, _, _, hexec, rfl⟩

end Tasks
