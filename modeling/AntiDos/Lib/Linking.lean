import Mathlib.Data.Nat.Notation
import Mathlib.Data.Sum.Basic

/-!
# Programs at other addresses

A program is given by the effect of the instruction at each address. When every effect at an address
is the effect at the place the address is moved to, with its targets moved in the same way, a run of
the program is a run of the moved one.
-/

namespace Linking

variable {P Q σ : Type}

/-- What an instruction does to the state, and where the program goes on. -/
inductive Effect (P σ : Type)
  | goto (target : P) (s : σ)
  | call (target back : P) (s : σ)
  | ret (s : σ)

/-- Where a program stands, and where the functions that have not returned were called. -/
structure Config (P σ : Type) where
  pc : P
  stack : List P
  state : σ

namespace Effect

def move (place : P → Q) : Effect P σ → Effect Q σ
  | goto target s => goto (place target) s
  | call target back s => call (place target) (place back) s
  | ret s => ret s

/-- The addresses that the effect lets the program go on at. -/
def Within (live : P → Prop) : Effect P σ → Prop
  | goto target _ => live target
  | call target back _ => live target ∧ live back
  | ret _ => True

/-- The program goes on, or it has returned from its first function. -/
def next : Effect P σ → List P → σ ⊕ Config P σ
  | goto target s, stack => .inr ⟨target, stack, s⟩
  | call target back s, stack => .inr ⟨target, back :: stack, s⟩
  | ret s, [] => .inl s
  | ret s, back :: stack => .inr ⟨back, stack, s⟩

end Effect

def Config.move (place : P → Q) (c : Config P σ) : Config Q σ :=
  ⟨place c.pc, c.stack.map place, c.state⟩

/-- The result of at most `fuel` instructions, if none of them goes wrong. -/
def exec (effect : P → σ → Option (Effect P σ)) : ℕ → Config P σ → Option (σ ⊕ Config P σ)
  | 0, c => some (.inr c)
  | fuel + 1, c => do
      let e ← effect c.pc c.state
      match e.next c.stack with
      | .inl s => some (.inl s)
      | .inr c => exec effect fuel c

variable {effect : P → σ → Option (Effect P σ)} {moved : Q → σ → Option (Effect Q σ)}
  {place : P → Q} {live : P → Prop}

theorem Effect.next_move (e : Effect P σ) (stack : List P) :
    (e.move place).next (stack.map place) = (e.next stack).map id (Config.move place) := by
  cases e with
  | goto target s => rfl
  | call target back s => rfl
  | ret s =>
      cases stack with
      | nil => rfl
      | cons back stack => rfl

/-- A run that does not go wrong is the run of the moved program, as long as the addresses it comes
to are among those whose instructions have been moved. -/
theorem exec_move
    (hmoved : ∀ p, live p → ∀ s e, effect p s = some e →
      moved (place p) s = some (e.move place) ∧ e.Within live)
    {fuel : ℕ} {c : Config P σ} {r : σ ⊕ Config P σ} (hpc : live c.pc)
    (hstack : ∀ p ∈ c.stack, live p) (hrun : exec effect fuel c = some r) :
    exec moved fuel (c.move place) = some (r.map id (Config.move place)) := by
  induction fuel generalizing c with
  | zero =>
      obtain rfl := Option.some.inj hrun
      rfl
  | succ fuel ih =>
      obtain ⟨e, he, hnext⟩ := Option.bind_eq_some_iff.mp hrun
      obtain ⟨hstep, hwithin⟩ := hmoved c.pc hpc c.state e he
      have hgo : exec moved (fuel + 1) (c.move place) =
          match (e.next c.stack).map id (Config.move place) with
          | .inl s => some (.inl s)
          | .inr c => exec moved fuel c := by
        rw [← Effect.next_move]
        exact congrArg (Option.bind · _) hstep
      rw [hgo]
      cases e with
      | goto target s => exact ih hwithin hstack hnext
      | call target back s =>
          exact ih hwithin.1 (List.forall_mem_cons.mpr ⟨hwithin.2, hstack⟩) hnext
      | ret s =>
          obtain ⟨pc, stack, state⟩ := c
          cases stack with
          | nil =>
              obtain rfl := Option.some.inj hnext
              rfl
          | cons back stack =>
              obtain ⟨hback, hrest⟩ := List.forall_mem_cons.mp hstack
              exact ih hback hrest hnext

end Linking
