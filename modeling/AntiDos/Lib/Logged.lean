import AntiDos.Lib.Fault

/-!
# Programs that write a log

An instrumented program does what another program does, and writes down some of its steps. The two
are compared piece by piece: a piece that may fault is followed by pieces for whatever value it has,
and a piece with a known value by the piece for that value.
-/

namespace Logging

open Faulting

variable {ω ε α β : Type}

/-- A computation that may fault and appends to a log. -/
abbrev Logged (ω ε α : Type) : Type := StateT (List ω) (Except ε) α

def tell (e : ω) : Logged ω ε Unit := fun log ↦ .ok ((), log ++ [e])

/-- `x` does what `y` does, and writes `w`. -/
def Does (x : Logged ω ε α) (y : Except ε α) (w : List ω) : Prop :=
  ∀ log, x.run log = y >>= fun a ↦ .ok (a, log ++ w)

variable {x : Logged ω ε α} {y : Except ε α} {f : α → Logged ω ε β} {g : α → Except ε β}
  {z : Except ε β} {a : α} {w w' : List ω}

theorem does_pure (a : α) : Does (pure a : Logged ω ε α) (.ok a) [] := by
  intro log
  simp

theorem does_lift (y : Except ε α) : Does (liftM y : Logged ω ε α) y [] := by
  intro log
  cases y with
  | error e => rfl
  | ok a => simp

theorem does_tell (e : ω) : Does (tell e : Logged ω ε Unit) (.ok ()) [e] := fun _ ↦ rfl

/-- A piece that writes nothing, followed by pieces that all write the same. -/
theorem Does.bind (hx : Does x y []) (hf : ∀ a, Does (f a) (g a) w) :
    Does (x >>= f) (y >>= g) w := by
  intro log
  rw [StateT.run_bind, hx log]
  cases y with
  | error e => rfl
  | ok a => simpa using hf a log

/-- A piece with a known value, followed by the piece for that value. -/
theorem Does.bind_ok (hx : Does x (.ok a) w) (hf : Does (f a) z w') :
    Does (x >>= f) z (w ++ w') := by
  intro log
  rw [StateT.run_bind, hx log, ok_bind, ok_bind, hf (log ++ w), List.append_assoc]

theorem Does.bind_value (hx : Does x (.ok a) []) (hf : Does (f a) z w) :
    Does (x >>= f) z w :=
  hx.bind_ok hf

theorem Does.bind_cons {e : ω} (hx : Does x (.ok a) [e]) (hf : Does (f a) z w) :
    Does (x >>= f) z (e :: w) :=
  hx.bind_ok hf

theorem Does.run_eq (hx : Does x (.ok a) w) : x.run [] = .ok (a, w) := hx []

theorem Does.ite {c : Prop} [Decidable c] {x' : Logged ω ε α} {y' : Except ε α}
    (hpos : Does x y w) (hneg : Does x' y' w) :
    Does (if c then x else x') (if c then y else y') w := by
  split
  · exact hpos
  · exact hneg

end Logging
