import Mathlib.Data.List.Basic

/-!
# Runs of a transducer that may fault

A step reads one input; it either faults or yields the next state and the events it emitted. A run
feeds a list of inputs and collects the events. An abstract state that is updated by the emitted
events alone is followed through a whole run by `run_simulates`, and properties of the events of a
run are then properties of a list of events and of the abstract states between them. -/

namespace Transducer

variable {σ ι ω ε τ : Type*}

/-! ## Runs -/

/-- Feed the inputs one by one, collecting the events; the first fault ends the run. -/
def run (step : σ → ι → Except ε (σ × List ω)) : σ → List ι → Except ε (σ × List ω)
  | s, [] => .ok (s, [])
  | s, i :: is =>
      match step s i with
      | .error e => .error e
      | .ok (s', es) =>
          match run step s' is with
          | .error e => .error e
          | .ok (t, fs) => .ok (t, es ++ fs)

/-- `P` holds of the state and the input at every step the run reaches. -/
def Along (step : σ → ι → Except ε (σ × List ω)) (P : σ → ι → Prop) : σ → List ι → Prop
  | _, [] => True
  | s, i :: is => P s i ∧ ∀ s' es, step s i = .ok (s', es) → Along step P s' is

variable {step : σ → ι → Except ε (σ × List ω)} {P Q : σ → ι → Prop} {I : σ → Prop}

@[simp] theorem run_nil (s : σ) : run step s [] = .ok (s, []) := rfl

theorem run_cons_of_ok {s s' : σ} {i : ι} {es : List ω} (h : step s i = .ok (s', es))
    (is : List ι) :
    run step s (i :: is) =
      match run step s' is with
      | .error e => .error e
      | .ok (t, fs) => .ok (t, es ++ fs) := by
  simp [run, h]

theorem run_cons_of_error {s : σ} {i : ι} {e : ε} (h : step s i = .error e) (is : List ι) :
    run step s (i :: is) = .error e := by
  simp [run, h]

theorem run_cons_eq_ok_iff {s t : σ} {i : ι} {is : List ι} {log : List ω} :
    run step s (i :: is) = .ok (t, log) ↔
      ∃ s' es fs, step s i = .ok (s', es) ∧ run step s' is = .ok (t, fs) ∧ log = es ++ fs := by
  cases hs : step s i with
  | error e => simp [run_cons_of_error hs]
  | ok p =>
      obtain ⟨s', es⟩ := p
      rw [run_cons_of_ok hs]
      cases hr : run step s' is with
      | error e => simp [hr]
      | ok q =>
          obtain ⟨t', fs⟩ := q
          simp [hr, eq_comm]

/-- A run of two parts is a run of the first and a run of the second from where that ended. -/
theorem run_append {s u t : σ} {is js : List ι} {es fs : List ω} (h : run step s is = .ok (u, es))
    (h' : run step u js = .ok (t, fs)) : run step s (is ++ js) = .ok (t, es ++ fs) := by
  induction is generalizing s es with
  | nil =>
      obtain ⟨rfl, rfl⟩ : s = u ∧ [] = es := by simpa using h
      exact h'
  | cons i is ih =>
      obtain ⟨s', es₁, es₂, hstep, hrest, rfl⟩ := run_cons_eq_ok_iff.mp h
      rw [List.append_assoc]
      exact run_cons_eq_ok_iff.mpr ⟨s', es₁, _, hstep, ih hrest, rfl⟩

/-- What every step preserves, every run preserves. -/
theorem run_invariant (hI : ∀ s i s' es, I s → step s i = .ok (s', es) → I s')
    {s t : σ} {is : List ι} {log : List ω} (hs : I s) (h : run step s is = .ok (t, log)) :
    I t := by
  induction is generalizing s log with
  | nil =>
      simp only [run_nil, Except.ok.injEq, Prod.mk.injEq] at h
      exact h.1 ▸ hs
  | cons i is ih =>
      obtain ⟨s', es, fs, hstep, hrun, -⟩ := run_cons_eq_ok_iff.mp h
      exact ih (hI s i s' es hs hstep) hrun

theorem along_cons_of_ok {s s' : σ} {i : ι} {es : List ω} {is : List ι}
    (h : step s i = .ok (s', es)) : Along step P s (i :: is) ↔ P s i ∧ Along step P s' is := by
  rw [Along, h]
  apply and_congr_right
  intro _
  constructor
  · exact fun hrest ↦ hrest s' es rfl
  · rintro hrest t fs heq
    obtain ⟨rfl, rfl⟩ := Prod.mk.inj (Except.ok.inj heq)
    exact hrest

theorem along_cons_of_error {s : σ} {i : ι} {e : ε} {is : List ι} (h : step s i = .error e) :
    Along step P s (i :: is) ↔ P s i := by
  rw [Along, h]
  exact and_iff_left fun _ _ heq ↦ by cases heq

instance decidableAlong [∀ s i, Decidable (P s i)] :
    (s : σ) → (is : List ι) → Decidable (Along step P s is)
  | _, [] => .isTrue trivial
  | s, i :: is =>
      match h : step s i with
      | .error _ => decidable_of_iff _ (along_cons_of_error h).symm
      | .ok (s', _) =>
          have : Decidable (Along step P s' is) := decidableAlong s' is
          decidable_of_iff _ (along_cons_of_ok h).symm

/-- Two step conditions that agree at every step of a run agree along the run. -/
theorem along_congr {is : List ι} (hI : ∀ s i s' es, I s → step s i = .ok (s', es) → I s')
    (hPQ : ∀ s, ∀ i ∈ is, ∀ s' es, I s → step s i = .ok (s', es) → (P s i ↔ Q s i))
    {s t : σ} {log : List ω} (hs : I s) (h : run step s is = .ok (t, log)) :
    Along step P s is ↔ Along step Q s is := by
  induction is generalizing s log with
  | nil => exact Iff.rfl
  | cons i is ih =>
      obtain ⟨s', es, fs, hstep, hrun, -⟩ := run_cons_eq_ok_iff.mp h
      have hrest := ih (fun u j hj ↦ hPQ u j (List.mem_cons_of_mem i hj)) (hI s i s' es hs hstep)
        hrun
      simp only [Along, hPQ s i List.mem_cons_self s' es hs hstep]
      apply and_congr_right
      intro _
      apply forall_congr'
      intro u
      apply forall_congr'
      intro us
      apply imp_congr_right
      intro hu
      obtain ⟨rfl, -⟩ : s' = u ∧ es = us := by simpa [hstep] using hu
      exact hrest

theorem along_of_invariant (hI : ∀ s i s' es, I s → step s i = .ok (s', es) → I s')
    (hP : ∀ s i, I s → P s i) {s : σ} (hs : I s) (is : List ι) : Along step P s is := by
  induction is generalizing s with
  | nil => trivial
  | cons i is ih =>
      exact ⟨hP s i hs, fun s' es hstep ↦ ih (hI s i s' es hs hstep)⟩

theorem Along.imp {is : List ι} (hI : ∀ s i s' es, I s → step s i = .ok (s', es) → I s')
    (hPQ : ∀ s, ∀ i ∈ is, I s → P s i → Q s i) {s : σ} (hs : I s) (h : Along step P s is) :
    Along step Q s is := by
  induction is generalizing s with
  | nil => trivial
  | cons i is ih =>
      refine ⟨hPQ s i List.mem_cons_self hs h.1, fun s' es hstep ↦ ?_⟩
      exact ih (fun u j hj ↦ hPQ u j (List.mem_cons_of_mem i hj)) (hI s i s' es hs hstep)
        (h.2 s' es hstep)

/-- A run that reaches its end satisfies what every successful step needs. -/
theorem along_of_run_ok (hI : ∀ s i s' es, I s → step s i = .ok (s', es) → I s')
    (hP : ∀ s i s' es, I s → step s i = .ok (s', es) → P s i) {s t : σ} {is : List ι}
    {log : List ω} (hs : I s) (h : run step s is = .ok (t, log)) : Along step P s is := by
  have hcongr : Along step (fun _ _ ↦ True) s is ↔ Along step P s is :=
    along_congr hI (fun s i _ s' es hs hstep ↦ iff_of_true trivial (hP s i s' es hs hstep)) hs h
  exact hcongr.mp (along_of_invariant hI (fun _ _ _ ↦ trivial) hs is)

/-- A run whose steps satisfy `P` can only fault as such a step can. -/
theorem Along.fault {E : ε → Prop} (hI : ∀ s i s' es, I s → step s i = .ok (s', es) → I s')
    (hE : ∀ s i e, I s → P s i → step s i = .error e → E e) {s : σ} {is : List ι} {e : ε}
    (hs : I s) (hP : Along step P s is) (h : run step s is = .error e) : E e := by
  induction is generalizing s with
  | nil => cases h
  | cons i is ih =>
      cases hstep : step s i with
      | error e' =>
          obtain rfl : e' = e := by simpa [run_cons_of_error hstep] using h
          exact hE s i e' hs hP.1 hstep
      | ok p =>
          obtain ⟨s', es⟩ := p
          rw [run_cons_of_ok hstep] at h
          split at h
          · rename_i e' hrest
            obtain rfl := Except.error.inj h
            exact ih (hI s i s' es hs hstep) (hP.2 s' es hstep) hrest
          · cases h

/-! ## Replaying the events -/

/-- `P` holds of every event of a list and of the abstract state just before it. -/
def EachEvent (upd : τ → ω → τ) (P : τ → ω → Prop) : τ → List ω → Prop
  | _, [] => True
  | a, e :: es => P a e ∧ EachEvent upd P (upd a e) es

variable {upd : τ → ω → τ} {R R' S : τ → ω → Prop} {J : τ → Prop}

instance decidableEachEvent [∀ a e, Decidable (R a e)] :
    (a : τ) → (es : List ω) → Decidable (EachEvent upd R a es)
  | _, [] => .isTrue trivial
  | a, e :: es =>
      have := decidableEachEvent (upd a e) es
      inferInstanceAs (Decidable (R a e ∧ EachEvent upd R (upd a e) es))

theorem eachEvent_append {a : τ} {es fs : List ω} :
    EachEvent upd R a (es ++ fs) ↔
      EachEvent upd R a es ∧ EachEvent upd R (es.foldl upd a) fs := by
  induction es generalizing a with
  | nil => simp [EachEvent]
  | cons e es ih => simp [EachEvent, ih, and_assoc]

/-- Two conditions that agree on the events satisfying `S`. -/
theorem eachEvent_congr (hR : ∀ a e, S a e → (R a e ↔ R' a e)) {a : τ} {es : List ω}
    (hes : EachEvent upd S a es) : EachEvent upd R a es ↔ EachEvent upd R' a es := by
  induction es generalizing a with
  | nil => exact Iff.rfl
  | cons e es ih => exact and_congr (hR a e hes.1) (ih hes.2)

theorem eachEvent_forall {p : ω → Prop} {a : τ} {es : List ω} :
    EachEvent upd (fun _ e ↦ p e) a es ↔ ∀ e ∈ es, p e := by
  induction es generalizing a with
  | nil => simp [EachEvent]
  | cons e es ih => simp [EachEvent, ih]

/-- When, on the events satisfying `S`, the condition `R` is exactly what keeps `J`, then `R` holds
of every event iff `J` holds in every abstract state on the way. -/
theorem eachEvent_iff_invariant (hR : ∀ a e, J a → S a e → (R a e ↔ J (upd a e))) {a : τ}
    {es : List ω} (ha : J a) (hes : EachEvent upd S a es) :
    EachEvent upd R a es ↔ ∀ pre post, es = pre ++ post → J (pre.foldl upd a) := by
  induction es generalizing a with
  | nil =>
      refine ⟨fun _ pre post h ↦ ?_, fun _ ↦ trivial⟩
      obtain ⟨rfl, -⟩ := List.append_eq_nil_iff.mp h.symm
      exact ha
  | cons e es ih =>
      constructor
      · rintro ⟨he, hrest⟩ pre post hsplit
        cases pre with
        | nil => exact ha
        | cons e' pre =>
            obtain ⟨rfl, htail⟩ := List.cons_eq_cons.mp hsplit
            exact (ih ((hR a e ha hes.1).mp he) hes.2).mp hrest pre post htail
      · intro h
        have he : J (upd a e) := h [e] es rfl
        refine ⟨(hR a e ha hes.1).mpr he, (ih he hes.2).mpr fun pre post hsplit ↦ ?_⟩
        exact h (e :: pre) post (by simp [hsplit])

/-! ## Simulation -/

/-- If every step changes the abstract state as its events say, so does every run, and what holds
of the events of a step holds of the events of a run. The relation may speak of the inputs that
are to come. -/
theorem run_simulates_inputs (Rel : σ → List ι → τ → Prop)
    (hstep : ∀ s i is s' es a, Rel s (i :: is) a → step s i = .ok (s', es) →
      EachEvent upd R a es ∧ Rel s' is (es.foldl upd a))
    {s t : σ} {a : τ} {is : List ι} {log : List ω} (hs : Rel s is a)
    (h : run step s is = .ok (t, log)) :
    EachEvent upd R a log ∧ Rel t [] (log.foldl upd a) := by
  induction is generalizing s a log with
  | nil =>
      simp only [run_nil, Except.ok.injEq, Prod.mk.injEq] at h
      obtain ⟨rfl, rfl⟩ := h
      exact ⟨trivial, hs⟩
  | cons i is ih =>
      obtain ⟨s', es, fs, hone, hrun, rfl⟩ := run_cons_eq_ok_iff.mp h
      obtain ⟨hes, hs'⟩ := hstep s i is s' es a hs hone
      obtain ⟨hfs, ht⟩ := ih hs' hrun
      rw [eachEvent_append, List.foldl_append]
      exact ⟨⟨hes, hfs⟩, ht⟩

theorem run_simulates (Rel : σ → τ → Prop)
    (hstep : ∀ s i s' es a, Rel s a → step s i = .ok (s', es) →
      EachEvent upd R a es ∧ Rel s' (es.foldl upd a))
    {s t : σ} {a : τ} {is : List ι} {log : List ω} (hs : Rel s a)
    (h : run step s is = .ok (t, log)) :
    EachEvent upd R a log ∧ Rel t (log.foldl upd a) :=
  run_simulates_inputs (fun s _ a ↦ Rel s a) (fun s i _ ↦ hstep s i) hs h

end Transducer
