import AntiDos.Trace.TraceRead

/-!
# The lines that the trace reader survives

Any program on the host may write to the trace pipe. A line is harmless when behind each label that
the reader takes for one there is a value, and the value of `action:` fits its buffer. The lines of
this kind are described by what `strtok_r` may cut out of them, and are exactly those that
`trace_read` reads to their end.
-/

namespace AntiDos

open Faulting Scanf Words

variable {delim : Char} {tok tok' save save' rest s : List Char} {st : TraceState}
  {label key : String}

/-! ## Cutting out a token -/

/-- The text `s` is some delimiters, the token `tok`, and either nothing more, or one delimiter and
`rest`. -/
inductive Cut (delim : Char) : List Char → List Char → List Char → Prop
  | last {gap tok : List Char} (hgap : ∀ c ∈ gap, c = delim) (htok : IsWord (· = delim) tok) :
      Cut delim (gap ++ tok) tok []
  | delimited {gap tok rest : List Char} (hgap : ∀ c ∈ gap, c = delim)
      (htok : IsWord (· = delim) tok) : Cut delim (gap ++ (tok ++ delim :: rest)) tok rest

theorem Cut.strtokR_eq (h : Cut delim s tok rest) : strtokR delim s = (some tok, rest) := by
  cases h with
  | @last gap tok hgap htok =>
      have hnext : nextWord (· = delim) (gap ++ (tok ++ [])) = some (tok, []) :=
        nextWord_append (by simpa using hgap) htok stops_nil
      rw [List.append_nil] at hnext
      exact strtokR_of_nextWord hnext
  | @delimited gap tok rest hgap htok =>
      have hnext : nextWord (· = delim) (gap ++ (tok ++ delim :: rest)) =
          some (tok, delim :: rest) :=
        nextWord_append (by simpa using hgap) htok (stops_cons.mpr (by simp))
      exact strtokR_of_nextWord hnext

theorem strtokR_eq_some_iff : strtokR delim s = (some tok, rest) ↔ Cut delim s tok rest := by
  refine ⟨fun h ↦ ?_, Cut.strtokR_eq⟩
  unfold strtokR at h
  split at h
  · cases h
  · rename_i w r hnext
    obtain ⟨htok, rfl⟩ := Prod.mk.inj h
    obtain rfl := Option.some.inj htok
    obtain ⟨gap, hgap, hw, hstop, rfl⟩ := nextWord_eq_some_iff.mp hnext
    have hgap' : ∀ c ∈ gap, c = delim := by simpa using hgap
    cases r with
    | nil =>
        rw [List.append_nil]
        exact Cut.last hgap' hw
    | cons c r =>
        obtain rfl : c = delim := by simpa using stops_cons.mp hstop
        exact Cut.delimited hgap' hw

theorem strtokR_eq_none_iff : (∃ r, strtokR delim s = (none, r)) ↔ ∀ c ∈ s, c = delim := by
  have hblank : nextWord (· = delim) s = none ↔ ∀ c ∈ s, c = delim := by
    rw [nextWord_eq_none_iff]
    simp
  rw [← hblank, strtokR]
  cases nextWord (· = delim) s with
  | none => simp
  | some p => simp

/-! ## Harmless lines -/

/-- The value of a label `src:` or `dst:` is cut out, if the token is one, and is the token that the
next label is looked for in. -/
inductive AddrTaken (label : String) (tok save : List Char) : List Char → List Char → Prop
  | other (hlabel : startsLike 4 label tok = false) : AddrTaken label tok save tok save
  | value {v rest : List Char} (hlabel : startsLike 4 label tok = true)
      (hcut : Cut ' ' save v rest) : AddrTaken label tok save v rest

/-- The same for `action:`, whose value must not have a word that overflows the buffer. -/
inductive ActionTaken (tok save : List Char) : List Char → List Char → Prop
  | other (hlabel : startsLike 5 "action:" tok = false) : ActionTaken tok save tok save
  | value {v rest : List Char} (hlabel : startsLike 5 "action:" tok = true)
      (hcut : Cut ',' save v rest) (hfits : ∀ w r, WordAt v w r → w.length < actionBytes) :
      ActionTaken tok save v rest

inductive Harmless : List Char → Prop
  | blank {s : List Char} (hblank : ∀ c ∈ s, c = ' ') : Harmless s
  | token {s tok₀ save₀ tok₁ save₁ tok₂ save₂ tok₃ save₃ : List Char}
      (hcut : Cut ' ' s tok₀ save₀) (haction : ActionTaken tok₀ save₀ tok₁ save₁)
      (hsrc : AddrTaken "src:" tok₁ save₁ tok₂ save₂)
      (hdst : AddrTaken "dst:" tok₂ save₂ tok₃ save₃) (hrest : Harmless save₃) : Harmless s

/-! ## The body of the loop -/

theorem readAddr_ok_iff (key : String) (st : TraceState) :
    (∃ t, readAddr label key (tok, save, st) = .ok (tok', save', t)) ↔
      AddrTaken label tok save tok' save' := by
  constructor
  · rintro ⟨t, h⟩
    unfold readAddr at h
    dsimp only at h
    split at h
    · rename_i hlabel
      split at h
      · cases h
      · rename_i v rest hv
        obtain ⟨rfl, rfl, -⟩ : v = tok' ∧ rest = save' ∧ _ := by simpa using h
        exact AddrTaken.value hlabel (strtokR_eq_some_iff.mp hv)
    · rename_i hlabel
      obtain ⟨rfl, rfl, -⟩ : tok = tok' ∧ save = save' ∧ _ := by simpa using h
      exact AddrTaken.other (Bool.eq_false_iff.mpr hlabel)
  · intro h
    cases h with
    | other hlabel => exact ⟨st, readAddr_of_not hlabel key save st⟩
    | value hlabel hcut =>
        unfold readAddr
        dsimp only
        rw [if_pos hlabel, hcut.strtokR_eq]
        exact ⟨_, rfl⟩

theorem readAction_ok_iff (st : TraceState) :
    (∃ t, readAction (tok, save, st) = .ok (tok', save', t)) ↔
      ActionTaken tok save tok' save' := by
  constructor
  · rintro ⟨t, h⟩
    unfold readAction at h
    dsimp only at h
    split at h
    · rename_i hlabel
      split at h
      · cases h
      · rename_i v rest hv
        have hcut := strtokR_eq_some_iff.mp hv
        split at h
        · rename_i hblank
          obtain ⟨rfl, rfl, -⟩ : v = tok' ∧ rest = save' ∧ _ := by simpa using h
          refine ActionTaken.value hlabel hcut fun w r hw ↦ ?_
          cases hblank.symm.trans (scanWord_eq_some_iff.mpr hw)
        · rename_i w' r' hword
          split at h
          · rename_i hfits
            obtain ⟨rfl, rfl, -⟩ : v = tok' ∧ rest = save' ∧ _ := by simpa using h
            refine ActionTaken.value hlabel hcut fun w r hw ↦ ?_
            obtain ⟨rfl, -⟩ : w' = w ∧ r' = r := by
              simpa using hword.symm.trans (scanWord_eq_some_iff.mpr hw)
            exact hfits
          · cases h
    · rename_i hlabel
      obtain ⟨rfl, rfl, -⟩ : tok = tok' ∧ save = save' ∧ _ := by simpa using h
      exact ActionTaken.other (Bool.eq_false_iff.mpr hlabel)
  · intro h
    cases h with
    | other hlabel => exact ⟨st, readAction_of_not hlabel save st⟩
    | value hlabel hcut hfits =>
        unfold readAction
        dsimp only
        rw [if_pos hlabel, hcut.strtokR_eq]
        dsimp only
        split
        · exact ⟨_, rfl⟩
        · rename_i w r hword
          rw [if_pos (hfits w r (scanWord_eq_some_iff.mp hword))]
          exact ⟨_, rfl⟩

theorem traceToken_ok_iff (st : TraceState) :
    (∃ t, traceToken tok save st = .ok (rest, t)) ↔
      ∃ tok₁ save₁ tok₂ save₂ tok₃, ActionTaken tok save tok₁ save₁ ∧
        AddrTaken "src:" tok₁ save₁ tok₂ save₂ ∧ AddrTaken "dst:" tok₂ save₂ tok₃ rest := by
  constructor
  · rintro ⟨t, h⟩
    obtain ⟨⟨tok₁, save₁, st₁⟩, h₁, h⟩ := bind_eq_ok_iff.mp h
    obtain ⟨⟨tok₂, save₂, st₂⟩, h₂, h⟩ := bind_eq_ok_iff.mp h
    obtain ⟨⟨tok₃, save₃, st₃⟩, h₃, h⟩ := bind_eq_ok_iff.mp h
    obtain ⟨rfl, -⟩ := Prod.mk.inj (Except.ok.inj h)
    exact ⟨tok₁, save₁, tok₂, save₂, tok₃, (readAction_ok_iff st).mp ⟨st₁, h₁⟩,
      (readAddr_ok_iff "src" st₁).mp ⟨st₂, h₂⟩, (readAddr_ok_iff "dst" st₂).mp ⟨st₃, h₃⟩⟩
  · rintro ⟨tok₁, save₁, tok₂, save₂, tok₃, haction, hsrc, hdst⟩
    obtain ⟨st₁, h₁⟩ := (readAction_ok_iff st).mpr haction
    obtain ⟨st₂, h₂⟩ := (readAddr_ok_iff "src" st₁).mpr hsrc
    obtain ⟨st₃, h₃⟩ := (readAddr_ok_iff "dst" st₂).mpr hdst
    rw [traceToken, h₁, ok_bind, h₂, ok_bind, h₃, ok_bind]
    exact ⟨_, rfl⟩

/-! ## The loops -/

theorem Harmless.traceLoop_ok (h : Harmless save) (st : TraceState) :
    ∃ t, traceLoop save st = .ok t := by
  induction h generalizing st with
  | blank hblank =>
      obtain ⟨r, hr⟩ := strtokR_eq_none_iff.mpr hblank
      exact ⟨st, traceLoop_of_none hr⟩
  | token hcut haction hsrc hdst _ ih =>
      obtain ⟨st', hbody⟩ := (traceToken_ok_iff st).mpr ⟨_, _, _, _, _, haction, hsrc, hdst⟩
      rw [traceLoop_of_some hcut.strtokR_eq, hbody, ok_bind]
      exact ih st'

theorem traceLoop_ok_iff (st : TraceState) : (∃ t, traceLoop save st = .ok t) ↔ Harmless save := by
  refine ⟨?_, fun h ↦ h.traceLoop_ok st⟩
  rintro ⟨t, h⟩
  fun_induction traceLoop save st with
  | case1 save st r hnone => exact Harmless.blank (strtokR_eq_none_iff.mp ⟨r, hnone⟩)
  | case2 save st tok rest htok e hbody => cases h
  | case3 save st tok rest htok save' st' hbody ih =>
      obtain ⟨tok₁, save₁, tok₂, save₂, tok₃, haction, hsrc, hdst⟩ :=
        (traceToken_ok_iff st).mp ⟨st', hbody⟩
      exact Harmless.token (strtokR_eq_some_iff.mp htok) haction hsrc hdst (ih h)

theorem traceLine_ok_iff {line : List Char} (st : TraceState) :
    (∃ t, traceLine line st = .ok t) ↔ Harmless (cString line) := by
  rw [← traceLoop_ok_iff st]
  unfold traceLine
  cases traceLoop (cString line) st with
  | error e => simp
  | ok t => simp

/-- `trace_read` reads the lines of the trace pipe to their end, without a null pointer and within
the buffer, exactly when each of them is harmless. -/
theorem traceRead_ok_iff (lines : List (List Char)) (st : TraceState) :
    (∃ t, traceRead lines st = .ok t) ↔ ∀ line ∈ lines, Harmless (cString line) := by
  induction lines generalizing st with
  | nil => simp [traceRead]
  | cons line lines ih =>
      rw [traceRead, List.foldlM_cons, List.forall_mem_cons, ← traceLine_ok_iff st]
      cases hline : traceLine line st with
      | error e => simp
      | ok st' =>
          rw [ok_bind, ← ih st']
          simp [traceRead]

theorem traceRead_of_token {line tok rest : List Char} {e : TraceFault}
    (hcut : strtokR ' ' (cString line) = (some tok, rest))
    (hfault : traceToken tok rest st = .error e) (lines : List (List Char)) :
    traceRead (line :: lines) st = .error e := by
  rw [traceRead, List.foldlM_cons, traceLine, traceLoop_of_some hcut, hfault]
  rfl

/-- A line that ends right behind the label, and one whose action does not fit the buffer. -/
theorem action_line_faults :
    traceRead ["action:\n".toList] ⟨[], []⟩ = .error .nullToken ∧
      traceRead ["action: ABORTED, src: 7\n".toList] ⟨[], []⟩ =
        .error (.action "ABORTED".toList) := by
  have hbare : strtokR ' ' (cString "action:\n".toList) = (some "action:\n".toList, []) := rfl
  have hlong : strtokR ' ' (cString "action: ABORTED, src: 7\n".toList) =
      (some "action:".toList, "ABORTED, src: 7\n".toList) := rfl
  exact ⟨traceRead_of_token hbare rfl [], traceRead_of_token hlong rfl []⟩

end AntiDos
