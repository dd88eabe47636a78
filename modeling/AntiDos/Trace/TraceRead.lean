import AntiDos.Lib.Fault
import AntiDos.Lib.Inet

/-!
# Reading the trace pipe

`trace_read` takes every line of the trace pipe apart with `strtok_r`. A token that begins like the
label of a field is followed by the value of the field, which the next call of `strtok_r` fetches
without a look at whether there is one. A value that is missing is a null pointer in the next
comparison, and the value of `action:` is copied into a buffer of six bytes.
-/

namespace AntiDos

open Faulting Inet Scanf Words

/-- `strtok_r` with the delimiter `delim`, on the text that the save pointer points to. -/
def strtokR (delim : Char) (save : List Char) : Option (List Char) × List Char :=
  match nextWord (· = delim) save with
  | none => (none, [])
  | some (tok, rest) => (some tok, rest.drop 1)

/-- `strncmp(tok, lit, n)` finds no difference, where `lit` has at least `n` characters. -/
def startsLike (n : ℕ) (lit : String) (tok : List Char) : Bool := tok.take n = lit.toList.take n

abbrev actionBytes : ℕ := 6

inductive TraceFault
  | nullToken
  | action (w : List Char)

/-- The content of the buffer `action`, and what has been printed. -/
structure TraceState where
  action : List Char
  out : List Char

def TraceState.print (s : TraceState) (text : List Char) : TraceState :=
  { s with out := s.out ++ text }

/-- What `print_ip_addr` prints. -/
def printIpAddr (key : String) (value : List Char) : List Char :=
  match scanNumeral value with
  | .found addr _ => key.toList ++ ": ".toList ++ inetNtop addr.toUInt32 ++ " ".toList
  | _ => []

abbrev Cursor := List Char × List Char × TraceState

/-- `sscanf(tok, "%s", action)` is `EOF`, which is not `0`, when the token is blank, so the buffer
is printed as it is. -/
def readAction : Cursor → Except TraceFault Cursor
  | (tok, save, s) =>
      if startsLike 5 "action:" tok then
        match strtokR ',' save with
        | (none, _) => .error .nullToken
        | (some tok, save) =>
            match scanWord tok with
            | none =>
                .ok (tok, save, s.print ("action: ".toList ++ s.action ++ " ".toList))
            | some (w, _) =>
                if w.length < actionBytes then
                  .ok (tok, save,
                    { s with action := w }.print ("action: ".toList ++ w ++ " ".toList))
                else .error (.action w)
      else .ok (tok, save, s)

/-- The blocks for `src:` and `dst:`. -/
def readAddr (label key : String) : Cursor → Except TraceFault Cursor
  | (tok, save, s) =>
      if startsLike 4 label tok then
        match strtokR ' ' save with
        | (none, _) => .error .nullToken
        | (some tok, save) => .ok (tok, save, s.print (printIpAddr key tok))
      else .ok (tok, save, s)

def readReason : Cursor → TraceState
  | (tok, save, s) =>
      if startsLike 6 "reason:" tok then s.print ("reason: ".toList ++ save ++ " ".toList) else s

/-- The body of the loop over the tokens: what is left to tokenize, and the state. -/
def traceToken (tok save : List Char) (s : TraceState) :
    Except TraceFault (List Char × TraceState) := do
  let c ← readAction (tok, save, s)
  let c ← readAddr "src:" "src" c
  let c ← readAddr "dst:" "dst" c
  .ok (c.2.1, readReason c)

theorem strtokR_shorter {delim : Char} {save tok rest : List Char}
    (h : strtokR delim save = (some tok, rest)) : rest.length < save.length := by
  unfold strtokR at h
  split at h
  · cases h
  · rename_i tok' r hnext
    obtain ⟨-, rfl⟩ := Prod.mk.inj h
    exact lt_of_le_of_lt (by simp) (length_of_nextWord hnext)

theorem readAction_save {c c' : Cursor} (h : readAction c = .ok c') :
    c'.2.1.length ≤ c.2.1.length := by
  obtain ⟨tok, save, s⟩ := c
  unfold readAction at h
  dsimp only at h
  split_ifs at h with hlabel
  · split at h
    · cases h
    · rename_i v rest htok
      have hle := (strtokR_shorter htok).le
      split at h
      · obtain rfl := Except.ok.inj h
        exact hle
      · split_ifs at h
        obtain rfl := Except.ok.inj h
        exact hle
  · obtain rfl := Except.ok.inj h
    exact le_refl _

theorem readAddr_save {label key : String} {c c' : Cursor} (h : readAddr label key c = .ok c') :
    c'.2.1.length ≤ c.2.1.length := by
  obtain ⟨tok, save, s⟩ := c
  unfold readAddr at h
  dsimp only at h
  split_ifs at h with hlabel
  · split at h
    · cases h
    · rename_i v rest htok
      obtain rfl := Except.ok.inj h
      exact (strtokR_shorter htok).le
  · obtain rfl := Except.ok.inj h
    exact le_refl _

theorem traceToken_save {tok save rest : List Char} {s t : TraceState}
    (h : traceToken tok save s = .ok (rest, t)) : rest.length ≤ save.length := by
  obtain ⟨c₁, h₁, h⟩ := bind_eq_ok_iff.mp h
  obtain ⟨c₂, h₂, h⟩ := bind_eq_ok_iff.mp h
  obtain ⟨c₃, h₃, h⟩ := bind_eq_ok_iff.mp h
  obtain ⟨rfl, -⟩ := Prod.mk.inj (Except.ok.inj h)
  exact (readAddr_save h₃).trans ((readAddr_save h₂).trans (readAction_save h₁))

/-- The loop over the tokens of a line. -/
def traceLoop (save : List Char) (s : TraceState) : Except TraceFault TraceState :=
  match _htok : strtokR ' ' save with
  | (none, _) => .ok s
  | (some tok, rest) =>
      match _hbody : traceToken tok rest s with
      | .error e => .error e
      | .ok (save, s) => traceLoop save s
termination_by save.length
decreasing_by exact lt_of_le_of_lt (traceToken_save _hbody) (strtokR_shorter _htok)

/-- What `trace_read` does with a line. -/
def traceLine (line : List Char) (s : TraceState) : Except TraceFault TraceState := do
  let s ← traceLoop (cString line) s
  .ok (s.print "\n".toList)

/-- `trace_read` on the lines that the trace pipe yields. -/
def traceRead (lines : List (List Char)) (s : TraceState) : Except TraceFault TraceState :=
  lines.foldlM (fun s line ↦ traceLine line s) s

/-! ## Tokens without a label -/

variable {tok save pre rest : List Char} {s t : TraceState}

/-- No label that the loop looks for begins the token. -/
structure Plain (tok : List Char) : Prop where
  action : startsLike 5 "action:" tok = false
  src : startsLike 4 "src:" tok = false
  dst : startsLike 4 "dst:" tok = false
  reason : startsLike 6 "reason:" tok = false

theorem readAction_of_not (h : startsLike 5 "action:" tok = false) (save : List Char)
    (s : TraceState) : readAction (tok, save, s) = .ok (tok, save, s) :=
  if_neg (Bool.eq_false_iff.mp h)

theorem readAddr_of_not {label : String} (h : startsLike 4 label tok = false) (key : String)
    (save : List Char) (s : TraceState) : readAddr label key (tok, save, s) = .ok (tok, save, s) :=
  if_neg (Bool.eq_false_iff.mp h)

theorem readReason_of_not (h : startsLike 6 "reason:" tok = false) (save : List Char)
    (s : TraceState) : readReason (tok, save, s) = s :=
  if_neg (Bool.eq_false_iff.mp h)

theorem Plain.traceToken_eq (h : Plain tok) (save : List Char) (s : TraceState) :
    traceToken tok save s = .ok (save, s) := by
  rw [traceToken, readAction_of_not h.action, ok_bind, readAddr_of_not h.src, ok_bind,
    readAddr_of_not h.dst, ok_bind, readReason_of_not h.reason]

theorem traceLoop_of_none {r : List Char} (htok : strtokR ' ' save = (none, r)) :
    traceLoop save s = .ok s := by
  rw [traceLoop]
  split
  · rfl
  · rename_i tok rest h
    cases htok.symm.trans h

theorem traceLoop_of_some (htok : strtokR ' ' save = (some tok, rest)) :
    traceLoop save s = traceToken tok rest s >>= fun p ↦ traceLoop p.1 p.2 := by
  rw [traceLoop]
  split
  · rename_i h
    cases htok.symm.trans h
  · rename_i tok' rest' h
    obtain ⟨htok', rfl⟩ := Prod.mk.inj (htok.symm.trans h)
    obtain rfl := Option.some.inj htok'
    split
    · rename_i e hbody
      rw [hbody, error_bind]
    · rename_i save' s' hbody
      rw [hbody, ok_bind]

theorem traceLoop_of_plain (htok : strtokR ' ' save = (some tok, rest)) (h : Plain tok) :
    traceLoop save s = traceLoop rest s := by
  rw [traceLoop_of_some htok, h.traceToken_eq, ok_bind]

theorem traceLoop_cons_space (save : List Char) (s : TraceState) :
    traceLoop (' ' :: save) s = traceLoop save s := by
  have hgap : strtokR ' ' (' ' :: save) = strtokR ' ' save := by
    unfold strtokR
    rw [← List.singleton_append, nextWord_gap (by simp)]
  rcases htok : strtokR ' ' save with ⟨_ | tok, rest⟩
  · rw [traceLoop_of_none htok, traceLoop_of_none (hgap.trans htok)]
  · rw [traceLoop_of_some htok, traceLoop_of_some (hgap.trans htok)]

theorem traceLoop_drop (h : Stops (fun c ↦ !decide (c = ' ')) rest) (s : TraceState) :
    traceLoop (rest.drop 1) s = traceLoop rest s := by
  cases rest with
  | nil => rfl
  | cons c rest =>
      obtain rfl : c = ' ' := by simpa using stops_cons.mp h
      exact (traceLoop_cons_space rest s).symm

theorem strtokR_of_nextWord {delim : Char} (h : nextWord (· = delim) save = some (tok, rest)) :
    strtokR delim save = (some tok, rest.drop 1) := by
  rw [strtokR, h]

theorem traceLoop_plain (save : List Char) (s : TraceState)
    (hplain : ∀ t ∈ words (· = ' ') save, Plain t) : traceLoop save s = .ok s := by
  induction save using nextWord_induction (· = ' ') with
  | hnone save h => exact traceLoop_of_none (by rw [strtokR, h])
  | hsome save w rest h ih =>
      rw [words_of_nextWord h] at hplain
      obtain ⟨gap, -, -, hstop, -⟩ := nextWord_eq_some_iff.mp h
      rw [traceLoop_of_plain (strtokR_of_nextWord h) (hplain w List.mem_cons_self),
        traceLoop_drop hstop]
      exact ih fun t ht ↦ hplain t (List.mem_cons_of_mem w ht)

/-- What the trace pipe puts in front of a message. It ends with a blank, if there is anything. -/
structure LinePrefix (pre : List Char) : Prop where
  nul_not_mem : '\x00' ∉ pre
  plain : ∀ t ∈ words (· = ' ') pre, Plain t
  blank : ∀ c ∈ pre.getLast?, c = ' '

theorem traceLoop_gap {gap : List Char} (hgap : ∀ c ∈ gap, c = ' ') (rest : List Char)
    (s : TraceState) : traceLoop (gap ++ rest) s = traceLoop rest s := by
  induction gap with
  | nil => rfl
  | cons c gap ih =>
      obtain rfl := hgap c List.mem_cons_self
      rw [List.cons_append, traceLoop_cons_space]
      exact ih fun d hd ↦ hgap d (List.mem_cons_of_mem ' ' hd)

theorem traceLoop_prefix (pre rest : List Char) (s : TraceState)
    (hplain : ∀ t ∈ words (· = ' ') pre, Plain t) (hblank : ∀ c ∈ pre.getLast?, c = ' ') :
    traceLoop (pre ++ rest) s = traceLoop rest s := by
  induction pre using nextWord_induction (· = ' ') with
  | hnone pre h => exact traceLoop_gap (by simpa using nextWord_eq_none_iff.mp h) rest s
  | hsome pre w r h ih =>
      rw [words_of_nextWord h] at hplain
      obtain ⟨gap, hgap, hw, hstop, rfl⟩ := nextWord_eq_some_iff.mp h
      -- the word is not the last thing in the prefix
      obtain ⟨r', rfl⟩ : ∃ r', r = ' ' :: r' := by
        cases r with
        | nil =>
            have hlast := List.getLast_mem hw.ne_nil
            have hspace := hblank (w.getLast hw.ne_nil) (by
              simp [List.getLast?_append, List.getLast?_eq_some_getLast hw.ne_nil])
            exact absurd hspace (by simpa using hw.inside _ hlast)
        | cons c r' => exact ⟨r', by rw [show c = ' ' by simpa using stops_cons.mp hstop]⟩
      have hnext : nextWord (· = ' ') (gap ++ (w ++ ' ' :: (r' ++ rest))) =
          some (w, ' ' :: (r' ++ rest)) := nextWord_append hgap hw (stops_cons.mpr (by simp))
      have hassoc : gap ++ (w ++ ' ' :: r') ++ rest = gap ++ (w ++ ' ' :: (r' ++ rest)) := by simp
      rw [hassoc, traceLoop_of_plain (strtokR_of_nextWord hnext) (hplain w List.mem_cons_self),
        List.drop_one, List.tail_cons]
      have hrest := ih (fun t ht ↦ hplain t (List.mem_cons_of_mem w ht)) (by
        intro c hc
        exact hblank c (by simpa [List.getLast?_append] using hc))
      rwa [List.cons_append, traceLoop_cons_space] at hrest

end AntiDos
