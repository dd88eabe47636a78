import Mathlib.Data.List.TakeWhile
import Mathlib.Data.Nat.Notation

/-!
# Words between separators

The words of a list are its maximal nonempty runs without a separator. A reader that skips
separators, takes the run behind them and goes on with what is left finds these words one by one.
-/

namespace Words

variable {α : Type*} {sep p : α → Bool} {s w gap rest : List α}

/-- The list does not begin with an element that satisfies `p`. -/
def Stops (p : α → Bool) (s : List α) : Prop := ∀ c ∈ s.head?, p c = false

structure IsWord (sep : α → Bool) (w : List α) : Prop where
  ne_nil : w ≠ []
  inside : ∀ c ∈ w, sep c = false

/-! ## Runs -/

theorem stops_nil : Stops p [] := by
  simp [Stops]

theorem stops_cons {c : α} : Stops p (c :: s) ↔ p c = false := by
  simp [Stops]

theorem stops_dropWhile (p : α → Bool) (s : List α) : Stops p (s.dropWhile p) := by
  induction s with
  | nil => exact stops_nil
  | cons c s ih =>
      cases hc : p c with
      | true => rwa [List.dropWhile_cons_of_pos hc]
      | false =>
          rw [List.dropWhile_cons_of_neg (by simp [hc])]
          exact stops_cons.mpr hc

theorem Stops.dropWhile_eq (h : Stops p s) : s.dropWhile p = s := by
  cases s with
  | nil => rfl
  | cons c s =>
      have hc : p c = false := stops_cons.mp h
      rw [List.dropWhile_cons_of_neg (by simp [hc])]

theorem Stops.takeWhile_eq (h : Stops p s) : s.takeWhile p = [] := by
  cases s with
  | nil => rfl
  | cons c s =>
      have hc : p c = false := stops_cons.mp h
      rw [List.takeWhile_cons_of_neg (by simp [hc])]

theorem takeWhile_append_stops (hw : ∀ c ∈ w, p c = true) (hs : Stops p s) :
    (w ++ s).takeWhile p = w := by
  rw [List.takeWhile_append_of_pos hw, hs.takeWhile_eq, List.append_nil]

theorem dropWhile_append_stops (hw : ∀ c ∈ w, p c = true) (hs : Stops p s) :
    (w ++ s).dropWhile p = s := by
  rw [List.dropWhile_append_of_pos hw, hs.dropWhile_eq]

theorem length_dropWhile_le (p : α → Bool) (s : List α) : (s.dropWhile p).length ≤ s.length :=
  (List.dropWhile_suffix p).length_le

/-! ## Words -/

def words (sep : α → Bool) (s : List α) : List (List α) :=
  (s.splitOnP sep).filter fun w ↦ !w.isEmpty

theorem words_cons_sep {c : α} (hc : sep c = true) (s : List α) :
    words sep (c :: s) = words sep s := by
  rw [words, List.splitOnP_cons_eq_if_modifyHead, if_pos hc]
  rfl

theorem words_gap (hgap : ∀ c ∈ gap, sep c = true) (s : List α) :
    words sep (gap ++ s) = words sep s := by
  induction gap with
  | nil => rfl
  | cons c gap ih =>
      rw [List.cons_append, words_cons_sep (hgap c List.mem_cons_self)]
      exact ih fun d hd ↦ hgap d (List.mem_cons_of_mem c hd)

theorem words_dropWhile (sep : α → Bool) (s : List α) :
    words sep (s.dropWhile sep) = words sep s := by
  have hsplit : s.takeWhile sep ++ s.dropWhile sep = s := List.takeWhile_append_dropWhile
  rw [← words_gap (fun _ hc ↦ List.mem_takeWhile_imp hc) (s.dropWhile sep), hsplit]

theorem IsWord.words_append (hw : IsWord sep w) (hrest : Stops (!sep ·) rest) :
    words sep (w ++ rest) = w :: words sep rest := by
  have hkeep : (!w.isEmpty) = true := by simp [hw.ne_nil]
  cases rest with
  | nil => simp [words, List.splitOnP_eq_singleton hw.inside, hw.ne_nil]
  | cons c rest =>
      have hc : sep c = true := by simpa using stops_cons.mp hrest
      rw [words_cons_sep hc, words, List.splitOnP_append_cons_of_forall_mem hw.inside c hc,
        List.filter_cons, if_pos hkeep, words]

/-! ## Reading word by word -/

/-- Skip separators and take the word behind them. -/
def nextWord (sep : α → Bool) (s : List α) : Option (List α × List α) :=
  match s.dropWhile sep with
  | [] => none
  | c :: cs => some ((c :: cs).takeWhile (!sep ·), (c :: cs).dropWhile (!sep ·))

theorem nextWord_append (hgap : ∀ c ∈ gap, sep c = true) (hw : IsWord sep w)
    (hrest : Stops (!sep ·) rest) : nextWord sep (gap ++ (w ++ rest)) = some (w, rest) := by
  obtain ⟨c, cs, rfl⟩ := List.exists_cons_of_ne_nil hw.ne_nil
  have hstop : Stops sep (c :: cs ++ rest) := stops_cons.mpr (hw.inside c List.mem_cons_self)
  have hin : ∀ d ∈ c :: cs, (!sep d) = true := fun d hd ↦ by simp [hw.inside d hd]
  rw [nextWord, dropWhile_append_stops hgap hstop]
  exact congrArg some (Prod.ext (takeWhile_append_stops hin hrest)
    (dropWhile_append_stops hin hrest))

theorem nextWord_gap (hgap : ∀ c ∈ gap, sep c = true) (s : List α) :
    nextWord sep (gap ++ s) = nextWord sep s := by
  rw [nextWord, nextWord, List.dropWhile_append_of_pos hgap]

theorem nextWord_eq_none_iff : nextWord sep s = none ↔ ∀ c ∈ s, sep c = true := by
  rw [← List.dropWhile_eq_nil_iff, nextWord]
  split
  · simp [*]
  · simp [*]

/-- What `nextWord` finds: a gap, a word, and what does not go on with the word. -/
theorem nextWord_eq_some_iff :
    nextWord sep s = some (w, rest) ↔
      ∃ gap, (∀ c ∈ gap, sep c = true) ∧ IsWord sep w ∧ Stops (!sep ·) rest ∧
        s = gap ++ (w ++ rest) := by
  constructor
  · intro h
    unfold nextWord at h
    split at h
    · cases h
    · rename_i c cs hdrop
      obtain ⟨rfl, rfl⟩ := Prod.mk.inj (Option.some.inj h)
      have hc : sep c = false := by
        have hstop := stops_dropWhile sep s
        rw [hdrop] at hstop
        exact stops_cons.mp hstop
      refine ⟨s.takeWhile sep, fun d hd ↦ List.mem_takeWhile_imp hd, ⟨?_, ?_⟩,
        stops_dropWhile _ _, ?_⟩
      · rw [List.takeWhile_cons_of_pos (by simp [hc])]
        exact List.cons_ne_nil _ _
      · intro d hd
        simpa using List.mem_takeWhile_imp hd
      · rw [List.takeWhile_append_dropWhile, ← hdrop, List.takeWhile_append_dropWhile]
  · rintro ⟨gap, hgap, hw, hrest, rfl⟩
    exact nextWord_append hgap hw hrest

theorem words_of_nextWord_none (h : nextWord sep s = none) : words sep s = [] := by
  have hgap := words_gap (nextWord_eq_none_iff.mp h) []
  rwa [List.append_nil] at hgap

theorem words_of_nextWord (h : nextWord sep s = some (w, rest)) :
    words sep s = w :: words sep rest := by
  obtain ⟨gap, hgap, hw, hrest, rfl⟩ := nextWord_eq_some_iff.mp h
  rw [words_gap hgap, hw.words_append hrest]

theorem nextWord_of_words {ws : List (List α)} (h : words sep s = w :: ws) :
    ∃ rest, nextWord sep s = some (w, rest) ∧ words sep rest = ws := by
  cases hnext : nextWord sep s with
  | none =>
      rw [words_of_nextWord_none hnext] at h
      cases h
  | some p =>
      rw [words_of_nextWord hnext] at h
      obtain ⟨rfl, rfl⟩ := List.cons.inj h
      exact ⟨p.2, rfl, rfl⟩

theorem words_eq_nil_iff : words sep s = [] ↔ ∀ c ∈ s, sep c = true := by
  rw [← nextWord_eq_none_iff]
  refine ⟨fun h ↦ ?_, words_of_nextWord_none⟩
  cases hnext : nextWord sep s with
  | none => rfl
  | some p =>
      rw [words_of_nextWord hnext] at h
      cases h

theorem length_of_nextWord (h : nextWord sep s = some (w, rest)) : rest.length < s.length := by
  obtain ⟨gap, -, hw, -, rfl⟩ := nextWord_eq_some_iff.mp h
  have hpos := List.length_pos_iff.mpr hw.ne_nil
  simp only [List.length_append]
  omega

@[elab_as_elim]
theorem nextWord_induction (sep : α → Bool) {motive : List α → Prop}
    (hnone : ∀ s, nextWord sep s = none → motive s)
    (hsome : ∀ s w rest, nextWord sep s = some (w, rest) → motive rest → motive s)
    (s : List α) : motive s := by
  cases h : nextWord sep s with
  | none => exact hnone s h
  | some p => exact hsome s p.1 p.2 h (nextWord_induction sep hnone hsome p.2)
termination_by s.length
decreasing_by exact length_of_nextWord h

theorem mem_of_mem_words {c : α} (hw : w ∈ words sep s) (hc : c ∈ w) : c ∈ s := by
  induction s using nextWord_induction sep with
  | hnone s h => simp [words_of_nextWord_none h] at hw
  | hsome s v rest h ih =>
      rw [words_of_nextWord h] at hw
      obtain ⟨gap, -, -, -, rfl⟩ := nextWord_eq_some_iff.mp h
      rcases List.mem_cons.mp hw with rfl | hw
      · simp [hc]
      · simp [ih hw]

end Words
