import AntiDos.Filter.Verdict
import AntiDos.Lib.Inet
import AntiDos.Poller.Clock
import AntiDos.Poller.Machine

/-!
# Loading a list file

`load_user_map` of `update_list` reads a list file word by word and stores every word that is a
dotted quad in the pinned map. The filter looks the source of a packet up as the word at bytes 26 to
29 of the frame, which is the word `inet_pton` makes of the quad of these bytes. So a list file
decides membership for exactly the quads among its words, whatever else it contains and however
often, and in which order, it is loaded.
-/

namespace AntiDos

open Bytes Inet Scanf Words

/-- The size of the buffer `ip`. -/
abbrev ipSize : ℕ := 20

inductive ListFault
  | ipBuffer (w : List Char)

/-- The map and the results of the calls of `bpf_map_update_elem` so far. -/
structure ListRun where
  map : BlackListMap
  calls : List Int

/-- `update_list`, with its result, which `load_user_map` ignores. `replies` are the answers to the
calls of `bpf_map_update_elem`, in their order. -/
def updateList (mapFd : Int) (replies : ℕ → MapReply) (ipString : List Char) (s : ListRun) :
    Int × ListRun :=
  match inetPton (cString ipString) with
  | none => (1, s)
  | some key =>
      let res := storeElem key mapFd (replies s.calls.length) s.map
      if res.1 = 0 then (1, ⟨res.2, s.calls ++ [res.1]⟩) else (0, ⟨res.2, s.calls ++ [res.1]⟩)

/-- `fscanf(fp, "%s\n", ip)`, which is `EOF` at the end of the file and `1` else. -/
def scanLine (s : List Char) : Option (List Char × List Char) :=
  match scanWord s with
  | none => none
  | some (w, rest) => some (w, rest.dropWhile isSpace)

theorem scanLine_eq_some {s w rest : List Char} (h : scanLine s = some (w, rest)) :
    ∃ r, nextWord isSpace s = some (w, r) ∧ rest = r.dropWhile isSpace := by
  unfold scanLine scanWord at h
  split at h
  · cases h
  · obtain ⟨rfl, rfl⟩ := Prod.mk.inj (Option.some.inj h)
    exact ⟨_, by assumption, rfl⟩

theorem scanLine_shorter {s w rest : List Char} (h : scanLine s = some (w, rest)) :
    rest.length < s.length := by
  obtain ⟨r, hr, rfl⟩ := scanLine_eq_some h
  exact lt_of_le_of_lt (length_dropWhile_le isSpace r) (length_of_nextWord hr)

def loadLoop (mapFd : Int) (replies : ℕ → MapReply) (file : List Char) (s : ListRun) :
    Except ListFault ListRun :=
  match _hline : scanLine file with
  | none => .ok s
  | some (ip, rest) =>
      if ip.length < ipSize then loadLoop mapFd replies rest (updateList mapFd replies ip s).2
      else .error (.ipBuffer ip)
termination_by file.length
decreasing_by exact scanLine_shorter _hline

/-- `load_user_map` on the content of the file, if it can be opened. -/
def loadUserMap (mapFd : Int) (replies : ℕ → MapReply) (file : Option (List Char))
    (s : ListRun) : Except ListFault (Int × ListRun) :=
  match file with
  | none => .ok (1, s)
  | some file =>
      match scanLine file with
      | none => .ok (0, s)
      | some (ip, rest) =>
          if ip.length < ipSize then do
            let s ← loadLoop mapFd replies rest (updateList mapFd replies ip s).2
            .ok (0, s)
          else .error (.ipBuffer ip)

/-! ## The words of the file -/

variable {mapFd : Int} {replies : ℕ → MapReply} {file w : List Char} {s t : ListRun}

def storeWords (mapFd : Int) (replies : ℕ → MapReply) (ws : List (List Char)) (s : ListRun) :
    ListRun :=
  ws.foldl (fun s w ↦ (updateList mapFd replies w s).2) s

theorem words_of_scanLine {rest : List Char} (h : scanLine file = some (w, rest)) :
    words isSpace file = w :: words isSpace rest := by
  obtain ⟨r, hr, rfl⟩ := scanLine_eq_some h
  rw [words_of_nextWord hr, words_dropWhile]

theorem words_of_scanLine_none (h : scanLine file = none) : words isSpace file = [] := by
  apply words_of_nextWord_none
  unfold scanLine scanWord at h
  split at h
  · assumption
  · cases h

/-- The loop ends, at the end of the file or at the first word that does not fit the buffer. -/
theorem loadLoop_eq (mapFd : Int) (replies : ℕ → MapReply) (file : List Char) (s : ListRun) :
    loadLoop mapFd replies file s =
      match (words isSpace file).find? (ipSize ≤ ·.length) with
      | some w => .error (.ipBuffer w)
      | none => .ok (storeWords mapFd replies (words isSpace file) s) := by
  fun_induction loadLoop with
  | case1 file s h =>
      rw [words_of_scanLine_none h]
      rfl
  | case2 file s ip rest h hfits ih =>
      rw [ih, words_of_scanLine h, List.find?_cons_of_neg (by simpa using hfits)]
      rfl
  | case3 file s ip rest h hlong =>
      rw [words_of_scanLine h, List.find?_cons_of_pos (by simpa using hlong)]

theorem loadUserMap_eq (mapFd : Int) (replies : ℕ → MapReply) (file : List Char) (s : ListRun) :
    loadUserMap mapFd replies (some file) s =
      match (words isSpace file).find? (ipSize ≤ ·.length) with
      | some w => .error (.ipBuffer w)
      | none => .ok (0, storeWords mapFd replies (words isSpace file) s) := by
  unfold loadUserMap
  dsimp only
  cases h : scanLine file with
  | none =>
      rw [words_of_scanLine_none h]
      rfl
  | some p =>
      obtain ⟨ip, rest⟩ := p
      rw [words_of_scanLine h]
      by_cases hfits : ip.length < ipSize
      · rw [List.find?_cons_of_neg (by simpa using hfits)]
        simp only [if_pos hfits, loadLoop_eq]
        cases (words isSpace rest).find? (ipSize ≤ ·.length) with
        | none => rfl
        | some w => rfl
      · rw [List.find?_cons_of_pos (by simpa using hfits)]
        simp only [if_neg hfits]

/-! ## What the words add -/

theorem updateList_snd (mapFd : Int) (replies : ℕ → MapReply) (w : List Char) (s : ListRun) :
    (updateList mapFd replies w s).2 =
      match inetPton (cString w) with
      | none => s
      | some key =>
          let res := storeElem key mapFd (replies s.calls.length) s.map
          ⟨res.2, s.calls ++ [res.1]⟩ := by
  unfold updateList
  split
  · rfl
  · dsimp only
    split_ifs <;> rfl

theorem updateList_calls (mapFd : Int) (replies : ℕ → MapReply) (w : List Char) (s : ListRun) :
    ∃ e, (updateList mapFd replies w s).2.calls = s.calls ++ e := by
  rw [updateList_snd]
  split
  · exact ⟨[], (List.append_nil _).symm⟩
  · exact ⟨_, rfl⟩

theorem storeWords_calls (mapFd : Int) (replies : ℕ → MapReply) (ws : List (List Char))
    (s : ListRun) : ∃ e, (storeWords mapFd replies ws s).calls = s.calls ++ e := by
  induction ws generalizing s with
  | nil => exact ⟨[], (List.append_nil _).symm⟩
  | cons w ws ih =>
      obtain ⟨e, he⟩ := updateList_calls mapFd replies w s
      obtain ⟨e', he'⟩ := ih (updateList mapFd replies w s).2
      refine ⟨e ++ e', ?_⟩
      rw [← List.append_assoc, ← he, ← he']
      rfl

def Granted (s : ListRun) : Prop := ∀ e ∈ s.calls, e = 0

instance (s : ListRun) : Decidable (Granted s) :=
  inferInstanceAs (Decidable (∀ e ∈ s.calls, e = 0))

/-- When its call succeeds, `update_list` adds the address that the word stands for, if any. -/
theorem mem_updateList {x : UInt32} (hok : Granted (updateList mapFd replies w s).2) :
    x ∈ (updateList mapFd replies w s).2.map.entries ↔
      x ∈ s.map.entries ∨ inetPton (cString w) = some x := by
  rw [updateList_snd] at hok ⊢
  cases hkey : inetPton (cString w) with
  | none => simp
  | some key =>
      rw [hkey] at hok
      have hres : (storeElem key mapFd (replies s.calls.length) s.map).1 = 0 := hok _ (by simp)
      dsimp only
      rw [storeElem_entries, if_pos hres, Finset.mem_insert, Option.some.injEq, or_comm, eq_comm]

theorem mem_storeWords {x : UInt32} {ws : List (List Char)}
    (hok : Granted (storeWords mapFd replies ws s)) :
    x ∈ (storeWords mapFd replies ws s).map.entries ↔
      x ∈ s.map.entries ∨ ∃ w ∈ ws, inetPton (cString w) = some x := by
  induction ws generalizing s with
  | nil => simp [storeWords]
  | cons w ws ih =>
      have hfirst : Granted (updateList mapFd replies w s).2 := by
        obtain ⟨e, he⟩ := storeWords_calls mapFd replies ws (updateList mapFd replies w s).2
        exact fun r hr ↦ hok r (he ▸ List.mem_append_left e hr)
      rw [storeWords, List.foldl_cons]
      refine (ih hok).trans ?_
      rw [mem_updateList hfirst]
      simp [or_assoc]

/-! ## The file decides membership -/

/-- Some word of the file is a dotted quad that stands for `x`. -/
def Listed (file : List Char) (x : UInt32) : Prop :=
  ∃ w ∈ words isSpace file, ∃ a b c d, DottedQuad w a b c d ∧ x = le32 a b c d

theorem mem_loadUserMap {x : UInt32} {ret : Int} (hnul : '\x00' ∉ file)
    (hrun : loadUserMap mapFd replies (some file) s = .ok (ret, t)) (hok : Granted t) :
    x ∈ t.map.entries ↔ x ∈ s.map.entries ∨ Listed file x := by
  rw [loadUserMap_eq] at hrun
  split at hrun
  · cases hrun
  · obtain ⟨-, rfl⟩ := Prod.mk.inj (Except.ok.inj hrun)
    rw [mem_storeWords hok]
    refine or_congr_right (exists_congr fun w ↦ and_congr_right fun hw ↦ ?_)
    rw [cString_eq fun h ↦ hnul (mem_of_mem_words hw h), inetPton_eq_some_iff]

theorem listed_sourceAddr_iff {f : List UInt8} : Listed file (sourceAddr f) ↔
    ∃ w ∈ words isSpace file, DottedQuad w (byte f 26) (byte f 27) (byte f 28) (byte f 29) := by
  refine exists_congr fun w ↦ and_congr_right fun _ ↦ ?_
  constructor
  · rintro ⟨a, b, c, d, hquad, haddr⟩
    obtain ⟨rfl, rfl, rfl, rfl⟩ := le32_inj.mp haddr
    exact hquad
  · intro hquad
    exact ⟨_, _, _, _, hquad, rfl⟩

/-- An address that stands in the file as `inet_ntop` writes it, as in the output of `trace_read`,
is listed. -/
theorem listed_inetNtop {x : UInt32} (h : inetNtop x ∈ words isSpace file) : Listed file x :=
  ⟨inetNtop x, h, _, _, _, _, dottedQuad_inetNtop x, (le32_imageByte x).symm⟩

/-- The files have the same dotted quads among their words. -/
def SameQuads (file file' : List Char) : Prop :=
  ∀ w, (∃ a b c d, DottedQuad w a b c d) → (w ∈ words isSpace file ↔ w ∈ words isSpace file')

theorem SameQuads.listed_iff {file' : List Char} {x : UInt32} (h : SameQuads file file') :
    Listed file x ↔ Listed file' x := by
  refine exists_congr fun w ↦ and_congr_left ?_
  rintro ⟨a, b, c, d, hquad, -⟩
  exact h w ⟨a, b, c, d, hquad⟩

/-- Loading a file ends, unless a word of it does not fit the buffer. Then the filter finds a source
in the map when it was there before or stands in the file as a dotted quad, and every file with the
same dotted quads has the same effect on the map as it was, and none on the map as it is. -/
theorem list_file_decides (mapFd : Int) (replies : ℕ → MapReply) (file : List Char)
    (m : BlackListMap) {ret : Int} (hnul : '\x00' ∉ file)
    (hrun : loadUserMap mapFd replies (some file) ⟨m, []⟩ = .ok (ret, t)) (hok : Granted t) :
    (∀ fd r s, (∃ t', loadUserMap fd r (some file) s = .ok (0, t')) ∨
      ∃ w ∈ words isSpace file, ipSize ≤ w.length ∧
        loadUserMap fd r (some file) s = .error (.ipBuffer w)) ∧
    (∀ f, Ipv4Valid f →
      ((inWhiteList t.map.entries (sourceAddr f) ↔ inWhiteList m.entries (sourceAddr f) ∨
        ∃ w ∈ words isSpace file, DottedQuad w (byte f 26) (byte f 27) (byte f 28) (byte f 29)) ∧
      (inBlackList t.map.entries (sourceAddr f) ↔ inBlackList m.entries (sourceAddr f) ∨
        ∃ w ∈ words isSpace file, DottedQuad w (byte f 26) (byte f 27) (byte f 28) (byte f 29)))) ∧
    ∀ fd r file' m' ret' t', '\x00' ∉ file' → SameQuads file file' →
      m'.entries = m.entries ∨ m'.entries = t.map.entries →
      loadUserMap fd r (some file') ⟨m', []⟩ = .ok (ret', t') → Granted t' →
        t'.map.entries = t.map.entries := by
  have hmem : ∀ x, x ∈ t.map.entries ↔ x ∈ m.entries ∨ Listed file x :=
    fun x ↦ mem_loadUserMap hnul hrun hok
  refine ⟨fun fd r s ↦ ?_, fun f _ ↦ ?_, fun fd r file' m' ret' t' hnul' hsame hm' hrun' hok' ↦ ?_⟩
  · rw [loadUserMap_eq]
    split
    · rename_i w hfind
      exact Or.inr ⟨w, List.mem_of_find?_eq_some hfind, by simpa using List.find?_some hfind, rfl⟩
    · exact Or.inl ⟨_, rfl⟩
  · simp only [inWhiteList, inBlackList, decide_eq_true_eq]
    rw [hmem, listed_sourceAddr_iff]
    exact ⟨Iff.rfl, Iff.rfl⟩
  · ext x
    rw [mem_loadUserMap hnul' hrun' hok', ← hsame.listed_iff, hmem]
    rcases hm' with h | h
    · rw [h]
    · rw [h, hmem, or_assoc, or_self]

/-- The file `list/whitelist`. -/
def whitelistFile : List Char := "10.2.65.35\n10.10.30.10".toList

def whitelistRun : ListRun :=
  storeWords 4 (fun _ ↦ .granted) (words isSpace whitelistFile) ⟨emptyMap, []⟩

theorem whitelist_decides :
    inWhiteList whitelistRun.map.entries
      (sourceAddr (ipv4Frame 6 0 [10, 10, 30, 10] [10, 10, 10, 10] (List.replicate 20 0))) := by
  have hrun : loadUserMap 4 (fun _ ↦ .granted) (some whitelistFile) ⟨emptyMap, []⟩ =
      .ok (0, whitelistRun) := by
    rw [loadUserMap_eq]
    rfl
  have hgranted : Granted whitelistRun := by decide
  refine ((list_file_decides 4 (fun _ ↦ .granted) whitelistFile emptyMap (by decide) hrun
    hgranted).2.1 _ (by decide)).1.mpr (Or.inr ⟨"10.10.30.10".toList, by decide, ?_⟩)
  exact ⟨"10".toList, "10".toList, "30".toList, "10".toList, octet_eq_some_iff.mp (by decide),
    octet_eq_some_iff.mp (by decide), octet_eq_some_iff.mp (by decide),
    octet_eq_some_iff.mp (by decide), rfl⟩

end AntiDos
