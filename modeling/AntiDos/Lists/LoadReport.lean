import AntiDos.Lists.LoadUserMap
import AntiDos.Poller.ChangeResult

/-!
# What a load of a list file reports

`load_user_map` returns `0` once it has read the file. So its result tells that the list is in the
map only where nothing can have gone wrong: every word is a dotted quad, the kernel accepts every
update, and the map has room for the addresses that are new.
-/

namespace AntiDos

open Inet Scanf Words

variable {mapFd : Int} {replies : ℕ → MapReply} {file w : List Char} {ws : List (List Char)}
  {s : ListRun} {m : BlackListMap}

/-! ## One word -/

def IsAddress (w : List Char) : Prop := ∃ a b c d, DottedQuad (cString w) a b c d

theorem isAddress_iff : IsAddress w ↔ ∃ key, inetPton (cString w) = some key := by
  constructor
  · rintro ⟨a, b, c, d, hquad⟩
    exact ⟨_, inetPton_eq_some_iff.mpr ⟨a, b, c, d, hquad, rfl⟩⟩
  · rintro ⟨key, hkey⟩
    obtain ⟨a, b, c, d, hquad, -⟩ := inetPton_eq_some_iff.mp hkey
    exact ⟨a, b, c, d, hquad⟩

def Rejected (mapFd : Int) (reply : MapReply) (w : List Char) (m : BlackListMap) : Prop :=
  ∃ key, inetPton (cString w) = some key ∧ (storeElem key mapFd reply m).1 ≠ 0

theorem storeElem_eq_zero_iff {key : UInt32} {reply : MapReply} :
    (storeElem key mapFd reply m).1 = 0 ↔
      reply.update = 0 ∧ (key ∈ m.entries ∨ m.entries.card < blackListEntries) := by
  refine (bpfMapUpdateElem_eq_zero_iff reply mapFd key { m with fds := {mapFd} }).trans ?_
  exact and_iff_right (Finset.mem_singleton_self mapFd)

/-- `update_list` returns `0` for a rejected address and `1` for one that is stored, as for a word
that is no address. -/
theorem updateList_eq_zero_iff :
    (updateList mapFd replies w s).1 = 0 ↔
      Rejected mapFd (replies s.calls.length) w s.map := by
  unfold updateList Rejected
  cases hkey : inetPton (cString w) with
  | none => simp
  | some key =>
      dsimp only
      split
      · rename_i hstored
        simp [hstored]
      · rename_i hrejected
        simp [hrejected]

theorem updateList_bit (mapFd : Int) (replies : ℕ → MapReply) (w : List Char) (s : ListRun) :
    (updateList mapFd replies w s).1 = 0 ∨ (updateList mapFd replies w s).1 = 1 := by
  unfold updateList
  split
  · exact Or.inr rfl
  · dsimp only
    split
    · exact Or.inr rfl
    · exact Or.inl rfl

/-! ## The words of a file -/

def addresses (ws : List (List Char)) : Finset UInt32 :=
  (ws.filterMap fun w ↦ inetPton (cString w)).toFinset

/-- A map of `capacity` entries that holds `E` has room for all of `A`. -/
def HasRoom (capacity : ℕ) (E A : Finset UInt32) : Prop :=
  A ⊆ E ∨ (E ∪ A).card ≤ capacity

theorem hasRoom_insert_iff {capacity : ℕ} {E A : Finset UInt32} {key : UInt32} :
    HasRoom capacity E (insert key A) ↔
      (key ∈ E ∨ E.card < capacity) ∧ HasRoom capacity (insert key E) A := by
  have hunion : E ∪ insert key A = insert key E ∪ A := by
    rw [Finset.union_insert, Finset.insert_union]
  by_cases hkey : key ∈ E
  · rw [HasRoom, HasRoom, hunion, Finset.insert_eq_of_mem hkey, Finset.insert_subset_iff]
    simp [hkey]
  · have hcard : (insert key E).card = E.card + 1 := Finset.card_insert_of_notMem hkey
    have hle : (insert key E).card ≤ (insert key E ∪ A).card :=
      Finset.card_le_card Finset.subset_union_left
    rw [HasRoom, HasRoom, hunion, Finset.insert_subset_iff, or_iff_right hkey]
    constructor
    · rintro (⟨hmem, -⟩ | hroom)
      · exact absurd hmem hkey
      · exact ⟨by omega, Or.inr hroom⟩
    · rintro ⟨hlt, hsub | hroom⟩
      · refine Or.inr ?_
        rw [Finset.union_eq_left.mpr hsub]
        omega
      · exact Or.inr hroom

theorem addresses_cons {key : UInt32} (hkey : inetPton (cString w) = some key) :
    addresses (w :: ws) = insert key (addresses ws) := by
  simp [addresses, hkey]

theorem granted_snoc (map : BlackListMap) {map' : BlackListMap} {calls : List Int} {e : Int} :
    Granted ⟨map', calls ++ [e]⟩ ↔ Granted ⟨map, calls⟩ ∧ e = 0 := by
  constructor
  · intro h
    exact ⟨fun r hr ↦ h r (List.mem_append_left _ hr), h e (by simp)⟩
  · rintro ⟨hcalls, rfl⟩ r hr
    rcases List.mem_append.mp hr with hr | hr
    · exact hcalls r hr
    · exact List.mem_singleton.mp hr

theorem granted_storeWords_iff (haddr : ∀ w ∈ ws, IsAddress w) :
    Granted (storeWords mapFd replies ws s) ↔ Granted s ∧
      (∀ i < ws.length, (replies (s.calls.length + i)).update = 0) ∧
      HasRoom blackListEntries s.map.entries (addresses ws) := by
  induction ws generalizing s with
  | nil => simp [storeWords, addresses, HasRoom]
  | cons w ws ih =>
      obtain ⟨key, hkey⟩ := isAddress_iff.mp (haddr w List.mem_cons_self)
      have hlater : ∀ w ∈ ws, IsAddress w := fun v hv ↦ haddr v (List.mem_cons_of_mem w hv)
      have hnext : (updateList mapFd replies w s).2 =
          ⟨(storeElem key mapFd (replies s.calls.length) s.map).2,
            s.calls ++ [(storeElem key mapFd (replies s.calls.length) s.map).1]⟩ := by
        rw [updateList_snd, hkey]
      have hfold : storeWords mapFd replies (w :: ws) s =
          storeWords mapFd replies ws (updateList mapFd replies w s).2 := rfl
      rw [hfold, ih hlater, hnext, granted_snoc s.map, addresses_cons hkey,
        hasRoom_insert_iff]
      by_cases hzero : (storeElem key mapFd (replies s.calls.length) s.map).1 = 0
      · obtain ⟨hupdate, hroom⟩ := storeElem_eq_zero_iff.mp hzero
        have hreplies : (∀ i < (w :: ws).length, (replies (s.calls.length + i)).update = 0) ↔
            ∀ i < ws.length, (replies (s.calls.length + 1 + i)).update = 0 := by
          rw [List.length_cons, Nat.forall_lt_succ_left]
          simp [hupdate, Nat.add_comm, Nat.add_left_comm]
        rw [hreplies, storeElem_entries, if_pos hzero]
        simp [hroom, hzero]
      · refine iff_of_false (fun h ↦ hzero h.1.2) fun h ↦ hzero ?_
        exact storeElem_eq_zero_iff.mpr ⟨h.2.1 0 (Nat.succ_pos _), h.2.2.1⟩

/-! ## The result -/

/-- The load ends, and its result is `0` exactly when every word of the file was an address and was
stored. -/
def LoadTruthful (mapFd : Int) (replies : ℕ → MapReply) (file : List Char) (m : BlackListMap) :
    Prop :=
  ∃ ret t, loadUserMap mapFd replies (some file) ⟨m, []⟩ = .ok (ret, t) ∧
    (ret = 0 ↔ (∀ w ∈ words isSpace file, IsAddress w) ∧ Granted t)

theorem loadTruthful_iff_stored :
    LoadTruthful mapFd replies file m ↔
      (∀ w ∈ words isSpace file, w.length < ipSize ∧ IsAddress w) ∧
        Granted (storeWords mapFd replies (words isSpace file) ⟨m, []⟩) := by
  unfold LoadTruthful
  rw [loadUserMap_eq]
  constructor
  · rintro ⟨ret, t, hrun, hret⟩
    split at hrun
    · cases hrun
    · rename_i hfits
      obtain ⟨rfl, rfl⟩ := Prod.mk.inj (Except.ok.inj hrun)
      obtain ⟨haddr, hgranted⟩ := hret.mp rfl
      refine ⟨fun w hw ↦ ⟨?_, haddr w hw⟩, hgranted⟩
      simpa using List.find?_eq_none.mp hfits w hw
  · rintro ⟨hwords, hgranted⟩
    have hfits : (words isSpace file).find? (ipSize ≤ ·.length) = none :=
      List.find?_eq_none.mpr fun w hw ↦ by simpa using (hwords w hw).1
    rw [hfits]
    exact ⟨0, _, rfl, iff_of_true rfl ⟨fun w hw ↦ (hwords w hw).2, hgranted⟩⟩

/-- The load is truthful exactly when nothing goes wrong in it; and `update_list` tells a rejected
address from the two other outcomes, but not these from each other. -/
theorem load_truthful_iff (mapFd : Int) (replies : ℕ → MapReply) (file : List Char)
    (m : BlackListMap) :
    (LoadTruthful mapFd replies file m ↔
      (∀ w ∈ words isSpace file, w.length < ipSize ∧ IsAddress w) ∧
      (∀ i < (words isSpace file).length, (replies i).update = 0) ∧
      HasRoom blackListEntries m.entries (addresses (words isSpace file))) ∧
    ∀ w s, ((updateList mapFd replies w s).1 = 0 ↔
        Rejected mapFd (replies s.calls.length) w s.map) ∧
      ((updateList mapFd replies w s).1 = 1 ↔
        ¬ Rejected mapFd (replies s.calls.length) w s.map) := by
  constructor
  · rw [loadTruthful_iff_stored]
    apply and_congr_right
    intro hwords
    rw [granted_storeWords_iff fun w hw ↦ (hwords w hw).2]
    simp [Granted]
  · intro w s
    rw [← updateList_eq_zero_iff]
    rcases updateList_bit mapFd replies w s with h | h
    · simp [h]
    · simp [h]

/-- The only address of the file is rejected by the full map, and the load returns `0`. -/
theorem load_on_full_map_not_truthful :
    ¬ LoadTruthful 4 (fun _ ↦ .granted) "10.0.0.7\n".toList fullMap := by
  have hwords : words isSpace "10.0.0.7\n".toList = ["10.0.0.7".toList] := by decide
  have hkey : inetPton (cString "10.0.0.7".toList) = some 0x0700000A := by decide
  rw [loadTruthful_iff_stored, hwords]
  rintro ⟨haddr, hgranted⟩
  rw [granted_storeWords_iff fun w hw ↦ (haddr w hw).2, addresses_cons hkey,
    hasRoom_insert_iff] at hgranted
  obtain ⟨-, -, hroom, -⟩ := hgranted
  rcases hroom with hmem | hlt
  · exact not_mem_fullMap (by decide) hmem
  · exact absurd fullMap_card hlt.ne

end AntiDos
