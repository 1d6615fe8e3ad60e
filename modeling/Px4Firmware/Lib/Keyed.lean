import Mathlib.Data.List.Nodup
import Mathlib.Data.List.Sort

/-!
# Px4Firmware.Lib.Keyed

**Arrays of entries with distinct keys**, searched from the front and kept sorted by key.
A search gives the place of an entry (`indexOfKey`) or the entry itself (`lookupKey`); with
distinct keys, changing or erasing the entry at a place is the same as doing it to every entry
with its key, and so the array is a finite map: the lemmas say what each operation does to
`lookupKey`, and that it keeps the array strictly sorted.
-/

namespace Px4Firmware.Lib

universe u v

variable {α : Type u} {κ : Type v}

section

variable [DecidableEq κ] (key : α → κ)

/-- The place of the first entry with a key. -/
def indexOfKey (k : κ) (l : List α) : Option Nat := l.findIdx? fun a => key a = k

/-- The first entry with a key. -/
def lookupKey (k : κ) (l : List α) : Option α := l.find? fun a => key a = k

@[simp] theorem lookupKey_nil (k : κ) : lookupKey key k ([] : List α) = none := rfl

theorem lookupKey_cons (k : κ) (a : α) (l : List α) :
    lookupKey key k (a :: l) = if key a = k then some a else lookupKey key k l := by
  unfold lookupKey
  rw [List.find?_cons]
  by_cases h : key a = k <;> simp [h]

theorem indexOfKey_cons (k : κ) (a : α) (l : List α) :
    indexOfKey key k (a :: l) = if key a = k then some 0 else (indexOfKey key k l).map (· + 1) := by
  unfold indexOfKey
  rw [List.findIdx?_cons]
  by_cases h : key a = k <;> simp [h]

variable {key} {k : κ} {l : List α}

theorem lookupKey_eq_none_iff : lookupKey key k l = none ↔ k ∉ l.map key := by
  unfold lookupKey
  rw [List.find?_eq_none]
  simp only [decide_eq_true_eq, List.mem_map, not_exists, not_and]

theorem key_of_lookupKey {a : α} (h : lookupKey key k l = some a) : key a = k := by
  unfold lookupKey at h
  simpa using List.find?_some h

theorem mem_of_lookupKey {a : α} (h : lookupKey key k l = some a) : a ∈ l :=
  List.mem_of_find?_eq_some h

/-- A search by place finds what a search by entry finds. -/
theorem indexOfKey_eq_none_iff : indexOfKey key k l = none ↔ lookupKey key k l = none := by
  induction l with
  | nil => simp [indexOfKey]
  | cons a l ih =>
      rw [indexOfKey_cons, lookupKey_cons]
      split_ifs
      · simp
      · rw [Option.map_eq_none_iff, ih]

theorem getElem?_of_indexOfKey {i : Nat} (h : indexOfKey key k l = some i) :
    l[i]? = lookupKey key k l := by
  induction l generalizing i with
  | nil => simp [indexOfKey] at h
  | cons a l ih =>
      rw [indexOfKey_cons] at h
      rw [lookupKey_cons]
      split_ifs at h ⊢
      · cases h
        rfl
      · obtain ⟨j, hj, rfl⟩ := Option.map_eq_some_iff.mp h
        rw [List.getElem?_cons_succ]
        exact ih hj

/-! ### Changing one entry -/

/-- With distinct keys, changing the entry at the place of a key changes every entry with that
key. -/
theorem modify_eq_map (hkeys : (l.map key).Nodup) {i : Nat} (h : indexOfKey key k l = some i)
    (f : α → α) : l.modify i f = l.map fun a => if key a = k then f a else a := by
  induction l generalizing i with
  | nil => simp [indexOfKey] at h
  | cons a l ih =>
      rw [List.map_cons, List.nodup_cons] at hkeys
      rw [indexOfKey_cons] at h
      split_ifs at h with ha
      · cases h
        rw [List.modify_zero_cons, List.map_cons, if_pos ha]
        have hrest : ∀ b ∈ l, (if key b = k then f b else b) = b := by
          intro b hb
          rw [if_neg]
          rintro hb'
          exact hkeys.1 (List.mem_map.mpr ⟨b, hb, hb'.trans ha.symm⟩)
        rw [List.map_congr_left hrest, List.map_id']
      · obtain ⟨j, hj, rfl⟩ := Option.map_eq_some_iff.mp h
        rw [List.modify_succ_cons, List.map_cons, if_neg ha, ih hkeys.2 hj]

/-- With distinct keys, erasing the entry at the place of a key keeps those with another key. -/
theorem eraseIdx_eq_filter (hkeys : (l.map key).Nodup) {i : Nat}
    (h : indexOfKey key k l = some i) : l.eraseIdx i = l.filter fun a => key a ≠ k := by
  induction l generalizing i with
  | nil => rfl
  | cons a l ih =>
      rw [List.map_cons, List.nodup_cons] at hkeys
      rw [indexOfKey_cons] at h
      split_ifs at h with ha
      · cases h
        have hrest : ∀ b ∈ l, decide (key b ≠ k) = true := by
          intro b hb
          rw [decide_eq_true_eq]
          intro hb'
          exact hkeys.1 (List.mem_map.mpr ⟨b, hb, hb'.trans ha.symm⟩)
        rw [List.eraseIdx_cons_zero, List.filter_cons_of_neg (by simp [ha]),
          List.filter_eq_self.mpr hrest]
      · obtain ⟨j, hj, rfl⟩ := Option.map_eq_some_iff.mp h
        rw [List.eraseIdx_cons_succ, List.filter_cons_of_pos (by simp [ha]), ih hkeys.2 hj]

/-! ### Looking up what an operation leaves -/

/-- Entries change and keep their keys. -/
theorem lookupKey_map {f : α → α} (hf : ∀ a, key (f a) = key a) (k : κ) (l : List α) :
    lookupKey key k (l.map f) = (lookupKey key k l).map f := by
  induction l with
  | nil => rfl
  | cons a l ih =>
      rw [List.map_cons, lookupKey_cons, lookupKey_cons, hf, ih]
      split_ifs <;> rfl

theorem lookupKey_filter_self (k : κ) (l : List α) :
    lookupKey key k (l.filter fun a => key a ≠ k) = none := by
  rw [lookupKey_eq_none_iff]
  simp

theorem lookupKey_filter_of_ne {k k' : κ} (hne : k' ≠ k) (l : List α) :
    lookupKey key k' (l.filter fun a => key a ≠ k) = lookupKey key k' l := by
  induction l with
  | nil => rfl
  | cons a l ih =>
      by_cases ha : key a = k
      · have hk' : key a ≠ k' := fun h => hne (h.symm.trans ha)
        rw [List.filter_cons_of_neg (by simp [ha]), lookupKey_cons, if_neg hk', ih]
      · rw [List.filter_cons_of_pos (by simp [ha]), lookupKey_cons, lookupKey_cons, ih]

theorem lookupKey_append (k : κ) (l l' : List α) :
    lookupKey key k (l ++ l') = (lookupKey key k l).or (lookupKey key k l') := by
  unfold lookupKey
  rw [List.find?_append]

/-- With distinct keys, every entry is found by its key. -/
theorem lookupKey_of_mem {l : List α} (hkeys : (l.map key).Nodup) {a : α} (ha : a ∈ l) :
    lookupKey key (key a) l = some a := by
  cases h : lookupKey key (key a) l with
  | none => exact absurd (List.mem_map_of_mem ha) (lookupKey_eq_none_iff.mp h)
  | some b =>
      rw [List.inj_on_of_nodup_map hkeys (mem_of_lookupKey h) ha (key_of_lookupKey h)]

/-- With distinct keys, every entry is found at its place. -/
theorem indexOfKey_of_getElem? {l : List α} (hkeys : (l.map key).Nodup) {i : Nat} {a : α}
    (ha : l[i]? = some a) : indexOfKey key (key a) l = some i := by
  induction l generalizing i with
  | nil => exact nomatch ha
  | cons b l ih =>
      rw [List.map_cons, List.nodup_cons] at hkeys
      rw [indexOfKey_cons]
      cases i with
      | zero =>
          cases ha
          exact if_pos rfl
      | succ i =>
          rw [List.getElem?_cons_succ] at ha
          have hne : key b ≠ key a := fun h =>
            hkeys.1 (h ▸ List.mem_map_of_mem (List.mem_of_getElem? ha))
          rw [if_neg hne, ih hkeys.2 ha]
          rfl

/-- With distinct keys, the order of the entries does not matter. -/
theorem lookupKey_perm {l l' : List α} (hperm : l.Perm l') (hkeys : (l.map key).Nodup) (k : κ) :
    lookupKey key k l = lookupKey key k l' := by
  cases h : lookupKey key k l with
  | none =>
      rw [lookupKey_eq_none_iff] at h
      exact (lookupKey_eq_none_iff.mpr fun hk => h ((hperm.map key).mem_iff.mpr hk)).symm
  | some a =>
      have hmem : a ∈ l' := hperm.mem_iff.mp (mem_of_lookupKey h)
      have hkey := key_of_lookupKey h
      cases h' : lookupKey key k l' with
      | none =>
          rw [lookupKey_eq_none_iff] at h'
          exact absurd (List.mem_map.mpr ⟨a, hmem, hkey⟩) h'
      | some b =>
          have hmem' : b ∈ l := hperm.mem_iff.mpr (mem_of_lookupKey h')
          rw [List.inj_on_of_nodup_map hkeys (mem_of_lookupKey h) hmem'
            (hkey.trans (key_of_lookupKey h').symm)]

end

/-! ### Sorted arrays -/

section

variable [LinearOrder κ] {key : α → κ} {l : List α}

/-- Strictly sorted by key. -/
def SortedByKey (key : α → κ) (l : List α) : Prop := l.Pairwise fun a b => key a < key b

theorem SortedByKey.nodup (h : SortedByKey key l) : (l.map key).Nodup := by
  rw [List.Nodup, List.pairwise_map]
  exact h.imp fun hab => hab.ne

theorem SortedByKey.map (h : SortedByKey key l) {f : α → α} (hf : ∀ a, key (f a) = key a) :
    SortedByKey key (l.map f) := by
  unfold SortedByKey
  rw [List.pairwise_map]
  simpa only [hf, SortedByKey] using h

theorem SortedByKey.filter (h : SortedByKey key l) (p : α → Bool) : SortedByKey key (l.filter p) :=
  List.Pairwise.filter p h

/-- Sorting entries with distinct keys sorts them strictly. -/
theorem sortedByKey_insertionSort {r : α → α → Prop} [DecidableRel r]
    (hr : ∀ a b, r a b ↔ key a ≤ key b) (hkeys : (l.map key).Nodup) :
    SortedByKey key (l.insertionSort r) := by
  have : Std.Total r := ⟨fun a b => by simpa only [hr] using le_total (key a) (key b)⟩
  have : IsTrans α r := ⟨fun a b c => by simpa only [hr] using le_trans⟩
  have hle : (l.insertionSort r).Pairwise fun a b => key a ≤ key b :=
    (List.pairwise_insertionSort r l).imp fun hab => (hr _ _).mp hab
  have hnodup : ((l.insertionSort r).map key).Nodup :=
    ((List.perm_insertionSort r l).map key).nodup_iff.mpr hkeys
  rw [List.Nodup, List.pairwise_map] at hnodup
  exact hle.imp₂ (fun _ _ => lt_of_le_of_ne) hnodup

end

end Px4Firmware.Lib
