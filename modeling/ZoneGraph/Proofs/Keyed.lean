import ZoneGraph.Keyed
import Mathlib.Data.List.Induction

/-! Laws of values under text keys. A value under a free key is one entry more, and keys
that were inserted stand in ascending order. -/
namespace ZoneGraph.Keyed

variable {α β : Type}

theorem find?_append (key : String) (entries more : Keyed α) :
    find? key (entries ++ more) = (find? key entries).or (find? key more) := by
  induction entries with
  | nil => rfl
  | cons entry rest ih =>
    obtain ⟨k, v⟩ := entry
    rw [List.cons_append, find?, find?]
    split
    · rfl
    · exact ih

theorem find?_eq_none {key : String} {entries : Keyed α} : find? key entries = none ↔ key ∉ entries.keys := by
  induction entries with
  | nil => simp [keys]
  | cons entry rest ih =>
    obtain ⟨k, v⟩ := entry
    rw [find?]
    split
    · rename_i heq
      simp [keys, heq]
    · rename_i hne
      rw [ih]
      simp [keys, Ne.symm hne]

/-! ### Insertion -/

theorem insert_perm {key : String} {value : α} {entries : Keyed α} (h : find? key entries = none) :
    (insert key value entries).Perm ((key, value) :: entries) := by
  induction entries with
  | nil => rfl
  | cons entry rest ih =>
    obtain ⟨k, v⟩ := entry
    rw [find?] at h
    rw [insert]
    split at h
    · cases h
    · rename_i hne
      rw [if_neg (Ne.symm hne)]
      split
      · rfl
      · exact ((ih h).cons (k, v)).trans (List.Perm.swap _ _ _)

theorem mem_keys_insert {key other : String} {value : α} {entries : Keyed α} :
    other ∈ (insert key value entries).keys ↔ other = key ∨ other ∈ entries.keys := by
  rw [← not_iff_not, not_or, ← find?_eq_none, ← find?_eq_none, find?_insert]
  by_cases heq : key = other
  · simp [heq]
  · simp [heq, Ne.symm heq]

theorem sorted_insert {key : String} {value : α} {entries : Keyed α} (h : entries.keys.Pairwise (· < ·)) :
    (insert key value entries).keys.Pairwise (· < ·) := by
  induction entries with
  | nil => simp [insert, keys]
  | cons entry rest ih =>
    obtain ⟨k, v⟩ := entry
    obtain ⟨hfirst, hrest⟩ := List.pairwise_cons.mp h
    rw [insert]
    split
    · rename_i heq
      subst heq
      exact h
    · rename_i hne
      split
      · rename_i hlt
        refine List.pairwise_cons.mpr ⟨fun other ho => ?_, h⟩
        rcases List.mem_cons.mp ho with rfl | ho
        · exact hlt
        · exact String.lt_trans hlt (hfirst other ho)
      · rename_i hle
        have hlt : k < key := Std.lt_of_le_of_ne (String.not_lt.mp hle) (Ne.symm hne)
        refine List.pairwise_cons.mpr ⟨fun other ho => ?_, ih hrest⟩
        rcases mem_keys_insert.mp ho with rfl | ho
        · exact hlt
        · exact hfirst other ho

theorem sorted_foldl_insert {pairs : List (String × α)} {f : α → β} {entries : Keyed β}
    (h : entries.keys.Pairwise (· < ·)) :
    (pairs.foldl (fun entries pair => insert pair.1 (f pair.2) entries) entries).keys.Pairwise (· < ·) := by
  induction pairs generalizing entries with
  | nil => exact h
  | cons pair rest ih => exact ih (sorted_insert h)

theorem sorted_ofList (pairs : List (String × α)) : (ofList pairs).keys.Pairwise (· < ·) :=
  sorted_foldl_insert (f := id) List.Pairwise.nil

theorem mem_insert {key : String} {value : α} {entries : Keyed α} {entry : String × α}
    (h : entry ∈ insert key value entries) : entry = (key, value) ∨ entry ∈ entries := by
  induction entries with
  | nil => exact Or.inl (List.mem_singleton.mp h)
  | cons first rest ih =>
    obtain ⟨k, v⟩ := first
    rw [insert] at h
    split at h
    · exact (List.mem_cons.mp h).imp_right (List.mem_cons_of_mem _)
    · split at h
      · exact List.mem_cons.mp h
      · rcases List.mem_cons.mp h with rfl | h
        · exact Or.inr (List.mem_cons_self ..)
        · exact (ih h).imp_right (List.mem_cons_of_mem _)

theorem ofList_concat (pairs : List (String × α)) (pair : String × α) :
    ofList (pairs ++ [pair]) = insert pair.1 pair.2 (ofList pairs) := by
  simp [ofList]

theorem mem_ofList {pairs : List (String × α)} {entry : String × α} (h : entry ∈ ofList pairs) : entry ∈ pairs := by
  induction pairs using List.reverseRecOn with
  | nil => cases h
  | append_singleton pairs pair ih =>
    rw [ofList_concat] at h
    rcases mem_insert h with rfl | h
    · simp
    · exact List.mem_append_left _ (ih h)

/-! ### Lookup -/

theorem mem_keys_ofList {key : String} {pairs : List (String × α)} :
    key ∈ (ofList pairs).keys ↔ key ∈ pairs.map Prod.fst := by
  induction pairs using List.reverseRecOn with
  | nil => rfl
  | append_singleton pairs pair ih =>
    rw [ofList_concat, mem_keys_insert, ih, List.map_append, List.mem_append, List.map_singleton,
      List.mem_singleton, or_comm]

theorem mem_of_find? {key : String} {value : α} {entries : Keyed α} (h : find? key entries = some value) :
    (key, value) ∈ entries := by
  induction entries with
  | nil => cases h
  | cons entry rest ih =>
    obtain ⟨k, v⟩ := entry
    rw [find?] at h
    split at h
    · rename_i heq
      cases h
      rw [heq]
      exact List.mem_cons_self ..
    · exact List.mem_cons_of_mem _ (ih h)

theorem find?_eq_some_iff {key : String} {value : α} {entries : Keyed α} (h : entries.keys.Pairwise (· < ·)) :
    find? key entries = some value ↔ (key, value) ∈ entries := by
  induction entries with
  | nil => simp
  | cons entry rest ih =>
    obtain ⟨k, v⟩ := entry
    obtain ⟨hfirst, hrest⟩ := List.pairwise_cons.mp h
    rw [find?]
    split
    · rename_i heq
      subst heq
      have hother : (k, value) ∉ rest := fun hmem => String.lt_irrefl k (hfirst k (List.mem_map_of_mem hmem))
      simp [hother, eq_comm]
    · rename_i hne
      rw [ih hrest]
      simp [Ne.symm hne]

theorem keys_mapValues (f : α → β) (entries : Keyed α) : (mapValues f entries).keys = entries.keys := by
  rw [keys, mapValues, List.map_map]
  rfl

theorem find?_mapValues (key : String) (f : α → β) (entries : Keyed α) :
    find? key (mapValues f entries) = (find? key entries).map f := by
  induction entries with
  | nil => rfl
  | cons entry rest ih =>
    obtain ⟨k, v⟩ := entry
    rw [mapValues, List.map_cons, find?, find?]
    split
    · rfl
    · exact ih

theorem find?_filter_ne (key other : String) (entries : Keyed α) :
    find? other (entries.filter fun entry => entry.1 ≠ key) = if other = key then none else find? other entries := by
  induction entries with
  | nil => simp
  | cons entry rest ih =>
    obtain ⟨k, v⟩ := entry
    rw [List.filter_cons]
    by_cases hk : k = key
    · subst hk
      by_cases ho : other = k
      · simpa [ho] using ih
      · simpa [ho, find?, Ne.symm ho] using ih
    · by_cases ho : other = key
      · subst ho
        simpa [hk, find?] using ih
      · by_cases hko : k = other <;> simp_all [find?]

/-- Without its key nothing is left of what was inserted. -/
theorem filter_insert (key : String) (value : α) (entries : Keyed α) :
    (insert key value entries).filter (fun entry => entry.1 ≠ key) = entries.filter fun entry => entry.1 ≠ key := by
  induction entries with
  | nil => simp [insert]
  | cons entry rest ih =>
    obtain ⟨k, v⟩ := entry
    rw [insert]
    split
    · rename_i hk
      simp [hk]
    · split
      · simp
      · rw [List.filter_cons, List.filter_cons, ih]

/-- Pairs that are inserted cover what was there. Of pairs with one key the last counts. -/
theorem find?_foldl_insert (key : String) (pairs : List (String × α)) (f : α → β) (entries : Keyed β) :
    find? key (pairs.foldl (fun entries pair => insert pair.1 (f pair.2) entries) entries) =
      ((find? key (ofList pairs)).map f).or (find? key entries) := by
  induction pairs using List.reverseRecOn with
  | nil => rfl
  | append_singleton pairs pair ih =>
    rw [ofList_concat, List.foldl_append, List.foldl_cons, List.foldl_nil, find?_insert, find?_insert, ih]
    split <;> rfl

theorem find?_flatMap_eq_none {ι : Type} {key : String} {table : ι → Keyed α} {items : List ι}
    (h : ∀ item ∈ items, find? key (table item) = none) : find? key (items.flatMap table) = none := by
  induction items with
  | nil => rfl
  | cons item rest ih =>
    obtain ⟨hitem, hrest⟩ := List.forall_mem_cons.mp h
    rw [List.flatMap_cons, find?_append, hitem, ih hrest]
    rfl

/-- Of several tables the one counts that has the key, if the others have not. -/
theorem find?_flatMap {ι : Type} {key : String} {table : ι → Keyed α} {items : List ι} {item : ι} (hitem : item ∈ items)
    (h : ∀ other ∈ items, other ≠ item → find? key (table other) = none) :
    find? key (items.flatMap table) = find? key (table item) := by
  induction items with
  | nil => cases hitem
  | cons first rest ih =>
    obtain ⟨hfirst, hrest⟩ := List.forall_mem_cons.mp h
    rw [List.flatMap_cons, find?_append]
    by_cases hsame : first = item
    · subst hsame
      cases hown : find? key (table first) with
      | some value => rfl
      | none =>
        refine find?_flatMap_eq_none fun other hother => ?_
        by_cases heq : other = first
        · rw [heq, hown]
        · exact hrest other hother heq
    · rw [hfirst hsame, Option.none_or]
      exact ih ((List.mem_cons.mp hitem).resolve_left (Ne.symm hsame)) hrest

/-! ### Equality -/

/-- Values in the order of their keys are told by what is found under each key. -/
theorem eq_of_find?_eq {entries others : Keyed α} (h : entries.keys.Pairwise (· < ·))
    (h' : others.keys.Pairwise (· < ·)) (hfind : ∀ key, find? key entries = find? key others) : entries = others := by
  have hmem : ∀ entry, entry ∈ entries ↔ entry ∈ others := by
    rintro ⟨key, value⟩
    rw [← find?_eq_some_iff h, hfind, find?_eq_some_iff h']
  have hentries : entries.Pairwise fun first second => first.1 < second.1 := List.pairwise_map.mp h
  have hothers : others.Pairwise fun first second => first.1 < second.1 := List.pairwise_map.mp h'
  have hne : ∀ {first second : String × α}, first.1 < second.1 → first ≠ second := by
    rintro first _ hlt rfl
    exact String.lt_irrefl _ hlt
  have hperm := (List.perm_ext_iff_of_nodup (hentries.imp hne) (hothers.imp hne)).mpr hmem
  refine hperm.eq_of_pairwise ?_ hentries hothers
  intro first second _ _ hlt hgt
  exact absurd hgt (String.lt_asymm hlt)

/-- Values in the order of their keys do not depend on how they are listed. -/
theorem eq_of_perm {entries others : Keyed α} (h : entries.keys.Pairwise (· < ·))
    (h' : others.keys.Pairwise (· < ·)) (hperm : entries.Perm others) : entries = others := by
  refine eq_of_find?_eq h h' fun key => Option.ext fun value => ?_
  rw [find?_eq_some_iff h, find?_eq_some_iff h', hperm.mem_iff]

/-! ### Distinct keys -/

theorem nodup_keys {entries : Keyed α} (h : entries.keys.Pairwise (· < ·)) : entries.keys.Nodup := by
  refine h.imp ?_
  rintro key _ hlt rfl
  exact String.lt_irrefl _ hlt

/-- Pairs with distinct keys are all found where they were put. -/
theorem find?_ofList {key : String} {pairs : List (String × α)} (h : (pairs.map Prod.fst).Nodup) :
    find? key (ofList pairs) = find? key pairs := by
  induction pairs using List.reverseRecOn with
  | nil => rfl
  | append_singleton pairs pair ih =>
    rw [List.map_append, List.nodup_append] at h
    obtain ⟨hpairs, -, hbefore⟩ := h
    rw [ofList_concat, find?_insert, find?_append, ih hpairs]
    split
    · rename_i heq
      subst heq
      have hnone : find? pair.1 pairs = none := find?_eq_none.mpr fun hmem => hbefore _ hmem _ (by simp) rfl
      rw [hnone]
      simp [find?]
    · rename_i hne
      simp [find?, hne]

theorem ofList_eq_self {entries : Keyed α} (h : entries.keys.Pairwise (· < ·)) : ofList entries = entries :=
  eq_of_find?_eq (sorted_ofList entries) h fun _ => find?_ofList (nodup_keys h)

theorem ofList_perm {pairs : List (String × α)} (h : (pairs.map Prod.fst).Nodup) : (ofList pairs).Perm pairs := by
  induction pairs using List.reverseRecOn with
  | nil => rfl
  | append_singleton pairs pair ih =>
    rw [List.map_append, List.nodup_append] at h
    obtain ⟨hpairs, -, hbefore⟩ := h
    have hfree : find? pair.1 (ofList pairs) = none := by
      rw [find?_eq_none, mem_keys_ofList]
      exact fun hmem => hbefore _ hmem _ (by simp) rfl
    calc
      ofList (pairs ++ [pair]) = insert pair.1 pair.2 (ofList pairs) := ofList_concat pairs pair
      List.Perm _ (pair :: ofList pairs) := insert_perm hfree
      List.Perm _ (pair :: pairs) := (ih hpairs).cons pair
      List.Perm _ (pairs ++ [pair]) := (List.perm_append_singleton pair pairs).symm

/-- Pairs with distinct keys may be inserted in any order. -/
theorem ofList_eq_of_perm {pairs others : List (String × α)} (h : (pairs.map Prod.fst).Nodup)
    (hperm : pairs.Perm others) : ofList pairs = ofList others := by
  have hothers : (others.map Prod.fst).Nodup := (hperm.map Prod.fst).nodup_iff.mp h
  exact eq_of_perm (sorted_ofList pairs) (sorted_ofList others)
    ((ofList_perm h).trans (hperm.trans (ofList_perm hothers).symm))

end ZoneGraph.Keyed
