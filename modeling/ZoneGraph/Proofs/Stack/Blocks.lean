import ZoneGraph.Proofs.Keyed
import Mathlib.Data.List.Nodup

/-! Values under two text keys: blocks of values under a first key, each under a second key.
Putting one value changes what is found under its two keys and nothing else, so values that
are put under distinct keys are all there and there is nothing else. -/
namespace ZoneGraph.Keyed

variable {α ι : Type} {blocks : Keyed (Keyed α)} {kind id : String} {value : α}

def put (kind id : String) (value : α) (blocks : Keyed (Keyed α)) : Keyed (Keyed α) :=
  insert kind (insert id value ((find? kind blocks).getD [])) blocks

def at? (kind id : String) (blocks : Keyed (Keyed α)) : Option α := (find? kind blocks).bind (find? id)

/-- The values under two keys with these, in order. -/
def entries (blocks : Keyed (Keyed α)) : List (String × String × α) :=
  blocks.flatMap fun block => block.2.map fun entry => (block.1, entry)

/-- Whether the keys of both levels are in order and no block is empty. -/
structure Nested (blocks : Keyed (Keyed α)) : Prop where
  sorted : blocks.keys.Pairwise (· < ·)
  inner : ∀ block ∈ blocks, block.2.keys.Pairwise (· < ·)
  nonempty : ∀ block ∈ blocks, block.2 ≠ []

theorem nested_nil : Nested ([] : Keyed (Keyed α)) := ⟨List.Pairwise.nil, by simp, by simp⟩

theorem insert_ne_nil (key : String) (value : α) (entries : Keyed α) : insert key value entries ≠ [] := by
  cases entries with
  | nil => simp [insert]
  | cons entry rest =>
    rw [insert]
    split_ifs <;> simp

theorem at?_put (kind id other otherId : String) (value : α) (blocks : Keyed (Keyed α)) :
    at? other otherId (put kind id value blocks) =
      if kind = other ∧ id = otherId then some value else at? other otherId blocks := by
  unfold at? put
  rw [find?_insert]
  by_cases hkind : kind = other
  · subst hkind
    rw [if_pos rfl, Option.bind_some, find?_insert]
    cases find? kind blocks <;> simp
  · simp [hkind]

namespace Nested

theorem put (h : Nested blocks) (kind id : String) (value : α) : Nested (put kind id value blocks) := by
  have hblock : ((find? kind blocks).getD []).keys.Pairwise (· < ·) := by
    cases hfind : find? kind blocks with
    | none => exact List.Pairwise.nil
    | some block => exact h.inner _ (mem_of_find? hfind)
  refine ⟨sorted_insert h.sorted, fun block hmem => ?_, fun block hmem => ?_⟩
  · rcases mem_insert hmem with rfl | hmem
    · exact sorted_insert hblock
    · exact h.inner block hmem
  · rcases mem_insert hmem with rfl | hmem
    · exact insert_ne_nil _ _ _
    · exact h.nonempty block hmem

theorem mem_entries_iff (h : Nested blocks) : (kind, id, value) ∈ entries blocks ↔ at? kind id blocks = some value := by
  rw [entries, List.mem_flatMap, at?, Option.bind_eq_some_iff]
  constructor
  · rintro ⟨block, hblock, hentry⟩
    obtain ⟨entry, hentry, hsame⟩ := List.mem_map.mp hentry
    cases hsame
    exact ⟨block.2, (find?_eq_some_iff h.sorted).mpr hblock, (find?_eq_some_iff (h.inner block hblock)).mpr hentry⟩
  · rintro ⟨block, hblock, hentry⟩
    exact ⟨_, mem_of_find? hblock, List.mem_map.mpr ⟨_, mem_of_find? hentry, rfl⟩⟩

theorem nodup_entries (h : Nested blocks) : (entries blocks).Nodup := by
  have hnodup : ∀ {β : Type} {table : Keyed β}, table.keys.Pairwise (· < ·) → table.Pairwise fun x y => x.1 ≠ y.1 := by
    intro β table hsorted
    refine (List.pairwise_map.mp hsorted).imp fun hlt heq => ?_
    rw [heq] at hlt
    exact String.lt_irrefl _ hlt
  rw [entries, List.nodup_flatMap]
  constructor
  · intro block hblock
    refine List.Nodup.map (fun _ _ => congrArg Prod.snd) ?_
    exact (hnodup (h.inner block hblock)).imp fun hne heq => hne (congrArg Prod.fst heq)
  · refine (hnodup h.sorted).imp fun {block other} hne entry hentry hother => ?_
    obtain ⟨_, -, rfl⟩ := List.mem_map.mp hentry
    obtain ⟨_, -, hsame⟩ := List.mem_map.mp hother
    exact hne (congrArg Prod.fst hsame).symm

/-- A block is told by its values, of which there is one at least. -/
theorem find?_of_at?_eq {others : Keyed (Keyed α)} {block : Keyed α} (h : Nested blocks) (h' : Nested others)
    (hat : ∀ id, at? kind id blocks = at? kind id others) (hblock : find? kind blocks = some block) :
    find? kind others = some block := by
  have hat (id : String) : find? id block = at? kind id others := by
    rw [← hat, at?, hblock, Option.bind_some]
  have hinner : block.keys.Pairwise (· < ·) := h.inner _ (mem_of_find? hblock)
  obtain ⟨entry, hentry⟩ := List.exists_mem_of_ne_nil _ (h.nonempty _ (mem_of_find? hblock))
  have hfound := hat entry.1
  rw [(find?_eq_some_iff hinner).mpr hentry, at?, eq_comm, Option.bind_eq_some_iff] at hfound
  obtain ⟨other, hother, -⟩ := hfound
  have hsame : block = other := eq_of_find?_eq hinner (h'.inner _ (mem_of_find? hother)) fun id => by
    rw [hat, at?, hother, Option.bind_some]
  rw [hother, hsame]

/-- Blocks do not depend on how their values are listed. -/
theorem eq_of_perm {others : Keyed (Keyed α)} (h : Nested blocks) (h' : Nested others)
    (hperm : (entries blocks).Perm (entries others)) : blocks = others := by
  have hat (kind id : String) : at? kind id blocks = at? kind id others := by
    refine Option.ext fun value => ?_
    rw [← h.mem_entries_iff, ← h'.mem_entries_iff, hperm.mem_iff]
  refine eq_of_find?_eq h.sorted h'.sorted fun kind => Option.ext fun block => ?_
  exact ⟨h.find?_of_at?_eq h' (hat kind), h'.find?_of_at?_eq h fun id => (hat kind id).symm⟩

end Nested

/-! ### Several values -/

section PutAll
variable (place : ι → String × String) (valueOf : ι → α)

def putAll (items : List ι) (blocks : Keyed (Keyed α)) : Keyed (Keyed α) :=
  items.foldl (fun blocks item => put (place item).1 (place item).2 (valueOf item) blocks) blocks

variable {place valueOf} {items : List ι}

theorem putAll_cons (item : ι) (rest : List ι) (blocks : Keyed (Keyed α)) :
    putAll place valueOf (item :: rest) blocks =
      putAll place valueOf rest (put (place item).1 (place item).2 (valueOf item) blocks) := rfl

theorem Nested.putAll (h : Nested blocks) (items : List ι) : Nested (putAll place valueOf items blocks) := by
  induction items generalizing blocks with
  | nil => exact h
  | cons item rest ih => exact ih (h.put _ _ _)

/-- Under two keys is the value of the item with these, or what was there before. -/
theorem at?_putAll (hnodup : (items.map place).Nodup) : at? kind id (putAll place valueOf items blocks) = some value ↔
    (∃ item ∈ items, place item = (kind, id) ∧ valueOf item = value) ∨
      ((kind, id) ∉ items.map place ∧ at? kind id blocks = some value) := by
  induction items generalizing blocks with
  | nil => simp [putAll]
  | cons item rest ih =>
    obtain ⟨hitem, hrest⟩ := List.nodup_cons.mp hnodup
    rw [putAll_cons, ih hrest, at?_put, List.map_cons, List.mem_cons, not_or]
    simp only [List.mem_cons, or_and_right, exists_or, exists_eq_left]
    by_cases hplace : place item = (kind, id)
    · have hfree : (kind, id) ∉ rest.map place := hplace ▸ hitem
      have hnone : ¬ ∃ other ∈ rest, place other = (kind, id) ∧ valueOf other = value := by
        rintro ⟨other, hother, hsame, -⟩
        exact hfree (List.mem_map.mpr ⟨other, hother, hsame⟩)
      simp [hplace, hfree, hnone]
    · have hother : ¬ ((place item).1 = kind ∧ (place item).2 = id) := fun h => hplace (Prod.ext h.1 h.2)
      simp [hplace, hother, Ne.symm hplace]

/-- Values under distinct keys are all there, and nothing else is. -/
theorem entries_putAll (hnodup : (items.map place).Nodup) :
    (entries (putAll place valueOf items [])).Perm
      (items.map fun item => ((place item).1, (place item).2, valueOf item)) := by
  have hnested : Nested (putAll place valueOf items []) := nested_nil.putAll items
  have hitems : (items.map fun item => ((place item).1, (place item).2, valueOf item)).Nodup := by
    refine List.Nodup.of_map (fun entry => (entry.1, entry.2.1)) ?_
    rw [List.map_map]
    exact hnodup
  refine (List.perm_ext_iff_of_nodup hnested.nodup_entries hitems).mpr ?_
  rintro ⟨kind, id, value⟩
  rw [hnested.mem_entries_iff, at?_putAll hnodup]
  constructor
  · rintro (⟨item, hitem, hplace, rfl⟩ | ⟨-, hnone⟩)
    · exact List.mem_map.mpr ⟨item, hitem, by rw [hplace]⟩
    · cases hnone
  · intro hmem
    obtain ⟨item, hitem, hsame⟩ := List.mem_map.mp hmem
    cases hsame
    exact Or.inl ⟨item, hitem, rfl, rfl⟩

end PutAll

end ZoneGraph.Keyed
