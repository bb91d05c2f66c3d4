import Mathlib.Data.List.Basic
import Mathlib.Data.List.Induction
import Mathlib.Data.List.Nodup

/-! What comes first in a list, and lists without their repetitions. Of the items that count
as one the first is kept, so what is kept stands in the order in which it first appears. -/
namespace ZoneGraph

variable {α : Type}

theorem exists_first {P : α → Prop} {items : List α} (h : ∃ item ∈ items, P item) :
    ∃ before item after, items = before ++ item :: after ∧ (∀ other ∈ before, ¬ P other) ∧ P item := by
  classical
  obtain ⟨found, hfound⟩ : ∃ found, items.find? (fun item => decide (P item)) = some found := by
    rw [← Option.isSome_iff_exists, List.find?_isSome]
    simpa using h
  obtain ⟨hitem, before, after, hsplit, hbefore⟩ := List.find?_eq_some_iff_append.mp hfound
  exact ⟨before, found, after, hsplit, by simpa using hbefore, of_decide_eq_true hitem⟩

/-- If items of a list count as one then some item is the first that counts as an earlier one. -/
theorem exists_first_repeated {β : Type} {key : α → β} {items : List α} (h : ¬ (items.map key).Nodup) :
    ∃ before item after, items = before ++ item :: after ∧ (before.map key).Nodup ∧ key item ∈ before.map key := by
  induction items using List.reverseRecOn with
  | nil => exact absurd List.nodup_nil h
  | append_singleton items item ih =>
    by_cases hitems : (items.map key).Nodup
    · refine ⟨items, item, [], rfl, hitems, ?_⟩
      by_contra hfresh
      rw [List.map_append, List.map_singleton, ← List.concat_eq_append] at h
      exact h (hitems.concat hfresh)
    · obtain ⟨before, found, after, rfl, hbefore, hfound⟩ := ih hitems
      exact ⟨before, found, after ++ [item], by simp, hbefore, hfound⟩

/-- One more item is kept unless one that was kept counts as the same. -/
theorem eraseDupsBy_concat (same : α → α → Bool) (items : List α) (item : α) :
    (items ++ [item]).eraseDupsBy same =
      if (items.eraseDupsBy same).any (same item) then items.eraseDupsBy same
      else items.eraseDupsBy same ++ [item] := by
  -- What was kept so far is carried along in reverse.
  have hloop : ∀ kept : List α, List.eraseDupsBy.loop same (items ++ [item]) kept =
      if (List.eraseDupsBy.loop same items kept).any (same item) then List.eraseDupsBy.loop same items kept
      else List.eraseDupsBy.loop same items kept ++ [item] := by
    induction items with
    | nil =>
      intro kept
      simp only [List.nil_append, List.eraseDupsBy.loop, List.any_reverse]
      cases kept.any (same item) <;> simp
    | cons first rest ih =>
      intro kept
      cases hkept : kept.any (same first) with
      | true => simpa only [List.cons_append, List.eraseDupsBy.loop, hkept] using ih kept
      | false => simpa only [List.cons_append, List.eraseDupsBy.loop, hkept] using ih (first :: kept)
  exact hloop []

variable [DecidableEq α]

theorem eraseDups_concat (items : List α) (item : α) :
    (items ++ [item]).eraseDups = if item ∈ items then items.eraseDups else items.eraseDups ++ [item] := by
  have hany : (items.eraseDups).any (item == ·) = true ↔ item ∈ items := by
    rw [List.any_beq, List.contains_iff_mem, List.mem_eraseDups]
  rw [List.eraseDups, eraseDupsBy_concat, ← List.eraseDups]
  exact if_congr hany rfl rfl

/-- The values that items have are kept in the order of the first items that have them. -/
theorem pairwise_findIdx_eraseDups {β : Type} (value? : β → Option α) (items : List β) :
    (items.filterMap value?).eraseDups.Pairwise fun first second =>
      items.findIdx (fun item => value? item = some first) < items.findIdx fun item => value? item = some second := by
  have hfound {items : List β} {first : α} (hmem : first ∈ items.filterMap value?) :
      items.findIdx (fun item => value? item = some first) < items.length := by
    obtain ⟨item, hitem, hfirst⟩ := List.mem_filterMap.mp hmem
    exact List.findIdx_lt_length_of_exists ⟨item, hitem, decide_eq_true hfirst⟩
  induction items using List.reverseRecOn with
  | nil => simp
  | append_singleton items item ih =>
    have hkept : (items.filterMap value?).eraseDups.Pairwise fun first second =>
        (items ++ [item]).findIdx (fun item => value? item = some first) <
          (items ++ [item]).findIdx fun item => value? item = some second := by
      refine ih.imp_of_mem fun {first second} hfirst hsecond hlt => ?_
      rw [List.mem_eraseDups] at hfirst hsecond
      rwa [List.findIdx_append, List.findIdx_append, if_pos (hfound hfirst), if_pos (hfound hsecond)]
    rw [List.filterMap_append]
    cases hvalue : value? item with
    | none => simpa [hvalue] using hkept
    | some value =>
      rw [List.filterMap_cons_some hvalue, List.filterMap_nil, eraseDups_concat]
      split
      · exact hkept
      · rename_i hfresh
        refine List.pairwise_append.mpr ⟨hkept, List.pairwise_singleton _ _, fun first hfirst second hsecond => ?_⟩
        have hlate : ¬ items.findIdx (fun item => value? item = some second) < items.length := by
          rw [List.mem_singleton.mp hsecond, List.findIdx_lt_length]
          rintro ⟨other, hother, hsame⟩
          exact hfresh (List.mem_filterMap.mpr ⟨other, hother, of_decide_eq_true hsame⟩)
        have hearly := hfound (List.mem_eraseDups.mp hfirst)
        rw [List.findIdx_append, List.findIdx_append, if_pos hearly, if_neg hlate]
        exact Nat.lt_add_left _ hearly

/-- What is kept stands in the order in which it first appears. -/
theorem pairwise_idxOf_eraseDups (items : List α) :
    items.eraseDups.Pairwise fun first second => items.idxOf first < items.idxOf second := by
  have hidx (first : α) : items.findIdx (fun item => some item = some first) = items.idxOf first :=
    congrArg items.findIdx (funext fun item => by simp [BEq.beq])
  have hall := pairwise_findIdx_eraseDups some items
  simpa only [List.filterMap_some, hidx] using hall

theorem nodup_eraseDups (items : List α) : items.eraseDups.Nodup :=
  (pairwise_idxOf_eraseDups items).imp fun hlt hsame => absurd (hsame ▸ hlt) (Nat.lt_irrefl _)

end ZoneGraph
