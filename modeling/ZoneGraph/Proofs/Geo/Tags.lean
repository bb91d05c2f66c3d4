import ZoneGraph.Geo.Partition
import ZoneGraph.Proofs.Runs

/-! Tags that name places. A tag names a place when it is the place's key and the place has
a value. A scope with nothing after it, or with a colon and nothing after that, is
malformed, and every other tag says nothing about places. The places of a server are read
tag by tag, up to the first one that is malformed. -/
namespace ZoneGraph

/-- Whether a tag is a scope without a value. -/
def MalformedTag (tag : String) : Prop := ∃ scope : GeoScope, tag = scope.name ∨ tag = scope.name ++ ":"

theorem GeoScope.colon_notMem_name (scope : GeoScope) : ':' ∉ scope.name.toList := by
  cases scope <;> decide

namespace GeoLocation

variable {server tag : String} {location : GeoLocation}

theorem key_toList (location : GeoLocation) :
    location.key.toList = location.scope.name.toList ++ ':' :: location.value.toList := by
  simp [key, String.toList_append]

theorem span_of_scope {scope : GeoScope} {rest : List Char} (h : tag.toList = scope.name.toList ++ rest)
    (hrest : ∀ c ∈ rest.head?, c = ':') :
    String.ofList (tag.toList.takeWhile (· ≠ ':')) = scope.name ∧ tag.toList.dropWhile (· ≠ ':') = rest := by
  have hname : ∀ c ∈ scope.name.toList, decide (c ≠ ':') = true := by
    intro c hc
    refine decide_eq_true ?_
    rintro rfl
    exact scope.colon_notMem_name hc
  rw [h, List.takeWhile_append_of_pos hname, List.dropWhile_append_of_pos hname]
  cases rest with
  | nil => simp
  | cons c rest =>
    obtain rfl : c = ':' := hrest c rfl
    simp

/-- A tag whose part before the first colon is a scope consists of that scope and the rest. -/
theorem split_of_scope {scope : GeoScope}
    (h : GeoScope.ofName? (String.ofList (tag.toList.takeWhile (· ≠ ':'))) = some scope) :
    tag.toList = scope.name.toList ++ tag.toList.dropWhile (· ≠ ':') := by
  rw [GeoScope.name_eq_of_ofName? h, String.toList_ofList, List.takeWhile_append_dropWhile]

/-- What is left after the part before the first colon begins with the colon. -/
theorem head_dropWhile (text : List Char) : ∀ c ∈ (text.dropWhile (· ≠ ':')).head?, c = ':' := by
  intro c hc
  have hstop := List.head?_dropWhile_not (· ≠ ':') text
  rw [hc] at hstop
  simpa using hstop

theorem ofTag_key (server : String) (h : location.value ≠ "") : ofTag server location.key = .ok (some location) := by
  obtain ⟨hscope, hrest⟩ := span_of_scope (key_toList location) (by simp)
  have hvalue : location.value.toList ≠ [] := mt String.toList_eq_nil_iff.mp h
  obtain ⟨c, value, hcons⟩ := List.exists_cons_of_ne_nil hvalue
  simp only [ofTag, hscope, GeoScope.ofName?_name, hrest, hcons]
  rw [← hcons, String.ofList_toList]

theorem ofTag_of_malformed (server : String) (h : MalformedTag tag) :
    ofTag server tag = .error (.malformedGeoTag server tag) := by
  obtain ⟨scope, rfl | rfl⟩ := h
  · obtain ⟨hscope, hrest⟩ := span_of_scope (List.append_nil scope.name.toList).symm (by simp)
    simp only [ofTag, hscope, GeoScope.ofName?_name, hrest]
  · have hcolon : (scope.name ++ ":").toList = scope.name.toList ++ ":".toList := String.toList_append
    obtain ⟨hscope, hrest⟩ := span_of_scope hcolon (by simp)
    simp only [ofTag, hscope, GeoScope.ofName?_name, hrest]
    rfl

/-- A tag is malformed, or it names a place, or it says nothing about places. -/
theorem ofTag_cases (server tag : String) :
    MalformedTag tag ∨ (∃ location : GeoLocation, tag = location.key ∧ location.value ≠ "") ∨
      ofTag server tag = .ok none := by
  simp only [ofTag]
  split
  · exact Or.inr (Or.inr rfl)
  · rename_i scope hscope
    have hsplit := split_of_scope hscope
    have hhead := head_dropWhile tag.toList
    split
    · rename_i d c value hrest
      rw [hrest] at hsplit hhead
      obtain rfl : d = ':' := hhead d rfl
      refine Or.inr (Or.inl ⟨⟨scope, String.ofList (c :: value)⟩, String.toList_inj.mp ?_, by simp⟩)
      rw [key_toList, hsplit, String.toList_ofList]
    · rename_i hshort
      -- Nothing is left, or the colon alone.
      refine Or.inl ⟨scope, ?_⟩
      cases hrest : tag.toList.dropWhile (· ≠ ':') with
      | nil =>
        rw [hrest, List.append_nil] at hsplit
        exact Or.inl (String.toList_inj.mp hsplit)
      | cons d rest =>
        rw [hrest] at hsplit hhead
        obtain rfl : d = ':' := hhead d rfl
        cases rest with
        | nil =>
          refine Or.inr (String.toList_inj.mp ?_)
          rw [hsplit, String.toList_append]
          rfl
        | cons c value => exact absurd hrest (hshort ':' c value)

theorem ofTag_eq_error {fault : Fault} :
    ofTag server tag = .error fault ↔ MalformedTag tag ∧ fault = .malformedGeoTag server tag := by
  constructor
  · intro h
    rcases ofTag_cases server tag with hmalformed | ⟨location, rfl, hvalue⟩ | hnone
    · rw [ofTag_of_malformed server hmalformed] at h
      exact ⟨hmalformed, (Except.error.inj h).symm⟩
    · rw [ofTag_key server hvalue] at h
      cases h
    · rw [hnone] at h
      cases h
  · rintro ⟨hmalformed, rfl⟩
    exact ofTag_of_malformed server hmalformed

theorem ofTag_eq_some (server : String) :
    ofTag server tag = .ok (some location) ↔ tag = location.key ∧ location.value ≠ "" := by
  constructor
  · intro h
    rcases ofTag_cases server tag with hmalformed | ⟨found, rfl, hvalue⟩ | hnone
    · rw [ofTag_of_malformed server hmalformed] at h
      cases h
    · rw [ofTag_key server hvalue] at h
      cases h
      exact ⟨rfl, hvalue⟩
    · rw [hnone] at h
      cases h
  · rintro ⟨rfl, hvalue⟩
    exact ofTag_key server hvalue

/-- The place that a tag names, if it names one. -/
def named? (tag : String) : Option GeoLocation :=
  match ofTag "" tag with
  | .ok place => place
  | .error _ => none

theorem named?_eq_some : named? tag = some location ↔ tag = location.key ∧ location.value ≠ "" := by
  rw [← ofTag_eq_some "", named?]
  cases ofTag "" tag <;> simp

/-- Which server carries a tag matters only where the tag is malformed. -/
theorem ofTag_of_wellFormed (server : String) (h : ¬ MalformedTag tag) : ofTag server tag = .ok (named? tag) := by
  cases hread : ofTag server tag with
  | error fault => exact absurd (ofTag_eq_error.mp hread).1 h
  | ok place =>
    congr 1
    refine Option.ext fun location => ?_
    rw [named?_eq_some, ← ofTag_eq_some server, hread, Except.ok.injEq]

end GeoLocation

/-! ### The tags of a server -/

variable {server : String} {tags : List String}

theorem placesOfTags_of_wellFormed (server : String) (h : ∀ tag ∈ tags, ¬ MalformedTag tag) :
    placesOfTags server tags = .ok (tags.filterMap GeoLocation.named?) := by
  induction tags with
  | nil => rfl
  | cons tag rest ih =>
    obtain ⟨hfirst, hrest⟩ := List.forall_mem_cons.mp h
    rw [placesOfTags, GeoLocation.ofTag_of_wellFormed server hfirst, ih hrest]
    cases hnamed : GeoLocation.named? tag <;> simp [hnamed, bind, Except.bind, pure, Except.pure]

theorem placesOfTags_of_malformed (server : String) {before after : List String} {tag : String}
    (hbefore : ∀ tag ∈ before, ¬ MalformedTag tag) (h : MalformedTag tag) :
    placesOfTags server (before ++ tag :: after) = .error (.malformedGeoTag server tag) := by
  induction before with
  | nil =>
    rw [List.nil_append, placesOfTags, GeoLocation.ofTag_of_malformed server h]
    rfl
  | cons first rest ih =>
    obtain ⟨hfirst, hrest⟩ := List.forall_mem_cons.mp hbefore
    rw [List.cons_append, placesOfTags, GeoLocation.ofTag_of_wellFormed server hfirst, ih hrest]
    rfl

end ZoneGraph
