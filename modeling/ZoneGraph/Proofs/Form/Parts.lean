import ZoneGraph.Form
import ZoneGraph.Proofs.Keyed
import Mathlib.Data.List.Nodup

/-! What readings give for trees that were written. A reading gives a value for a tree when
it takes the tree for that value in whatever kind of document, and the readings of lists,
tables, cases and structures do so when those of their parts do. -/
namespace ZoneGraph

theorem mapM_map_some {α β γ : Type} {take : β → Option γ} {write : α → β} {read : α → γ} {items : List α}
    (h : ∀ item ∈ items, take (write item) = some (read item)) :
    (items.map write).mapM take = some (items.map read) := by
  induction items with
  | nil => rfl
  | cons item rest ih =>
    obtain ⟨hitem, hrest⟩ := List.forall_mem_cons.mp h
    rw [List.map_cons, List.mapM_cons, hitem, ih hrest]
    rfl

theorem Data.word?_toNat (word : UInt32) : (Data.int word.toNat).word? = some word := by
  have h : 0 ≤ (word.toNat : Int) ∧ (word.toNat : Int) < UInt32.size :=
    ⟨Int.natCast_nonneg _, by exact_mod_cast word.toNat_lt_size⟩
  rw [word?, if_pos h, Int.toNat_natCast, UInt32.ofNat_toNat]

namespace Reading

variable {α β : Type}

/-- Whether a reading takes a tree for a value, whatever document the tree is from. -/
def Gives (reading : Reading α) (data : Data) (value : α) : Prop := ∀ dialect, reading dialect data = some value

/-! ### Plain values -/

theorem gives_text (value : String) : text.Gives (.text value) value := fun _ => rfl

theorem gives_bool (value : Bool) : bool.Gives (.bool value) value := fun _ => rfl

theorem gives_word (value : UInt32) : word.Gives (.int value.toNat) value := fun _ => Data.word?_toNat value

theorem gives_case {ofName : String → Option α} {name : String} {value : α} (h : ofName name = some value) :
    (case ofName).Gives (.text name) value := fun _ => h

/-! ### Lists, tables and values that may be missing -/

/-- A list is read item by item, also where some items are not read as they were written. -/
theorem gives_list {reading : Reading β} {write : α → Data} {read : α → β} {items : List α}
    (h : ∀ item ∈ items, reading.Gives (write item) (read item)) :
    reading.list.Gives (.list (items.map write)) (items.map read) :=
  fun dialect => mapM_map_some fun item hitem => h item hitem dialect

variable {reading : Reading α} {write : α → Data}

theorem gives_list_self {items : List α} (h : ∀ item ∈ items, reading.Gives (write item) item) :
    reading.list.Gives (.list (items.map write)) items := by
  have hall : reading.list.Gives (.list (items.map write)) (items.map id) := gives_list h
  rwa [List.map_id] at hall

theorem gives_texts (values : List String) : text.list.Gives (Data.texts values) values :=
  gives_list_self fun value _ => gives_text value

/-- A value that may be missing is told from nothing, since it is not written as nothing. -/
theorem gives_option {value? : Option α} (h : ∀ value, reading.Gives (write value) value)
    (hsome : ∀ value, write value ≠ .null) : reading.option.Gives (Data.ofOption write value?) value? := by
  intro dialect
  cases value? with
  | none => rfl
  | some value =>
    change Data.option? (reading dialect) (write value) = _
    rw [Data.option?, h value dialect]
    · rfl
    · exact hsome value

theorem gives_optionalText (value? : Option String) : text.option.Gives (Data.ofOption .text value?) value? :=
  gives_option gives_text nofun

/-- A table is read as it was written when its keys are in order. -/
theorem gives_keyed {entries : Keyed α} (hsorted : entries.keys.Pairwise (· < ·))
    (h : ∀ entry ∈ entries, reading.Gives (write entry.2) entry.2) :
    reading.keyed.Gives (.table (Keyed.mapValues write entries)) entries := by
  intro dialect
  have hfields : (Keyed.mapValues write entries).mapM (fun field => (reading dialect field.2).map (field.1, ·)) =
      some (entries.map id) := by
    refine mapM_map_some fun entry hentry => ?_
    rw [h entry hentry dialect]
    rfl
  rw [keyed, Data.keyed?, hfields, List.map_id]
  exact congrArg some (Keyed.ofList_eq_self hsorted)

end Reading

/-! ### Structures -/

namespace Parts

variable {α : Type} {names : List String} {fields : List (String × Data)} {dialect : Dialect} {name : String}

theorem occurrences_le_one (h : (fields.map Prod.fst).Nodup) (name : String) : occurrences name fields ≤ 1 := by
  have hcount := List.nodup_iff_count_le_one.mp h name
  rw [List.count, List.countP_map, List.countP_eq_length_filter] at hcount
  exact hcount

theorem ofFields_of_nodup (names : List String) (dialect : Dialect) (h : (fields.map Prod.fst).Nodup) :
    ofFields names dialect fields = some ⟨dialect, false, fields⟩ := by
  refine if_pos (List.all_eq_true.mpr fun name _ => ?_)
  exact decide_eq_true (occurrences_le_one h name)

theorem read_table (names : List String) (dialect : Dialect) (h : (fields.map Prod.fst).Nodup) :
    read names dialect (.table fields) = some ⟨dialect, false, fields⟩ :=
  ofFields_of_nodup names dialect h

theorem readClosed_table (dialect : Dialect) (h : (fields.map Prod.fst).Nodup)
    (hknown : ∀ field ∈ fields, field.1 ∈ names) :
    readClosed names dialect (.table fields) = some ⟨dialect, false, fields⟩ := by
  have hall : fields.all (fun field => field.1 ∈ names) = true :=
    List.all_eq_true.mpr fun field hfield => decide_eq_true (hknown field hfield)
  rw [readClosed, if_pos hall]
  exact ofFields_of_nodup names dialect h

variable {reading : Reading α} {data : Data} {value : α} {byPosition : Bool}

theorem required_of_gives (hfield : Keyed.find? name fields = some data) (h : reading.Gives data value) :
    required name reading ⟨dialect, byPosition, fields⟩ = some value := by
  rw [required, find?, hfield]
  exact h dialect

theorem withDefault_of_gives {default : α} (hfield : Keyed.find? name fields = some data)
    (h : reading.Gives data value) : withDefault name default reading ⟨dialect, byPosition, fields⟩ = some value := by
  rw [withDefault, find?, hfield]
  exact h dialect

theorem optional_of_gives {value : Option α} (hfield : Keyed.find? name fields = some data)
    (h : reading.option.Gives data value) : optional name reading ⟨dialect, byPosition, fields⟩ = some value := by
  rw [optional, find?, hfield]
  exact h dialect

end Parts

/-! ### Values that were read -/

/-- What a list was read to was read from its items. -/
theorem mapM_some {α β : Type} {take : α → Option β} {items : List α} {values : List β}
    (h : items.mapM take = some values) : ∀ value ∈ values, ∃ item ∈ items, take item = some value := by
  induction items generalizing values with
  | nil =>
    cases h
    simp
  | cons item rest ih =>
    rw [List.mapM_cons] at h
    obtain ⟨first, hfirst, h⟩ := Option.bind_eq_some_iff.mp h
    obtain ⟨others, hothers, h⟩ := Option.bind_eq_some_iff.mp h
    cases h
    refine List.forall_mem_cons.mpr ⟨⟨item, List.mem_cons_self .., hfirst⟩, fun value hvalue => ?_⟩
    obtain ⟨found, hfound, htake⟩ := ih hothers value hvalue
    exact ⟨found, List.mem_cons_of_mem _ hfound, htake⟩

theorem Data.list?_mem {α : Type} {item : Data → Option α} {data : Data} {values : List α}
    (h : data.list? item = some values) : ∀ value ∈ values, ∃ part, item part = some value := by
  cases data with
  | list items =>
    intro value hvalue
    obtain ⟨part, -, hpart⟩ := mapM_some h value hvalue
    exact ⟨part, hpart⟩
  | null | bool | int | real | text | table | broken => cases h

theorem Data.keyed?_sorted {α : Type} {value : Data → Option α} {data : Data} {entries : Keyed α}
    (h : data.keyed? value = some entries) : entries.keys.Pairwise (· < ·) := by
  cases data with
  | table fields =>
    obtain ⟨pairs, -, rfl⟩ := Option.map_eq_some_iff.mp h
    exact Keyed.sorted_ofList pairs
  | null | bool | int | real | text | list | broken => cases h

/-- What a table is read to was read from its fields. -/
theorem Data.keyed?_mem {α : Type} {value : Data → Option α} {data : Data} {entries : Keyed α}
    (h : data.keyed? value = some entries) : ∃ fields, data = .table fields ∧
      ∀ entry ∈ entries, ∃ field ∈ fields, field.1 = entry.1 ∧ value field.2 = some entry.2 := by
  cases data with
  | table fields =>
    obtain ⟨pairs, hpairs, rfl⟩ := Option.map_eq_some_iff.mp h
    refine ⟨fields, rfl, fun entry hentry => ?_⟩
    obtain ⟨field, hfield, hentry⟩ := mapM_some hpairs entry (Keyed.mem_ofList hentry)
    obtain ⟨found, hfound, rfl⟩ := Option.map_eq_some_iff.mp hentry
    exact ⟨field, hfield, rfl, hfound⟩
  | null | bool | int | real | text | list | broken => cases h

theorem Parts.withDefault_eq_some {α : Type} {name : String} {default found : α} {value : Reading α} {parts : Parts}
    (h : parts.withDefault name default value = some found) :
    found = default ∨ ∃ dialect data, value dialect data = some found := by
  unfold Parts.withDefault at h
  split at h
  · exact Or.inr ⟨_, _, h⟩
  · exact Or.inl (Option.some.inj h).symm

/-- A table that may be missing is in order once it was read. -/
theorem Parts.sorted_withDefault {α : Type} {name : String} {entries : Keyed α} {value : Reading α} {parts : Parts}
    (h : parts.withDefault name [] value.keyed = some entries) : entries.keys.Pairwise (· < ·) := by
  rcases withDefault_eq_some h with rfl | ⟨dialect, data, hread⟩
  · exact List.Pairwise.nil
  · exact Data.keyed?_sorted hread

/-- A change that leaves alone what is read leaves a list that was read alone. -/
theorem Parts.map_withDefault {α : Type} {name : String} {items : List α} {item : Reading α} {parts : Parts}
    {change : α → α} (h : parts.withDefault name [] item.list = some items)
    (hchange : ∀ dialect data value, item dialect data = some value → change value = value) :
    items.map change = items := by
  rcases withDefault_eq_some h with rfl | ⟨dialect, data, hread⟩
  · rfl
  · have hsame : ∀ value ∈ items, change value = id value := by
      intro value hvalue
      obtain ⟨part, hpart⟩ := Data.list?_mem hread value hvalue
      exact hchange dialect part value hpart
    rw [List.map_congr_left hsame, List.map_id]

end ZoneGraph
