import ZoneGraph.Proofs.Keyed
import ZoneGraph.Stack

/-! The sections of the document of a stack. Each of the four stands under its own name
and is left out when it is empty, and the document has no other. -/
namespace ZoneGraph

/-- The value of a field of a table. -/
def Data.field? (name : String) : Data → Option Data
  | .table fields => Keyed.find? name fields
  | _ => none

namespace Stack

variable {stack : Stack} {name : String} {entries : Keyed Data}

/-- A section as the document has it. -/
def present (entries : Keyed Data) : Option Data := if entries.isEmpty then none else some (.table entries)

/-- The sections of the document, in the order of their names. -/
def sections (stack : Stack) : List (String × Keyed Data) :=
  [("data", resourceSection (stack.resources.toList.filter (·.kind.isData))),
    ("output", stack.outputSection),
    ("provider", stack.providerSection),
    ("resource", resourceSection (stack.resources.toList.filter (!·.kind.isData)))]

theorem synth_eq (stack : Stack) : stack.synth = .table (stack.sections.flatMap fun entry => part entry.1 entry.2) := by
  rw [synth, List.partition_eq_filter_filter]
  simp [sections]
  rfl

theorem find?_part (name other : String) (entries : Keyed Data) :
    Keyed.find? other (part name entries) = if name = other then present entries else none := by
  unfold part present
  split <;> simp [Keyed.find?]

theorem find?_flatMap_part_eq_none {sections : List (String × Keyed Data)} (h : name ∉ sections.map Prod.fst) :
    Keyed.find? name (sections.flatMap fun entry => part entry.1 entry.2) = none := by
  induction sections with
  | nil => rfl
  | cons first rest ih =>
    rw [List.map_cons, List.mem_cons, not_or] at h
    rw [List.flatMap_cons, Keyed.find?_append, find?_part, if_neg (Ne.symm h.1), ih h.2]
    rfl

theorem find?_flatMap_part {sections : List (String × Keyed Data)} (hnodup : (sections.map Prod.fst).Nodup)
    (h : (name, entries) ∈ sections) :
    Keyed.find? name (sections.flatMap fun entry => part entry.1 entry.2) = present entries := by
  induction sections with
  | nil => cases h
  | cons first rest ih =>
    obtain ⟨hfirst, hrest⟩ := List.nodup_cons.mp hnodup
    rw [List.flatMap_cons, Keyed.find?_append, find?_part]
    rcases List.mem_cons.mp h with rfl | hmem
    · rw [if_pos rfl, find?_flatMap_part_eq_none hfirst, Option.or_none]
    · have hne : first.1 ≠ name := fun hsame => hfirst (List.mem_map.mpr ⟨_, hmem, hsame.symm⟩)
      rw [if_neg hne, Option.none_or, ih hrest hmem]

theorem names_sections (stack : Stack) : stack.sections.map Prod.fst = ["data", "output", "provider", "resource"] := rfl

theorem field?_synth (h : (name, entries) ∈ stack.sections) : stack.synth.field? name = present entries := by
  rw [synth_eq]
  exact find?_flatMap_part (by rw [names_sections]; decide) h

/-- The document has no other sections, and they stand in the order of their names. -/
theorem keys_synth (stack : Stack) :
    ∃ fields : Keyed Data, stack.synth = .table fields ∧
      fields.keys.Sublist ["data", "output", "provider", "resource"] := by
  refine ⟨_, synth_eq stack, ?_⟩
  rw [← names_sections stack]
  generalize stack.sections = sections
  induction sections with
  | nil => exact .slnil
  | cons first rest ih =>
    rw [List.flatMap_cons, Keyed.keys, List.map_append, List.map_cons]
    unfold part
    split
    · exact ih.cons _
    · exact ih.cons_cons _

end Stack

end ZoneGraph
