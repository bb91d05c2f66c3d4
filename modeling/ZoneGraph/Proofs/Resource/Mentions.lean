import ZoneGraph.Proofs.Keyed
import ZoneGraph.Resource

/-! What resources mention. A tree mentions a text when some text in it has that text as
a part, and a resource does when one of its attributes or one of the addresses that it
waits for has it. An address is longer than the path it is made from, so texts that are
part of the path do not mention it. -/
namespace ZoneGraph

/-- Whether a tree has a text that another text is a part of. -/
inductive Data.Mentions (part : String) : Data → Prop where
  | text (value : String) (h : part.toList <:+: value.toList) : Mentions part (.text value)
  | item (items : List Data) (data : Data) (hmem : data ∈ items) (h : Mentions part data) : Mentions part (.list items)
  | field (fields : List (String × Data)) (key : String) (data : Data) (hmem : (key, data) ∈ fields)
      (h : Mentions part data) : Mentions part (.table fields)

theorem Data.mentions_text {part value : String} : (Data.text value).Mentions part ↔ part.toList <:+: value.toList := by
  constructor
  · intro h
    cases h with
    | text _ h => exact h
  · exact .text value

theorem length_le_logicalId (path : String) : path.length ≤ (logicalId path).length := by
  have hstem : path.length ≤ (idStem path.toList).length := by
    rw [← String.length_toList, idStem]
    cases path.toList with
    | nil => exact Nat.zero_le _
    | cons c rest =>
      rw [List.map_cons]
      generalize (if isIdChar c then c else '_') = first
      change _ ≤ List.length (if _ then _ else _)
      split <;> simp
  rw [logicalId, String.length_ofList, List.length_append]
  omega

namespace Resource

variable {part : String} {resource : Resource}

/-- Whether a text is a part of what a resource has in its attributes or waits for. -/
def Mentions (part : String) (resource : Resource) : Prop :=
  (∃ field ∈ resource.attributes, field.2.Mentions part) ∨ ∃ address ∈ resource.dependsOn, part.toList <:+: address.toList

theorem mentions_of_text? {key value : String} (hvalue : resource.text? key = some value)
    (hpart : part.toList <:+: value.toList) : resource.Mentions part := by
  obtain ⟨data, hfind, hdata⟩ := Option.bind_eq_some_iff.mp hvalue
  cases data with
  | text found =>
    obtain rfl := Option.some.inj hdata
    exact .inl ⟨_, Keyed.mem_of_find? hfind, .text found hpart⟩
  | _ => cases hdata

theorem length_path_lt_address (resource : Resource) : resource.path.length < resource.address.length := by
  have hid := length_le_logicalId resource.path
  rw [address, logicalId, String.length_append, String.length_append, String.length_append]
  have hdot : ".".length = 1 := rfl
  omega

/-- A resource with one attribute, a text that is too short, mentions nothing. -/
theorem not_mentions_of_short {key value : String} (hattributes : resource.attributes = [(key, .text value)])
    (hdepends : resource.dependsOn = []) (hshort : value.length < part.length) : ¬ resource.Mentions part := by
  rintro (⟨field, hmem, h⟩ | ⟨address, hmem, -⟩)
  · rw [hattributes, List.mem_singleton] at hmem
    subst hmem
    have hle := (Data.mentions_text.mp h).length_le
    rw [String.length_toList, String.length_toList] at hle
    omega
  · rw [hdepends] at hmem
    cases hmem

end Resource

end ZoneGraph
