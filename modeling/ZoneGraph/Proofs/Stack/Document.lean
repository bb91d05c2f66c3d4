import ZoneGraph.Proofs.Resource.Identifiers
import ZoneGraph.Proofs.Stack.Blocks
import ZoneGraph.Proofs.Stack.Histories
import ZoneGraph.Proofs.Stack.Providers

/-! The document of a stack says what was declared, all of it and nothing else. Resources
stand under their kind and identifier. Where no two of them share both, none covers
another, so each has one entry with its own body. -/
namespace ZoneGraph

namespace Stack

variable {stack : Stack}

/-! ### Resources -/

/-- The keys of a resource in its section. -/
def place (resource : Resource) : String × String := (resource.kind.name, resource.logicalId)

/-- The body of a resource is its attributes, covered by its provider and by what it waits
for, if it waits for something. -/
theorem find?_resourceBody (resource : Resource) (key : String) :
    Keyed.find? key (resourceBody resource) =
      if key = "depends_on" ∧ resource.dependsOn ≠ [] then some (Data.texts resource.dependsOn)
      else if key = "provider" then some (.text resource.provider)
      else Keyed.find? key resource.attributes := by
  have hprovider : Keyed.find? key (Keyed.insert "provider" (.text resource.provider) resource.attributes) =
      if key = "provider" then some (.text resource.provider) else Keyed.find? key resource.attributes := by
    rw [Keyed.find?_insert]
    exact if_congr eq_comm rfl rfl
  unfold resourceBody
  split
  · rename_i hempty
    rw [hprovider]
    exact (if_neg fun hwaits => hwaits.2 (List.isEmpty_iff.mp hempty)).symm
  · rename_i hwaits
    rw [Keyed.find?_insert, hprovider]
    exact if_congr (by simp [List.isEmpty_iff.not.mp hwaits, eq_comm]) rfl rfl

theorem sorted_resourceBody {resource : Resource} (h : resource.attributes.keys.Pairwise (· < ·)) :
    (resourceBody resource).keys.Pairwise (· < ·) := by
  unfold resourceBody
  split
  · exact Keyed.sorted_insert h
  · exact Keyed.sorted_insert (Keyed.sorted_insert h)

theorem nodup_place {resources : List Resource}
    (h : (resources.map fun resource => (resource.kind, resource.logicalId)).Nodup) : (resources.map place).Nodup := by
  have hplace : resources.map place =
      (resources.map fun resource => (resource.kind, resource.logicalId)).map fun key => (key.1.name, key.2) := by
    rw [List.map_map]
    rfl
  rw [hplace]
  refine h.map fun key other hsame => ?_
  obtain ⟨hkind, hid⟩ := Prod.mk.inj hsame
  exact Prod.ext (ResourceKind.name_inj.mp hkind) hid

theorem exists_blocks {resources : List Resource} (h : (resources.map place).Nodup) :
    ∃ blocks : Keyed (Keyed Data), blocks.Nested ∧ resourceSection resources = Keyed.mapValues .table blocks ∧
      blocks.entries.Perm (resources.map fun resource =>
        (resource.kind.name, resource.logicalId, .table (resourceBody resource))) :=
  ⟨Keyed.putAll place (fun resource => .table (resourceBody resource)) resources [], Keyed.nested_nil.putAll resources,
    rfl, Keyed.entries_putAll h⟩

theorem resourceSection_eq_of_perm {resources others : List Resource} (h : (resources.map place).Nodup)
    (hperm : resources.Perm others) : resourceSection resources = resourceSection others := by
  obtain ⟨blocks, hnested, hblocks, hentries⟩ := exists_blocks h
  obtain ⟨blocks', hnested', hblocks', hentries'⟩ := exists_blocks ((hperm.map place).nodup_iff.mp h)
  rw [hblocks, hblocks', hnested.eq_of_perm hnested' (hentries.trans ((hperm.map _).trans hentries'.symm))]

/-- The document does not depend on the order of the resources, where none covers another. -/
theorem synth_eq_of_perm {next : Stack} (hproviders : next.providers = stack.providers)
    (houtputs : next.outputs = stack.outputs) (hresources : next.resources.toList.Perm stack.resources.toList)
    (hdistinct : (stack.resources.toList.map fun resource => (resource.kind, resource.logicalId)).Nodup) :
    next.synth = stack.synth := by
  have hsection (select : Resource → Bool) : resourceSection (next.resources.toList.filter select) =
      resourceSection (stack.resources.toList.filter select) := by
    have hplaces := nodup_place (hdistinct.sublist ((List.filter_sublist (p := select)).map _))
    exact (resourceSection_eq_of_perm hplaces (hresources.symm.filter select)).symm
  rw [synth_eq, synth_eq, sections, sections, outputSection, outputSection, providerSection, providerSection,
    hsection, hsection, hproviders, houtputs]

/-! ### Providers -/

/-- Whether blocks stand under the names of plugins, in order. -/
structure ByPlugin {α : Type} (blocks : Keyed α) : Prop where
  sorted : blocks.keys.Pairwise (· < ·)
  named : ∀ key ∈ blocks.keys, ∃ kind : ProviderKind, key = kind.name

theorem ByPlugin.insert {α : Type} {blocks : Keyed α} (h : ByPlugin blocks) (kind : ProviderKind) (value : α) :
    ByPlugin (Keyed.insert kind.name value blocks) := by
  refine ⟨Keyed.sorted_insert h.sorted, fun key hkey => ?_⟩
  rcases Keyed.mem_keys_insert.mp hkey with rfl | hkey
  · exact ⟨kind, rfl⟩
  · exact h.named key hkey

theorem byPlugin_foldl_blocks {blocks : Keyed (List Data)} (h : ByPlugin blocks) (entries : Keyed Provider) :
    ByPlugin (entries.foldl (fun blocks entry =>
      Keyed.insert entry.2.kind.name
        ((Keyed.find? entry.2.kind.name blocks).getD [] ++ [providerBlock entry.2]) blocks) blocks) := by
  induction entries generalizing blocks with
  | nil => exact h
  | cons entry rest ih => exact ih (h.insert entry.2.kind _)

theorem byPlugin_providerSection (stack : Stack) : ByPlugin stack.providerSection := by
  have hnil : ByPlugin ([] : Keyed (List Data)) := ⟨List.Pairwise.nil, fun _ hkey => by cases hkey⟩
  have hblocks := byPlugin_foldl_blocks hnil stack.providers
  have hkeys := Keyed.keys_mapValues Data.list (stack.providers.foldl (fun blocks entry =>
    Keyed.insert entry.2.kind.name
      ((Keyed.find? entry.2.kind.name blocks).getD [] ++ [providerBlock entry.2]) blocks) [])
  exact ⟨hkeys ▸ hblocks.sorted, hkeys ▸ hblocks.named⟩

theorem mem_providersOf (h : Arranged stack.providers) {kind : ProviderKind} {provider : Provider} :
    provider ∈ stack.providersOf kind ↔
      provider.kind = kind ∧ Keyed.find? provider.name stack.providers = some provider := by
  rw [providersOf, List.mem_filter, h.mem_values_iff, decide_eq_true_eq, and_comm]

theorem sorted_providersOf (h : Arranged stack.providers) (kind : ProviderKind) :
    ((stack.providersOf kind).map Provider.name).Pairwise (· < ·) :=
  h.sorted_names.sublist (List.filter_sublist.map _)

/-- Whether a block has the name of a provider as alias and the settings of the provider,
and nothing else. A setting under that key covers the alias. -/
def IsBlockOf (provider : Provider) (block : Data) : Prop :=
  ∃ fields : Keyed Data, block = .table fields ∧ fields.keys.Pairwise (· < ·) ∧
    ∀ key, Keyed.find? key fields =
      ((provider.setting? key).map .text).or (if key = "alias" then some (.text provider.name) else none)

theorem isBlockOf_providerBlock (provider : Provider) : IsBlockOf provider (providerBlock provider) := by
  have hsorted : provider.blockFields.keys.Pairwise (· < ·) := Keyed.sorted_foldl_insert (List.pairwise_singleton _ _)
  refine ⟨provider.blockFields, rfl, hsorted, fun key => ?_⟩
  rw [Provider.blockFields, Keyed.find?_foldl_insert, Provider.setting?]
  congr 1
  rw [Keyed.find?, Keyed.find?]
  exact if_congr eq_comm rfl rfl

/-! ### The document -/

/-- Whether a document says what was declared to a stack, all of it and nothing else. -/
structure Complete (operations : List Operation) (stack : Stack) (document : Data) : Prop where
  sections : ∃ fields : Keyed Data, document = .table fields ∧
    fields.keys.Sublist ["data", "output", "provider", "resource"]
  resources : ∀ isData : Bool, ∃ blocks : Keyed (Keyed Data), blocks.Nested ∧
    document.field? (if isData then "data" else "resource") = present (Keyed.mapValues .table blocks) ∧
    blocks.entries.Perm ((stack.resources.toList.filter fun resource => resource.kind.isData = isData).map
      fun resource => (resource.kind.name, resource.logicalId, .table (resourceBody resource)))
  bodies : ∀ resource ∈ stack.resources.toList,
    (∀ key, Keyed.find? key (resourceBody resource) =
      if key = "depends_on" ∧ resource.dependsOn ≠ [] then some (Data.texts resource.dependsOn)
      else if key = "provider" then some (.text resource.provider)
      else Keyed.find? key resource.attributes) ∧
    (resource.attributes.keys.Pairwise (· < ·) → (resourceBody resource).keys.Pairwise (· < ·))
  providers : ∃ blocks : Keyed Data, document.field? "provider" = present blocks ∧
    ByPlugin blocks ∧ ∀ kind : ProviderKind, ∃ (registered : List Provider) (listed : List Data),
      Keyed.find? kind.name blocks = (if registered = [] then none else some (.list listed)) ∧
      List.Forall₂ IsBlockOf registered listed ∧
      (registered.map Provider.name).Pairwise (· < ·) ∧
      ∀ provider, provider ∈ registered ↔
        provider.kind = kind ∧ operations.findSome? (Operation.provider? provider.name) = some provider
  outputs : ∃ values : Keyed Data, document.field? "output" = present values ∧
    values.keys.Pairwise (· < ·) ∧
    ∀ name, Keyed.find? name values =
      (operations.findSome? (Operation.output? name)).map fun value => .table [("value", value)]

/-- Whatever is declared to a stack, its document is complete unless two resources share
kind and identifier. -/
theorem synth_complete (name : String) (operations : List Operation)
    (hdistinct : ((run { name } operations).resources.toList.map fun resource =>
      (resource.kind, resource.logicalId)).Nodup) :
    Complete operations (run { name } operations) (run { name } operations).synth := by
  have hkept := kept_run (kept_empty name) operations
  generalize hstack : run { name } operations = stack at hdistinct hkept
  refine ⟨keys_synth stack, ?_, fun resource _ => ⟨find?_resourceBody resource, sorted_resourceBody⟩, ?_, ?_⟩
  · intro isData
    have hsection : stack.synth.field? (if isData then "data" else "resource") =
        present (resourceSection (stack.resources.toList.filter fun resource => resource.kind.isData = isData)) := by
      apply field?_synth
      cases isData <;> simp [sections]
    have hplaces := nodup_place (hdistinct.sublist ((List.filter_sublist
      (p := fun resource : Resource => resource.kind.isData = isData)).map _))
    obtain ⟨blocks, hnested, hblocks, hentries⟩ := exists_blocks hplaces
    exact ⟨blocks, hnested, hblocks ▸ hsection, hentries⟩
  · refine ⟨stack.providerSection, field?_synth (by simp [sections]), byPlugin_providerSection stack, fun kind => ?_⟩
    have hlisted : List.Forall₂ IsBlockOf (stack.providersOf kind) ((stack.providersOf kind).map providerBlock) :=
      List.forall₂_map_right_iff.mpr (List.forall₂_same.mpr fun provider _ => isBlockOf_providerBlock provider)
    refine ⟨stack.providersOf kind, _, find?_providerSection kind stack, hlisted,
      sorted_providersOf hkept.providers kind, ?_⟩
    intro provider
    rw [mem_providersOf hkept.providers, ← hstack, find?_providers_run]
    rfl
  · refine ⟨stack.outputSection, field?_synth (by simp [sections]), ?_, fun name => ?_⟩
    · rw [outputSection, Keyed.keys_mapValues]
      exact hkept.outputs
    · rw [outputSection, Keyed.find?_mapValues, ← hstack, find?_outputs_run]
      rfl

def luffyLookup : Resource where
  kind := .livednsLookup
  path := "G-luffy.cx/LiveDNSNS"
  provider := "gandi.vb"
  attributes := [("name", .text "luffy.cx")]

def luffyRecord : Resource where
  kind := .livednsRecord
  path := "G-luffy.cx/A-www"
  provider := "gandi.vb"
  attributes := [("type", .text "A")]
  dependsOn := [luffyLookup.address]

/-- Three providers, both resources and an output. -/
def luffyOperations : List Operation :=
  [.addProvider ⟨.gandi, "vb", [("sharing_id", "team")]⟩, .addProvider ⟨.aws, "main", [("region", "eu-west-1")]⟩,
    .addProvider ⟨.gandi, "acme", []⟩, .absorb [luffyRecord, luffyLookup], .output "servers" (.text "ns1")]

/-- A record and a look-up stand in sections of their own, beside an output and the
providers with their settings. -/
theorem synth_complete_luffy :
    (run { name := "acme" } luffyOperations).resources.toList = [luffyRecord, luffyLookup] ∧
      Complete luffyOperations (run { name := "acme" } luffyOperations)
        (run { name := "acme" } luffyOperations).synth ∧
      (run { name := "acme" } luffyOperations).synth = .table
        [("data", .table [("gandi_livedns_domain_ns", .table [(luffyLookup.logicalId, .table
            [("name", .text "luffy.cx"), ("provider", .text "gandi.vb")])])]),
          ("output", .table [("servers", .table [("value", .text "ns1")])]),
          ("provider", .table
            [("aws", .list [.table [("alias", .text "main"), ("region", .text "eu-west-1")]]),
              ("gandi", .list [.table [("alias", .text "acme")],
                .table [("alias", .text "vb"), ("sharing_id", .text "team")]])]),
          ("resource", .table [("gandi_livedns_record", .table [(luffyRecord.logicalId, .table
            [("depends_on", .list [.text luffyLookup.address]), ("provider", .text "gandi.vb"),
              ("type", .text "A")])])])] := by
  have hheld : (run { name := "acme" } luffyOperations).resources.toList = [luffyRecord, luffyLookup] := rfl
  refine ⟨hheld, synth_complete "acme" luffyOperations ?_, rfl⟩
  rw [hheld]
  simp [luffyRecord, luffyLookup]

end Stack

end ZoneGraph
