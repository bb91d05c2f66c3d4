import ZoneGraph.Proofs.Deployment.Building
import ZoneGraph.Proofs.Stack.Providers
import ZoneGraph.Proofs.Zone.Managed
import Mathlib.Data.List.Nodup

/-! Every resource of a deployment is bound to one provider. The provider that a resource
names is a registered one, of the plugin for its kind, and the only one of that reference.
In the document one block of the plugin has its name as alias, with its settings beside,
unless some provider of the plugin has an alias among its settings that comes between. -/
namespace ZoneGraph

/-! ### Providers of a stack -/

namespace Building.Reached

variable {file : DeploymentFile} {aliases : List Resource} {before : List ZoneSpec} {zones : List Zone}
  {building : Building}

theorem mem_providers_iff (h : Reached file aliases before zones building) (provider : Provider) :
    provider ∈ building.stack.providers.values ↔ file.provider provider.name = .ok provider := by
  rw [← h.providers, Stack.provider, h.arranged.mem_values_iff]
  cases Keyed.find? provider.name building.stack.providers <;> simp

theorem eq_of_reference_eq (h : Reached file aliases before zones building) {provider other : Provider}
    (hprovider : provider ∈ building.stack.providers.values) (hother : other ∈ building.stack.providers.values)
    (href : provider.reference = other.reference) : other = provider := by
  obtain ⟨-, hname⟩ := Provider.reference_inj.mp href
  rw [h.mem_providers_iff] at hprovider hother
  rw [hname] at hprovider
  exact Except.ok.inj (hother.symm.trans hprovider)

theorem nodup_providers (h : Reached file aliases before zones building) :
    building.stack.providers.values.Nodup :=
  List.Nodup.of_map _ (h.arranged.sorted_names.imp fun hlt => String.ne_of_lt hlt)

end Building.Reached

/-! ### Providers of resources -/

namespace DeploymentFile

variable {file : DeploymentFile} {servers : List Server} {stack : Stack}

/-- Whether the file has a provider under some name. -/
def Has (file : DeploymentFile) (provider : Provider) : Prop := file.provider provider.name = .ok provider

theorem has_of_provider {name : String} {provider : Provider} (h : file.provider name = .ok provider) :
    file.Has provider := by
  have hname : provider.name = name := by
    unfold DeploymentFile.provider at h
    split at h
    · obtain rfl := Except.ok.inj h
      rfl
    · cases h
  rw [Has, hname]
  exact h

theorem managed_keyAlias {entry : String × SigningKeySpec} {resource : Resource}
    (h : file.keyAlias entry = .ok resource) : ∃ provider, file.Has provider ∧ resource.ManagedBy provider := by
  obtain ⟨provider, made, hprovider, hnew, rfl⟩ := keyAlias_eq_ok.mp h
  obtain ⟨hkind, rfl⟩ := Resource.new_eq_ok.mp hnew
  exact ⟨provider, has_of_provider hprovider, rfl, hkind⟩

theorem managed_signZone {spec : ZoneSpec} {known : Provider → Prop} :
    Step.Respects (fun zone next => zone.Managed known → next.Managed known) (spec.signZone file.keyHandles) := by
  intro zone value next hrun h
  obtain ⟨-, rfl⟩ | ⟨-, handle, hsign, -⟩ := ZoneSpec.signZone_ok hrun
  · exact h
  · exact Zone.managed_sign handle _ _ _ hsign h

theorem managed_alone {spec : ZoneSpec} {calls : List (Except Fault Call)} {lookUp : Bool} {zone : Zone}
    (h : spec.alone file calls lookUp = .ok zone) : zone.Managed file.Has := by
  apply ZoneSpec.alone_keeps h
  · exact fun provider opened hprovider hopened => Zone.managed_open (has_of_provider hprovider) hopened
  · exact managed_signZone
  · exact Zone.managed_allowUser
  · exact fun name provider dnssec hprovider => Zone.managed_register (has_of_provider hprovider) dnssec
  · exact Zone.managed_perform
  · exact Zone.managed_nameservers

theorem managed_stack (h : file.build servers = .ok stack) :
    ∀ resource ∈ stack.resources.toList, ∃ provider, file.Has provider ∧ resource.ManagedBy provider := by
  obtain ⟨aliases, zones, haliases, hruns, hresources, -⟩ := build_ok h
  intro resource hresource
  rw [hresources, List.mem_append, List.mem_flatMap] at hresource
  rcases hresource with halias | ⟨zone, hzone, hresource⟩
  · have hall := Step.mapM_ok haliases
    exact Step.forall_of_forall₂ (P := fun resource => ∃ provider, file.Has provider ∧ resource.ManagedBy provider)
      (fun _ _ => managed_keyAlias) hall resource halias
  · have hmanaged := Step.forall_of_forall₂ (fun _ _ ⟨_, _, halone⟩ => managed_alone halone) (forall₂_of_runs hruns)
    exact (hmanaged zone hzone).resources resource hresource

end DeploymentFile

/-! ### Blocks of a document -/

/-- Whether a provider goes by its name among some: it has no alias among its settings, and
no other one of its plugin has its name there. -/
structure Provider.GoesByName (provider : Provider) (others : List Provider) : Prop where
  own : provider.setting? "alias" = none
  others : ∀ other ∈ others, other.kind = provider.kind → other.setting? "alias" ≠ some provider.name

theorem Provider.GoesByName.blockAlias_eq_iff {provider other : Provider} {others : List Provider}
    (h : provider.GoesByName others) (hother : other ∈ others) (hkind : other.kind = provider.kind) :
    other.blockAlias = provider.name ↔ other.name = provider.name ∧ other.setting? "alias" = none := by
  unfold Provider.blockAlias
  cases hsetting : other.setting? "alias" with
  | none => simp
  | some found =>
    have hne : found ≠ provider.name := fun heq => h.others other hother hkind (by rw [hsetting, heq])
    simp [hne]

namespace DeploymentFile

variable {file : DeploymentFile} {servers : List Server} {stack : Stack}

theorem blocksNamed_of_goesByName {aliases : List Resource} {before : List ZoneSpec} {zones : List Zone}
    {building : Building} {provider : Provider} (h : Building.Reached file aliases before zones building)
    (hprovider : provider ∈ building.stack.providers.values)
    (hname : provider.GoesByName building.stack.providers.values) :
    Stack.blocksNamed provider.kind provider.name building.stack.synth = [Stack.providerBlock provider] := by
  have hsame : ∀ other ∈ building.stack.providersOf provider.kind,
      decide (other.blockAlias = provider.name) = decide (other = provider) := by
    intro other hother
    obtain ⟨hother, hkind⟩ := List.mem_filter.mp hother
    rw [decide_eq_true_eq] at hkind
    rw [decide_eq_decide, hname.blockAlias_eq_iff hother hkind]
    constructor
    · rintro ⟨hothername, -⟩
      exact h.eq_of_reference_eq hprovider hother (Provider.reference_inj.mpr ⟨hkind.symm, hothername.symm⟩)
    · rintro rfl
      exact ⟨rfl, hname.own⟩
  have hmem : provider ∈ building.stack.providersOf provider.kind :=
    List.mem_filter.mpr ⟨hprovider, decide_eq_true rfl⟩
  have hnodup : (building.stack.providersOf provider.kind).Nodup := h.nodup_providers.filter _
  rw [Stack.blocksNamed_synth, List.filter_congr hsame, List.filter_eq, List.count_eq_one_of_mem hnodup hmem]
  rfl

/-- A provider of a file that was read has its settings in the order of their names. -/
theorem settings_sorted_of_has {text : String} {deployment : Deployment} {provider : Provider}
    (hread : Deployment.ofText text = .ok deployment) (h : deployment.file.Has provider) :
    provider.settings.keys.Pairwise (· < ·) := by
  have hentry : ∃ entry ∈ deployment.file.providers, entry.2.settings = provider.settings := by
    unfold Has DeploymentFile.provider at h
    split at h
    · rename_i spec hfind
      exact ⟨_, Keyed.mem_of_find? hfind, congrArg Provider.settings (Except.ok.inj h)⟩
    · cases h
  obtain ⟨entry, hentry, hsettings⟩ := hentry
  rw [← hsettings]
  obtain ⟨data, hfile⟩ := exists_reading_of_text hread
  exact ((wellKept_of_reading hfile).settings entry hentry).sorted

/-- Only a provider that goes by its name has one block under it with its settings. -/
theorem goesByName_of_blocksNamed {provider : Provider} {fields : Keyed Data}
    (hprovider : provider ∈ stack.providers.values)
    (hblocks : Stack.blocksNamed provider.kind provider.name stack.synth = [.table fields])
    (hfields : (fields.filter fun field => field.1 ≠ "alias") =
      Keyed.mapValues .text (Keyed.ofList provider.settings)) :
    provider.GoesByName stack.providers.values := by
  have hown : provider.setting? "alias" = none := by
    have hfind := congrArg (Keyed.find? "alias") hfields
    rw [Keyed.find?_filter_ne, if_pos rfl, Keyed.find?_mapValues] at hfind
    exact Option.map_eq_none_iff.mp hfind.symm
  refine ⟨hown, fun other hother hkind halias => ?_⟩
  -- Both providers would have a block under the name.
  rw [Stack.blocksNamed_synth] at hblocks
  obtain ⟨found, hfound, -⟩ := List.map_eq_singleton_iff.mp hblocks
  have hmem : ∀ entry ∈ stack.providers.values, entry.kind = provider.kind → entry.blockAlias = provider.name →
      entry = found := by
    intro entry hentry hsame hname
    have hkinds : entry ∈ stack.providersOf provider.kind := List.mem_filter.mpr ⟨hentry, decide_eq_true hsame⟩
    rw [← List.mem_singleton, ← hfound]
    exact List.mem_filter.mpr ⟨hkinds, decide_eq_true hname⟩
  have heq : other = provider :=
    (hmem other hother hkind (by rw [Provider.blockAlias, halias, Option.getD_some])).trans
      (hmem provider hprovider rfl (by rw [Provider.blockAlias, hown, Option.getD_none])).symm
  rw [heq, hown] at halias
  cases halias

/-- A resource of a deployment that builds names one registered provider, which is of the
plugin for its kind. One block of the plugin has the name as alias, and beside it the
settings of the provider, exactly when the provider goes by its name. -/
theorem bound_to_block (h : file.build servers = .ok stack) :
    (∀ provider, provider ∈ stack.providers.values ↔ file.provider provider.name = .ok provider) ∧
    ∀ resource ∈ stack.resources.toList, ∃ provider ∈ stack.providers.values,
      resource.provider = provider.kind.name ++ "." ++ provider.name ∧
      provider.kind = resource.kind.providerKind ∧
      (∀ other ∈ stack.providers.values, resource.provider = other.reference → other = provider) ∧
      (provider.GoesByName stack.providers.values ↔
        ∃ fields, Stack.blocksNamed provider.kind provider.name stack.synth = [.table fields] ∧
          (fields.filter fun field => field.1 ≠ "alias") = Keyed.mapValues .text (Keyed.ofList provider.settings)) ∧
      ((∃ text deployment, Deployment.ofText text = .ok deployment ∧ deployment.file = file) →
        Keyed.ofList provider.settings = provider.settings) := by
  obtain ⟨aliases, zones, building, -, -, rfl, hreached⟩ := reached_of_build h
  refine ⟨hreached.mem_providers_iff, fun resource hresource => ?_⟩
  obtain ⟨provider, hhas, href, hkind⟩ := managed_stack h resource hresource
  have hprovider := (hreached.mem_providers_iff provider).mpr hhas
  refine ⟨provider, hprovider, href, hkind, ?_, ?_, ?_⟩
  · intro other hother heq
    exact hreached.eq_of_reference_eq hprovider hother (href.symm.trans heq)
  · constructor
    · intro hname
      exact ⟨provider.blockFields, blocksNamed_of_goesByName hreached hprovider hname,
        Stack.filter_blockFields hname.own⟩
    · rintro ⟨fields, hblocks, hfields⟩
      exact goesByName_of_blocksNamed hprovider hblocks hfields
  · rintro ⟨text, deployment, hread, rfl⟩
    exact Keyed.ofList_eq_self (settings_sorted_of_has hread hhas)

/-- Where no provider has settings, each resource finds the block of its provider. -/
theorem bound_to_block_acme :
    ∃ stack, sampleFile.build [] = .ok stack ∧
      ∀ resource ∈ stack.resources.toList, ∃ (provider : Provider) (fields : Keyed Data),
        resource.provider = provider.kind.name ++ "." ++ provider.name ∧
          provider.kind = resource.kind.providerKind ∧
          Stack.blocksNamed provider.kind provider.name stack.synth = [.table fields] := by
  obtain ⟨stack, h⟩ := exists_build_sampleFile
  obtain ⟨hproviders, hresources⟩ := bound_to_block h
  have hbare : ∀ provider ∈ stack.providers.values, provider.setting? "alias" = none := by
    intro provider hprovider
    have hfound := (hproviders provider).mp hprovider
    unfold DeploymentFile.provider at hfound
    split at hfound
    · rename_i spec hfind
      have hspec := Keyed.mem_of_find? hfind
      have hsettings : spec.settings = provider.settings := congrArg Provider.settings (Except.ok.inj hfound)
      have hempty : spec.settings = [] := by
        simp only [sampleFile, List.mem_cons, List.not_mem_nil, or_false, Prod.mk.injEq] at hspec
        rcases hspec with ⟨-, rfl⟩ | ⟨-, rfl⟩ <;> rfl
      rw [Provider.setting?, ← hsettings, hempty]
      rfl
    · cases hfound
  refine ⟨stack, h, fun resource hresource => ?_⟩
  obtain ⟨provider, hprovider, href, hkind, -, hblock, -⟩ := hresources resource hresource
  have hname : provider.GoesByName stack.providers.values :=
    ⟨hbare provider hprovider, fun other hother _ => by simp [hbare other hother]⟩
  obtain ⟨fields, hblocks, -⟩ := hblock.mp hname
  exact ⟨provider, fields, href, hkind, hblocks⟩

/-- A zone of a provider that has an alias among its settings. -/
def aliasFile : DeploymentFile where
  defaults := { acmeRoot := "luffy.cx" }
  providers := [("vb", { kind := .gandi, settings := [("alias", "other")] })]
  groups := [
    { zones := [{ backend := .livedns, name := "luffy.cx", provider := "vb" }],
      records := [{ name := "www", type := some .a, values := .single "192.0.2.3" }] }]

/-- The record names a provider that no block of the document has as alias. -/
theorem unbound_of_alias :
    ∃ stack, aliasFile.build [] = .ok stack ∧
      stack.resources.toList.map (fun resource => (resource.path, resource.provider)) =
        [("G-luffy.cx/A-www", "gandi.vb")] ∧
      Stack.blocksNamed .gandi "vb" stack.synth = [] := by
  have hbuild : ((aliasFile.build []).toOption.map fun stack =>
      (stack.resources.toList.map fun resource => (resource.path, resource.provider), stack.providers)) =
      some ([("G-luffy.cx/A-www", "gandi.vb")], [("vb", ⟨.gandi, "vb", [("alias", "other")]⟩)]) := by
    decide +kernel
  obtain ⟨stack, h, hview⟩ := Step.exists_ok_of_toOption hbuild
  obtain ⟨hresources, hproviders⟩ := Prod.mk.inj hview
  refine ⟨stack, h, hresources, ?_⟩
  rw [Stack.blocksNamed_synth, Stack.providersOf, hproviders]
  decide

end DeploymentFile

end ZoneGraph
