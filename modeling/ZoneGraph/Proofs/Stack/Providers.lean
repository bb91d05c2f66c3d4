import ZoneGraph.Proofs.Stack.Sections

/-! Provider blocks of the document. The block of a provider holds its name as alias and
its settings, and a setting of that name covers the alias. The blocks of one plugin stand
together in the order of the names. So the blocks that have a name as alias are those of
the providers of that plugin that go by it, by name or by setting. -/
namespace ZoneGraph

theorem ProviderKind.name_inj {kind other : ProviderKind} : kind.name = other.name ↔ kind = other := by
  cases kind <;> cases other <;> decide

namespace Provider

/-- The value of a setting. Of several under one name the last counts. -/
def setting? (name : String) (provider : Provider) : Option String :=
  Keyed.find? name (Keyed.ofList provider.settings)

/-- The alias in the block of a provider. -/
def blockAlias (provider : Provider) : String := (provider.setting? "alias").getD provider.name

def blockFields (provider : Provider) : Keyed Data :=
  provider.settings.foldl (fun block setting => Keyed.insert setting.1 (.text setting.2) block)
    [("alias", .text provider.name)]

theorem find?_alias_blockFields (provider : Provider) :
    Keyed.find? "alias" provider.blockFields = some (.text provider.blockAlias) := by
  rw [blockFields, Keyed.find?_foldl_insert, blockAlias, setting?]
  cases Keyed.find? "alias" (Keyed.ofList provider.settings) <;> rfl

theorem reference_inj {provider other : Provider} :
    provider.reference = other.reference ↔ provider.kind = other.kind ∧ provider.name = other.name := by
  unfold reference
  constructor
  · intro h
    have hkind : provider.kind = other.kind := by
      -- The names of the plugins begin with different letters.
      have hfirst := congrArg (fun text => text.toList.head?) h
      cases hkind : provider.kind <;> cases hother : other.kind <;>
        simp [hkind, hother, ProviderKind.name, String.toList_append] at hfirst ⊢
    rw [hkind] at h
    exact ⟨hkind, (String.append_right_inj _).mp h⟩
  · rintro ⟨hkind, hname⟩
    rw [hkind, hname]

end Provider

namespace Stack

variable {stack : Stack} {provider : Provider}

/-! ### Blocks -/

def isNamed (name : String) (block : Data) : Bool := (block.field? "alias").bind Data.text? = some name

theorem isNamed_providerBlock (name : String) (provider : Provider) :
    isNamed name (providerBlock provider) = decide (provider.blockAlias = name) := by
  have hfield : (providerBlock provider).field? "alias" = some (.text provider.blockAlias) :=
    provider.find?_alias_blockFields
  simp [isNamed, hfield, Data.text?]

/-- Beside the alias the block of a provider has its settings and nothing else. -/
theorem filter_blockFields (h : provider.setting? "alias" = none) :
    (provider.blockFields.filter fun field => field.1 ≠ "alias") =
      Keyed.mapValues .text (Keyed.ofList provider.settings) := by
  apply Keyed.eq_of_find?_eq
  · have hsorted : provider.blockFields.keys.Pairwise (· < ·) := by
      apply Keyed.sorted_foldl_insert
      simp [Keyed.keys]
    exact hsorted.sublist (List.filter_sublist.map _)
  · rw [Keyed.keys_mapValues]
    exact Keyed.sorted_ofList _
  · intro key
    rw [Keyed.find?_filter_ne, Keyed.find?_mapValues, Provider.blockFields, Keyed.find?_foldl_insert]
    split
    · rename_i halias
      subst halias
      rw [Provider.setting?] at h
      rw [h, Option.map_none]
    · rename_i hother
      simp [Keyed.find?, Ne.symm hother]

/-! ### Sections -/

/-- The providers of a plugin, in the order of their names. -/
def providersOf (kind : ProviderKind) (stack : Stack) : List Provider :=
  stack.providers.values.filter fun provider => provider.kind = kind

/-- The blocks of a plugin in a document that have a text as alias. -/
def blocksNamed (kind : ProviderKind) (name : String) (document : Data) : List Data :=
  match (document.field? "provider").bind (Data.field? kind.name) with
  | some (.list blocks) => blocks.filter (isNamed name)
  | _ => []

/-- Blocks that are gathered by plugin come after those that are there. -/
theorem find?_foldl_blocks (kind : ProviderKind) (entries : Keyed Provider) (blocks : Keyed (List Data)) :
    Keyed.find? kind.name (entries.foldl (fun blocks entry =>
        Keyed.insert entry.2.kind.name
          ((Keyed.find? entry.2.kind.name blocks).getD [] ++ [providerBlock entry.2]) blocks) blocks) =
      if (entries.values.filter fun provider => provider.kind = kind) = [] then Keyed.find? kind.name blocks
      else some ((Keyed.find? kind.name blocks).getD [] ++
        (entries.values.filter fun provider => provider.kind = kind).map providerBlock) := by
  induction entries generalizing blocks with
  | nil => simp [Keyed.values]
  | cons entry rest ih =>
    have hvalues : Keyed.values (entry :: rest) = entry.2 :: Keyed.values rest := rfl
    rw [List.foldl_cons, ih, Keyed.find?_insert, hvalues, List.filter_cons]
    by_cases hkind : entry.2.kind = kind
    · by_cases hrest : (Keyed.values rest).filter (fun provider => provider.kind = kind) = []
      · simp [hkind, hrest]
      · simp [hkind, hrest]
    · simp [hkind, ProviderKind.name_inj]

theorem find?_providerSection (kind : ProviderKind) (stack : Stack) :
    Keyed.find? kind.name stack.providerSection =
      if stack.providersOf kind = [] then none else some (.list ((stack.providersOf kind).map providerBlock)) := by
  change Keyed.find? kind.name (Keyed.mapValues Data.list _) = _
  rw [Keyed.find?_mapValues, find?_foldl_blocks, Keyed.find?_nil, Option.getD_none, List.nil_append, providersOf]
  split <;> rfl

theorem blocksNamed_synth (kind : ProviderKind) (name : String) (stack : Stack) :
    blocksNamed kind name stack.synth =
      ((stack.providersOf kind).filter fun provider => provider.blockAlias = name).map providerBlock := by
  have hsynth : stack.synth.field? "provider" = present stack.providerSection := field?_synth (by simp [sections])
  have hfield : (stack.synth.field? "provider").bind (Data.field? kind.name) =
      if stack.providersOf kind = [] then none else some (.list ((stack.providersOf kind).map providerBlock)) := by
    rw [← find?_providerSection, hsynth, present]
    split
    · rename_i hempty
      rw [List.isEmpty_iff.mp hempty]
      rfl
    · rfl
  have hnamed : isNamed name ∘ providerBlock = fun provider => decide (provider.blockAlias = name) :=
    funext fun provider => isNamed_providerBlock name provider
  rw [blocksNamed, hfield, ← hnamed, ← List.filter_map]
  by_cases hnone : stack.providersOf kind = []
  · simp [hnone]
  · simp [hnone]

end Stack

end ZoneGraph
