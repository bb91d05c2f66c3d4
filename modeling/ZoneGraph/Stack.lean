import ZoneGraph.Resource.Collection

/-! Stacks: providers, resources and outputs of one deployment, and the document made
of them. -/
namespace ZoneGraph

/-- Everything a deployment declares. Providers are kept under their names. -/
structure Stack where
  name : String
  providers : Keyed Provider := []
  resources : ResourceSet := .empty
  outputs : Keyed Data := []

namespace Stack

/-! ### Declarations -/

/-- Adds a provider under its name, which must be free. -/
def addProvider (provider : Provider) : Step Stack Unit := fun stack =>
  if Keyed.contains provider.name stack.providers then
    .error (.deployment (.providerDeclaredTwice provider.name)) stack
  else .ok () { stack with providers := Keyed.insert provider.name provider stack.providers }

def provider (name : String) (stack : Stack) : Except Fault Provider :=
  match Keyed.find? name stack.providers with
  | some provider => .ok provider
  | none => .error (.deployment (.unknownProvider name))

/-- Adds resources up to the first whose path is taken. -/
def absorb (resources : List Resource) : Step Stack Unit :=
  Step.within Stack.resources (fun resources stack => { stack with resources })
    (ResourceSet.pushAll resources)

/-- Declares an alias for a key kept outside, and gives the handle that signing needs. -/
def kmsAlias (id keyAlias keyId : String) (provider : Provider) : Step Stack SigningKeyHandle := do
  let resource ← Step.lift (Resource.new .kmsAlias id provider)
  let resource := resource |>.setText "name" keyAlias |>.setText "target_key_id" keyId
  absorb [resource]
  pure ⟨(resource.reference "target_key_arn").interpolate⟩

/-- Declares an output, whose name must be free. -/
def output (name : String) (value : Data) : Step Stack Unit := fun stack =>
  if Keyed.contains name stack.outputs then
    .error (.deployment (.outputDeclaredTwice name)) stack
  else .ok () { stack with outputs := Keyed.insert name value stack.outputs }

/-! ### Views -/

/-- Every record, in the order of declaration. -/
def records (stack : Stack) : List Published := stack.resources.records

/-- Adds a name at the end of a list that lacks it. -/
def addNew (names : List String) (name : String) : List String :=
  if name ∈ names then names else names ++ [name]

/-- The zones that declared something, in the order of their first resource. -/
def zones (stack : Stack) : List String :=
  (stack.resources.toList.filterMap Resource.zone).foldl addNew []

/-! ### The document -/

/-- The settings block of a provider. -/
def providerBlock (provider : Provider) : Data :=
  .table (provider.settings.foldl (fun block setting => Keyed.insert setting.1 (.text setting.2) block)
    [("alias", .text provider.name)])

/-- The blocks of the providers of each plugin, in the order of their names. -/
def providerSection (stack : Stack) : Keyed Data :=
  (stack.providers.foldl (fun blocks entry =>
    let kind := entry.2.kind.name
    Keyed.insert kind ((Keyed.find? kind blocks).getD [] ++ [providerBlock entry.2]) blocks) []).map
      fun blocks => (blocks.1, .list blocks.2)

/-- The body of a resource: its attributes, its provider and what it waits for. -/
def resourceBody (resource : Resource) : Keyed Data :=
  let body := Keyed.insert "provider" (.text resource.provider) resource.attributes
  if resource.dependsOn.isEmpty then body
  else Keyed.insert "depends_on" (Data.texts resource.dependsOn) body

def addBody (entries : Keyed (Keyed Data)) (resource : Resource) : Keyed (Keyed Data) :=
  let kind := resource.kind.name
  Keyed.insert kind
    (Keyed.insert resource.logicalId (.table (resourceBody resource))
      ((Keyed.find? kind entries).getD [])) entries

def resourceSection (resources : List Resource) : Keyed Data :=
  Keyed.mapValues Data.table (resources.foldl addBody [])

def outputSection (stack : Stack) : Keyed Data :=
  Keyed.mapValues (fun value => .table [("value", value)]) stack.outputs

/-- A section of the document, left out when it is empty. -/
def part (name : String) (entries : Keyed Data) : List (String × Data) :=
  if entries.isEmpty then [] else [(name, .table entries)]

/-- The document of the stack, with its keys in order. -/
def synth (stack : Stack) : Data :=
  let (data, managed) := stack.resources.toList.partition (·.kind.isData)
  .table (part "data" (resourceSection data) ++ part "output" stack.outputSection ++
    part "provider" stack.providerSection ++ part "resource" (resourceSection managed))

end Stack

end ZoneGraph
