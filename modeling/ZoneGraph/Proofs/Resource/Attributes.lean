import ZoneGraph.Resource

/-! Attributes of a resource that is built step by step. Putting an attribute changes
what is found under its key and nothing else. -/
namespace ZoneGraph.Resource

variable (key other value : String) (data : Data) (resource : Resource)

@[simp] theorem kind_set : (resource.set key data).kind = resource.kind := rfl

@[simp] theorem path_set : (resource.set key data).path = resource.path := rfl

@[simp] theorem zone_set : (resource.set key data).zone = resource.zone := rfl

@[simp] theorem provider_set : (resource.set key data).provider = resource.provider := rfl

@[simp] theorem dependsOn_set : (resource.set key data).dependsOn = resource.dependsOn := rfl

@[simp] theorem find?_set :
    Keyed.find? other (resource.set key data).attributes =
      if key = other then some data else Keyed.find? other resource.attributes :=
  Keyed.find?_insert key other data resource.attributes

@[simp] theorem kind_setText : (resource.setText key value).kind = resource.kind := rfl

@[simp] theorem path_setText : (resource.setText key value).path = resource.path := rfl

@[simp] theorem zone_setText : (resource.setText key value).zone = resource.zone := rfl

@[simp] theorem provider_setText : (resource.setText key value).provider = resource.provider := rfl

@[simp] theorem dependsOn_setText : (resource.setText key value).dependsOn = resource.dependsOn := rfl

@[simp] theorem find?_setText :
    Keyed.find? other (resource.setText key value).attributes =
      if key = other then some (.text value) else Keyed.find? other resource.attributes :=
  find?_set key other (.text value) resource

@[simp] theorem text?_set :
    (resource.set key data).text? other = if key = other then data.text? else resource.text? other := by
  unfold text?
  rw [find?_set]
  split <;> rfl

@[simp] theorem text?_setText :
    (resource.setText key value).text? other = if key = other then some value else resource.text? other :=
  text?_set key other (.text value) resource

end ZoneGraph.Resource
