import ZoneGraph.Resource.Published
import ZoneGraph.Step

/-! Collections of resources in the order they were declared. No two have one path. -/
namespace ZoneGraph

/-- Resources with pairwise distinct paths, in the order they were declared. -/
structure ResourceSet where
  toList : List Resource
  nodup : (toList.map Resource.path).Nodup

namespace ResourceSet

def empty : ResourceSet := ⟨[], by simp⟩

instance : Inhabited ResourceSet := ⟨empty⟩

def paths (set : ResourceSet) : List String := set.toList.map Resource.path

def size (set : ResourceSet) : Nat := set.toList.length

def isEmpty (set : ResourceSet) : Bool := set.toList.isEmpty

def append (set : ResourceSet) (resource : Resource) (fresh : resource.path ∉ set.paths) : ResourceSet where
  toList := set.toList ++ [resource]
  nodup := by
    rw [List.map_append, List.nodup_append]
    refine ⟨set.nodup, by simp, ?_⟩
    intro path held other new
    simp only [List.map_cons, List.map_nil, List.mem_singleton] at new
    rintro rfl
    exact fresh (new ▸ held)

/-- Adds a resource at the end unless its path is taken. -/
def push (resource : Resource) : Step ResourceSet Unit := fun set =>
  if taken : resource.path ∈ set.paths then .error (.duplicateResource resource.path) set
  else .ok () (set.append resource taken)

/-- Adds resources one after the other, up to the first whose path is taken. -/
def pushAll (resources : List Resource) : Step ResourceSet Unit := Step.each push resources

def get? (path : String) (set : ResourceSet) : Option Resource :=
  set.toList.find? fun resource => resource.path = path

def ofKind (kind : ResourceKind) (set : ResourceSet) : List Resource :=
  set.toList.filter fun resource => resource.kind = kind

def records (set : ResourceSet) : List Published := set.toList.filterMap Published.ofResource?

def take : Step ResourceSet (List Resource) := fun set => .ok set.toList empty

end ResourceSet

end ZoneGraph
