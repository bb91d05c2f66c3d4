import ZoneGraph.Proofs.FirstOccurrences
import ZoneGraph.Proofs.Stack.Declarations
import Mathlib.Data.Finset.Insert

/-! Collections of resources that are kept with an index of their paths. A path is entered
into the index before it is known whether it was there, and moving the resources out clears
both parts, so it takes a proof that the parts agree. They do after every run, refused
operations included, so that such a collection does what one without an index does. -/
namespace ZoneGraph

/-! ### Views of a state -/

namespace Step

variable {σ τ α ι : Type} {view : σ → τ}

/-- A result with its state seen through a view. -/
def seen (view : σ → τ) : EStateM.Result Fault σ α → EStateM.Result Fault τ α
  | .ok value state => .ok value (view state)
  | .error fault state => .error fault (view state)

/-- Whether an operation does in the view of each state what another one does in the state. -/
def Mirrors (view : σ → τ) (step : Step σ α) (mirror : Step τ α) : Prop :=
  ∀ state, mirror (view state) = seen view (step state)

theorem Mirrors.after {step : Step σ α} {mirror : Step τ α} (h : Mirrors view step mirror) (state : σ) :
    after mirror (view state) = view (after step state) := by
  cases hrun : step state with
  | ok value next => rw [after_of_ok hrun, after_of_ok (by rw [h, hrun, seen])]
  | error fault next => rw [after_of_error hrun, after_of_error (by rw [h, hrun, seen])]

theorem mirrors_each {step : ι → Step σ Unit} {mirror : ι → Step τ Unit}
    (h : ∀ item, Mirrors view (step item) (mirror item)) (items : List ι) :
    Mirrors view (each step items) (each mirror items) := by
  induction items with
  | nil => exact fun _ => rfl
  | cons item rest ih =>
    intro state
    rw [each_cons, each_cons]
    cases hrun : step item state with
    | ok value next => rw [bind_of_ok hrun, bind_of_ok (by rw [h, hrun, seen]), ih]
    | error fault next => rw [bind_of_error hrun, bind_of_error (by rw [h, hrun, seen]), seen]

end Step

/-! ### The parts of a collection -/

/-- Resources in order beside an index of paths. Nothing here says that the two agree. -/
structure IndexedSet where
  held : List Resource
  index : Finset String

namespace IndexedSet

def empty : IndexedSet := ⟨[], ∅⟩

/-- Enters the path of a resource into the index, and adds the resource unless the path was there. -/
def push (resource : Resource) : Step IndexedSet Unit := fun set =>
  let entered := insert resource.path set.index
  if resource.path ∈ set.index then .error (.duplicateResource resource.path) { set with index := entered }
  else .ok () ⟨set.held ++ [resource], entered⟩

/-- Clears the index and moves every resource out. -/
def take : Step IndexedSet (List Resource) := fun set => .ok set.held ⟨[], ∅⟩

end IndexedSet

namespace ResourceSet

variable {set : ResourceSet} {resource : Resource} {resources : List Resource}

/-- The collection with an index of its paths. -/
def indexed (set : ResourceSet) : IndexedSet := ⟨set.toList, set.paths.toFinset⟩

theorem mem_paths {path : String} : path ∈ set.paths ↔ ∃ held ∈ set.toList, held.path = path := List.mem_map

theorem indexed_empty : empty.indexed = IndexedSet.empty := rfl

/-- With the index a resource is taken or refused as without. A path that was in the index
is entered once more, which leaves the index as it was. -/
theorem mirrors_push (resource : Resource) : Step.Mirrors indexed (push resource) (IndexedSet.push resource) := by
  intro set
  have hindex : resource.path ∈ set.indexed.index ↔ resource.path ∈ set.paths := List.mem_toFinset
  by_cases htaken : resource.path ∈ set.paths
  · have hentered : insert resource.path set.indexed.index = set.indexed.index :=
      Finset.insert_eq_of_mem (hindex.mpr htaken)
    rw [push_eq_error.mpr ⟨htaken, rfl, rfl⟩, Step.seen, IndexedSet.push, if_pos (hindex.mpr htaken), hentered]
  · have hentered : insert resource.path set.indexed.index = (set.append resource htaken).indexed.index := by
      ext path
      rw [indexed, indexed, paths_append, Finset.mem_insert, List.mem_toFinset, List.mem_toFinset, List.mem_append,
        List.mem_singleton, or_comm]
    rw [push_eq_ok.mpr ⟨htaken, rfl⟩, Step.seen, IndexedSet.push, if_neg (mt hindex.mp htaken), hentered]
    rfl

theorem mirrors_take : Step.Mirrors indexed take IndexedSet.take := fun _ => rfl

/-! ### Runs -/

inductive Operation where
  | push (resource : Resource)
  | take

namespace Operation

/-- What an operation leaves of a collection, refused or not. -/
def next : Operation → ResourceSet → ResourceSet
  | .push resource => Step.after (ResourceSet.push resource)
  | .take => Step.after ResourceSet.take

def nextIndexed : Operation → IndexedSet → IndexedSet
  | .push resource => Step.after (IndexedSet.push resource)
  | .take => Step.after IndexedSet.take

/-- The resources to be added since everything was last moved out, with one more operation. -/
def pending (resources : List Resource) : Operation → List Resource
  | .push resource => resources ++ [resource]
  | .take => []

theorem nextIndexed_indexed (operation : Operation) (set : ResourceSet) :
    operation.nextIndexed set.indexed = (operation.next set).indexed := by
  cases operation with
  | push resource => exact (mirrors_push resource).after set
  | take => exact mirrors_take.after set

end Operation

def run (operations : List Operation) : ResourceSet :=
  operations.foldl (fun set operation => operation.next set) empty

def runIndexed (operations : List Operation) : IndexedSet :=
  operations.foldl (fun set operation => operation.nextIndexed set) .empty

/-- The resources that some operations want to add since everything was last moved out. -/
def sinceTake (operations : List Operation) : List Resource := operations.foldl Operation.pending []

theorem runIndexed_eq (operations : List Operation) : runIndexed operations = (run operations).indexed := by
  induction operations using List.reverseRecOn with
  | nil => exact indexed_empty
  | append_singleton operations operation ih =>
    rw [run, runIndexed, List.foldl_concat, List.foldl_concat, ← run, ← runIndexed, ih]
    exact operation.nextIndexed_indexed (run operations)

/-- What is held is the first resource of each path since everything was last moved out. -/
theorem toList_run (operations : List Operation) :
    (run operations).toList = (sinceTake operations).eraseDupsBy fun resource other => resource.path = other.path := by
  induction operations using List.reverseRecOn with
  | nil => rfl
  | append_singleton operations operation ih =>
    rw [run, sinceTake, List.foldl_concat, List.foldl_concat, ← run, ← sinceTake]
    cases operation with
    | take => rfl
    | push resource =>
      have htaken : (run operations).toList.any (fun held => resource.path = held.path) = true ↔
          resource.path ∈ (run operations).paths := by
        rw [List.any_eq_true, mem_paths]
        simp only [decide_eq_true_eq, @eq_comm _ resource.path]
      rw [Operation.pending, eraseDupsBy_concat, ← ih]
      by_cases hpath : resource.path ∈ (run operations).paths
      · rw [if_pos (htaken.mpr hpath), Operation.next, Step.after_of_error (push_eq_error.mpr ⟨hpath, rfl, rfl⟩)]
      · rw [if_neg (mt htaken.mp hpath), Operation.next, Step.after_of_ok (push_eq_ok.mpr ⟨hpath, rfl⟩),
          toList_append]

/-! ### Looking up and moving out -/

/-- Since paths are distinct, the one resource of a path is found. -/
theorem get?_eq_some {path : String} :
    get? path set = some resource ↔ resource ∈ set.toList ∧ resource.path = path := by
  constructor
  · intro h
    exact ⟨List.mem_of_find?_eq_some h, by simpa using List.find?_some h⟩
  · rintro ⟨hmem, rfl⟩
    obtain ⟨found, hfound⟩ : ∃ found, get? resource.path set = some found := by
      rw [← Option.isSome_iff_exists, get?, List.find?_isSome]
      exact ⟨resource, hmem, by simp⟩
    have hpath : found.path = resource.path := by simpa using List.find?_some hfound
    rw [hfound, List.inj_on_of_nodup_map set.nodup (List.mem_of_find?_eq_some hfound) hmem hpath]

/-- A resource is taken just if no other one has its path, and then it stands last. -/
theorem push_eq_ok_iff {next : ResourceSet} : push resource set = .ok () next ↔
    (∀ held ∈ set.toList, held.path ≠ resource.path) ∧ next.toList = set.toList ++ [resource] := by
  have hfree : resource.path ∉ set.paths ↔ ∀ held ∈ set.toList, held.path ≠ resource.path := by
    rw [mem_paths]
    push Not
    rfl
  rw [push_eq_ok, ← hfree]
  constructor
  · rintro ⟨fresh, rfl⟩
    exact ⟨fresh, rfl⟩
  · rintro ⟨fresh, hnext⟩
    exact ⟨fresh, toList_inj.mp hnext⟩

theorem push_eq_error_iff {next : ResourceSet} {fault : Fault} : push resource set = .error fault next ↔
    (∃ held ∈ set.toList, held.path = resource.path) ∧ fault = .duplicateResource resource.path ∧ next = set := by
  rw [push_eq_error, mem_paths]

theorem accepts_push_empty (resource : Resource) : Step.Accepts (push resource) empty :=
  ⟨(), _, push_eq_ok.mpr ⟨List.not_mem_nil, rfl⟩⟩

/-! ### Many resources at once -/

/-- Resources are taken up to the first whose path is there or came before. -/
theorem pushAll_eq_error {next : ResourceSet} {fault : Fault} : pushAll resources set = .error fault next ↔
    ∃ before resource rest, resources = before ++ resource :: rest ∧ next.toList = set.toList ++ before ∧
      resource.path ∈ next.paths ∧ fault = .duplicateResource resource.path := by
  rw [pushAll, Step.each_eq_error]
  constructor
  · rintro ⟨before, resource, rest, between, rfl, hbefore, hpush⟩
    obtain ⟨htaken, rfl, rfl⟩ := push_eq_error.mp hpush
    exact ⟨before, resource, rest, rfl, pushAll_eq_ok.mp hbefore, htaken, rfl⟩
  · rintro ⟨before, resource, rest, rfl, hnext, htaken, rfl⟩
    exact ⟨before, resource, rest, next, rfl, pushAll_eq_ok.mpr hnext, push_eq_error.mpr ⟨htaken, rfl, rfl⟩⟩

/-- A collection can be extended by resources just if their paths are distinct and free. -/
theorem exists_extended : (∃ next : ResourceSet, next.toList = set.toList ++ resources) ↔
    (resources.map Resource.path).Nodup ∧ ∀ resource ∈ resources, resource.path ∉ set.paths := by
  have hnodup : ((set.toList ++ resources).map Resource.path).Nodup ↔
      (resources.map Resource.path).Nodup ∧ ∀ resource ∈ resources, resource.path ∉ set.paths := by
    rw [List.map_append, List.nodup_append', and_iff_right set.nodup, List.disjoint_right, List.forall_mem_map]
    rfl
  rw [← hnodup]
  constructor
  · rintro ⟨next, hnext⟩
    rw [← hnext]
    exact next.nodup
  · exact fun h => ⟨⟨_, h⟩, rfl⟩

end ResourceSet

namespace Stack

variable {stack next : Stack} {resources : List Resource} {fault : Fault}

theorem accepts_absorb : Step.Accepts (absorb resources) stack ↔
    (resources.map Resource.path).Nodup ∧ ∀ resource ∈ resources, resource.path ∉ stack.resources.paths := by
  rw [← ResourceSet.exists_extended]
  constructor
  · rintro ⟨⟨⟩, next, hrun⟩
    obtain ⟨set, -, hset⟩ := absorb_eq_ok.mp hrun
    exact ⟨set, hset⟩
  · rintro ⟨set, hset⟩
    exact ⟨(), _, absorb_eq_ok.mpr ⟨set, rfl, hset⟩⟩

/-- Absorbing resources is refused at the first whose path is there or came before. Those
before it stay. -/
theorem absorb_eq_error : absorb resources stack = .error fault next ↔
    ∃ before resource rest, resources = before ++ resource :: rest ∧
      (before.map Resource.path).Nodup ∧ (∀ other ∈ before, other.path ∉ stack.resources.paths) ∧
      resource.path ∈ stack.resources.paths ++ before.map Resource.path ∧
      fault = .duplicateResource resource.path ∧ next = { stack with resources := next.resources } ∧
      next.resources.toList = stack.resources.toList ++ before := by
  rw [absorb, Step.within_eq_error]
  constructor
  · rintro ⟨set, hpush, rfl⟩
    obtain ⟨before, resource, rest, hsplit, hset, htaken, hfault⟩ := ResourceSet.pushAll_eq_error.mp hpush
    obtain ⟨hdistinct, hfree⟩ := ResourceSet.exists_extended.mp ⟨set, hset⟩
    rw [ResourceSet.paths_of_toList hset] at htaken
    exact ⟨before, resource, rest, hsplit, hdistinct, hfree, htaken, hfault, rfl, hset⟩
  · rintro ⟨before, resource, rest, hsplit, -, -, htaken, hfault, hnext, hset⟩
    rw [← ResourceSet.paths_of_toList hset] at htaken
    have hpush := ResourceSet.pushAll_eq_error.mpr ⟨before, resource, rest, hsplit, hset, htaken, hfault⟩
    exact ⟨next.resources, hpush, hnext⟩

end Stack

namespace ResourceSet

/-- What collections of resources keep true, and what a stack has after absorbing resources.
Whatever was done to a collection, the index holds the paths of its resources, which are the
first of each path since everything was last moved out. -/
theorem kept_and_absorbed :
    (∀ operations : List Operation,
      (runIndexed operations).held = (run operations).toList ∧
      (runIndexed operations).index = ((run operations).toList.map Resource.path).toFinset ∧
      ((run operations).toList.map Resource.path).Nodup ∧
      (run operations).toList = (sinceTake operations).eraseDupsBy fun resource other => resource.path = other.path) ∧
    (∀ (set : ResourceSet) (resource : Resource),
      (∀ fault next, push resource set = .error fault next ↔
        (∃ held ∈ set.toList, held.path = resource.path) ∧ fault = .duplicateResource resource.path ∧ next = set) ∧
      (∀ next, push resource set = .ok () next ↔
        (∀ held ∈ set.toList, held.path ≠ resource.path) ∧ next.toList = set.toList ++ [resource]) ∧
      (∀ path, get? path set = some resource ↔ resource ∈ set.toList ∧ resource.path = path) ∧
      take set = .ok set.toList empty ∧ Step.Accepts (push resource) (Step.after take set) ∧
      IndexedSet.push resource set.indexed = Step.seen indexed (push resource set) ∧
      IndexedSet.take set.indexed = Step.seen indexed (take set)) ∧
    ∀ (stack : Stack) (resources : List Resource),
      Step.each IndexedSet.push resources stack.resources.indexed =
        Step.seen indexed (pushAll resources stack.resources) ∧
      (Step.Accepts (Stack.absorb resources) stack ↔
        (resources.map Resource.path).Nodup ∧ ∀ resource ∈ resources, resource.path ∉ stack.resources.paths) ∧
      (∀ next, Stack.absorb resources stack = .ok () next →
        next = { stack with resources := next.resources } ∧
          next.resources.toList = stack.resources.toList ++ resources) ∧
      ∀ fault next, Stack.absorb resources stack = .error fault next ↔
        ∃ before resource rest, resources = before ++ resource :: rest ∧
          (before.map Resource.path).Nodup ∧ (∀ other ∈ before, other.path ∉ stack.resources.paths) ∧
          resource.path ∈ stack.resources.paths ++ before.map Resource.path ∧
          fault = .duplicateResource resource.path ∧ next = { stack with resources := next.resources } ∧
          next.resources.toList = stack.resources.toList ++ before := by
  refine ⟨fun operations => ⟨?_, ?_, (run operations).nodup, toList_run operations⟩, fun set resource => ?_,
    fun stack resources => ?_⟩
  · rw [runIndexed_eq, indexed]
  · rw [runIndexed_eq, indexed, paths]
  · exact ⟨fun fault next => push_eq_error_iff, fun next => push_eq_ok_iff, fun path => get?_eq_some, rfl,
      accepts_push_empty resource, mirrors_push resource set, mirrors_take set⟩
  · refine ⟨Step.mirrors_each mirrors_push resources stack.resources, Stack.accepts_absorb, fun next hrun => ?_,
      fun fault next => Stack.absorb_eq_error⟩
    obtain ⟨set, rfl, hset⟩ := Stack.absorb_eq_ok.mp hrun
    exact ⟨rfl, hset⟩

/-- The third of four resources has the path of the first, and the first two stay. -/
theorem kept_and_absorbed_repeated :
    ∃ www mail txt next,
      Stack.absorb [www, mail, { www with kind := .hostedZone }, txt] { name := "luffy" } =
        .error (.duplicateResource "www-A") next ∧
      next.resources.toList = [www, mail] ∧ get? "mail-A" next.resources = some mail := by
  let www : Resource := ⟨.livednsRecord, "www-A", "gandi.default", none, [], []⟩
  let mail : Resource := ⟨.livednsRecord, "mail-A", "gandi.default", none, [], []⟩
  let txt : Resource := ⟨.livednsRecord, "www-TXT", "gandi.default", none, [], []⟩
  let set : ResourceSet := ⟨[www, mail], by decide⟩
  obtain ⟨-, hset, hstack⟩ := kept_and_absorbed
  have hrefused := (hstack { name := "luffy" } [www, mail, { www with kind := .hostedZone }, txt]).2.2.2
    (.duplicateResource "www-A") { name := "luffy", resources := set }
  refine ⟨www, mail, txt, _, hrefused.mpr ?_, rfl, ((hset set mail).2.2.1 "mail-A").mpr ⟨by simp [set], rfl⟩⟩
  exact ⟨[www, mail], { www with kind := .hostedZone }, [txt], rfl, by decide, by simp [empty, paths], by decide,
    rfl, rfl, rfl⟩

end ResourceSet

end ZoneGraph
