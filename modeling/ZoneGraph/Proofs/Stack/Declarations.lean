import ZoneGraph.Proofs.Keyed
import ZoneGraph.Proofs.Zone.Declarations
import ZoneGraph.Stack

/-! What declarations do to a stack. Resources are absorbed one after the other, up to the
first whose path is taken, so resources of distinct paths are absorbed whole. A provider
or an output is added under its name, which must be free. -/
namespace ZoneGraph

/-- Whether providers stand under their own names, in the order of these. -/
structure Arranged (table : Keyed Provider) : Prop where
  sorted : table.keys.Pairwise (· < ·)
  own : ∀ entry ∈ table, entry.2.name = entry.1

theorem Arranged.insert {table : Keyed Provider} (h : Arranged table) (provider : Provider) :
    Arranged (Keyed.insert provider.name provider table) := by
  refine ⟨Keyed.sorted_insert h.sorted, fun entry hentry => ?_⟩
  rcases Keyed.mem_insert hentry with rfl | hentry
  · rfl
  · exact h.own entry hentry

theorem Arranged.mem_values_iff {table : Keyed Provider} (h : Arranged table) (provider : Provider) :
    provider ∈ table.values ↔ Keyed.find? provider.name table = some provider := by
  rw [Keyed.find?_eq_some_iff h.sorted]
  constructor
  · intro hmem
    obtain ⟨⟨name, _⟩, hentry, rfl⟩ := List.mem_map.mp hmem
    rw [h.own _ hentry]
    exact hentry
  · exact fun hentry => List.mem_map.mpr ⟨_, hentry, rfl⟩

theorem Arranged.sorted_names {table : Keyed Provider} (h : Arranged table) :
    (table.values.map Provider.name).Pairwise (· < ·) := by
  have hkeys : table.values.map Provider.name = table.keys := by
    rw [Keyed.values, Keyed.keys, List.map_map]
    exact List.map_congr_left fun entry hentry => h.own entry hentry
  rw [hkeys]
  exact h.sorted

/-- Operations that put a value under a free key each are accepted together just if the keys
are distinct. -/
theorem Step.each_insert_eq_ok {σ ι α : Type} (step : ι → Step σ Unit) (pair : ι → String × α)
    (table : σ → Keyed α) (put : Keyed α → σ → σ)
    (hstep : ∀ item state next, step item state = .ok () next ↔ Keyed.find? (pair item).1 (table state) = none ∧
      next = put (Keyed.insert (pair item).1 (pair item).2 (table state)) state)
    (htable : ∀ entries state, table (put entries state) = entries)
    (hput : ∀ entries more state, put more (put entries state) = put more state)
    (hsame : ∀ state, put (table state) state = state) {items : List ι} {state next : σ} (made : List (String × α))
    (hmade : (made.map Prod.fst).Nodup) (hstate : table state = Keyed.ofList made) :
    each step items state = .ok () next ↔
      ((made ++ items.map pair).map Prod.fst).Nodup ∧ next = put (Keyed.ofList (made ++ items.map pair)) state := by
  induction items generalizing made state with
  | nil =>
    rw [each_nil, pure_eq_ok, List.map_nil, List.append_nil, ← hstate, hsame]
    simp [hmade, eq_comm]
  | cons item rest ih =>
    have hfree : Keyed.find? (pair item).1 (table state) = none ↔ ((made ++ [pair item]).map Prod.fst).Nodup := by
      rw [hstate, Keyed.find?_eq_none, Keyed.mem_keys_ofList, List.map_append, List.map_singleton,
        (List.perm_append_singleton _ _).nodup_iff, List.nodup_cons]
      exact (and_iff_left hmade).symm
    have hrest (hnodup : ((made ++ [pair item]).map Prod.fst).Nodup) :=
      ih _ hnodup (htable (Keyed.ofList (made ++ [pair item])) state)
    simp only [hput, List.append_assoc, List.singleton_append] at hrest
    rw [each_cons, bind_eq_ok, List.map_cons]
    constructor
    · rintro ⟨⟨⟩, between, hitem, hafter⟩
      obtain ⟨hnone, rfl⟩ := (hstep _ _ _).mp hitem
      rw [hstate, ← Keyed.ofList_concat] at hafter
      exact (hrest (hfree.mp hnone)).mp hafter
    · rintro ⟨hnodup, hnext⟩
      have hfirst : ((made ++ [pair item]).map Prod.fst).Nodup := by
        refine hnodup.sublist (List.Sublist.map _ ?_)
        exact (List.Sublist.refl made).append (List.singleton_sublist.mpr (List.mem_cons_self ..))
      refine ⟨(), _, (hstep _ _ _).mpr ⟨hfree.mpr hfirst, rfl⟩, ?_⟩
      rw [hstate, ← Keyed.ofList_concat]
      exact (hrest hfirst).mpr ⟨hnodup, hnext⟩

namespace ResourceSet

variable {set next : ResourceSet} {resources : List Resource}

theorem toList_inj : set.toList = next.toList ↔ set = next := by
  cases set
  cases next
  simp

/-- Resources are absorbed whole when their paths are free and distinct, which is when the
collection with them is one. -/
theorem pushAll_eq_ok : pushAll resources set = .ok () next ↔ next.toList = set.toList ++ resources := by
  induction resources generalizing set with
  | nil =>
    rw [List.append_nil, toList_inj, eq_comm]
    exact Step.pure_eq_ok.trans (and_iff_right rfl)
  | cons resource rest ih =>
    rw [pushAll, Step.each_cons, Step.bind_eq_ok]
    constructor
    · rintro ⟨⟨⟩, between, hpush, hrest⟩
      obtain ⟨fresh, rfl⟩ := push_eq_ok.mp hpush
      rw [ih.mp hrest, toList_append, List.append_assoc]
      rfl
    · intro hnext
      have fresh : resource.path ∉ set.paths := by
        have hnodup := next.nodup
        rw [hnext, List.map_append, List.map_cons, List.nodup_append] at hnodup
        exact fun taken => hnodup.2.2 _ taken _ (List.mem_cons_self ..) rfl
      refine ⟨(), set.append resource fresh, push_eq_ok.mpr ⟨fresh, rfl⟩, ih.mpr ?_⟩
      rw [hnext, toList_append, List.append_assoc]
      rfl

end ResourceSet

namespace Stack

variable {stack next : Stack} {resources : List Resource}

theorem absorb_eq_ok : absorb resources stack = .ok () next ↔
    ∃ set, next = { stack with resources := set } ∧ set.toList = stack.resources.toList ++ resources := by
  rw [absorb, Step.within_eq_ok]
  constructor
  · rintro ⟨set, hpush, rfl⟩
    exact ⟨set, rfl, ResourceSet.pushAll_eq_ok.mp hpush⟩
  · rintro ⟨set, rfl, hset⟩
    exact ⟨set, ResourceSet.pushAll_eq_ok.mpr hset, rfl⟩

/-- Several absorptions, one after the other, are one of all their resources. -/
theorem each_absorb_eq_ok {ι : Type} {resources : ι → List Resource} {items : List ι} :
    Step.each (fun item => absorb (resources item)) items stack = .ok () next ↔
      absorb (items.flatMap resources) stack = .ok () next := by
  induction items generalizing stack with
  | nil =>
    rw [List.flatMap_nil, absorb_eq_ok]
    constructor
    · intro h
      cases h
      exact ⟨_, rfl, (List.append_nil _).symm⟩
    · rintro ⟨set, rfl, hset⟩
      rw [List.append_nil, ResourceSet.toList_inj] at hset
      rw [hset]
      rfl
  | cons item rest ih =>
    rw [Step.each_cons, Step.bind_eq_ok, absorb_eq_ok]
    constructor
    · rintro ⟨⟨⟩, between, hfirst, hrest⟩
      obtain ⟨set, rfl, hset⟩ := absorb_eq_ok.mp hfirst
      obtain ⟨set', rfl, hset'⟩ := absorb_eq_ok.mp (ih.mp hrest)
      refine ⟨set', rfl, ?_⟩
      rw [hset', hset, List.append_assoc, List.flatMap_cons]
    · rintro ⟨set, rfl, hset⟩
      rw [List.flatMap_cons, ← List.append_assoc] at hset
      have hnodup : ((stack.resources.toList ++ resources item).map Resource.path).Nodup := by
        have hall := set.nodup
        rw [hset, List.map_append] at hall
        exact (List.nodup_append.mp hall).1
      refine ⟨(), { stack with resources := ⟨_, hnodup⟩ }, absorb_eq_ok.mpr ⟨_, rfl, rfl⟩, ?_⟩
      exact ih.mpr (absorb_eq_ok.mpr ⟨set, rfl, hset⟩)

theorem addProvider_eq_ok {provider : Provider} : addProvider provider stack = .ok () next ↔
    Keyed.find? provider.name stack.providers = none ∧
      next = { stack with providers := Keyed.insert provider.name provider stack.providers } := by
  unfold addProvider Keyed.contains
  cases Keyed.find? provider.name stack.providers <;> simp [eq_comm]

theorem output_eq_ok {name : String} {value : Data} : output name value stack = .ok () next ↔
    Keyed.find? name stack.outputs = none ∧
      next = { stack with outputs := Keyed.insert name value stack.outputs } := by
  unfold output Keyed.contains
  cases Keyed.find? name stack.outputs <;> simp [eq_comm]

/-- Providers are added together just if no two of them share a name. -/
theorem each_addProvider_eq_ok {providers : List Provider} (h : stack.providers = []) :
    Step.each addProvider providers stack = .ok () next ↔
      (providers.map Provider.name).Nodup ∧
        next = { stack with
          providers := Keyed.ofList (providers.map fun provider => (provider.name, provider)) } := by
  refine (Step.each_insert_eq_ok addProvider (fun provider => (provider.name, provider)) Stack.providers
    (fun providers stack => { stack with providers }) (fun _ _ _ => addProvider_eq_ok) (fun _ _ => rfl)
    (fun _ _ _ => rfl) (fun _ => rfl) [] List.nodup_nil h).trans ?_
  rw [List.nil_append, List.map_map]
  exact Iff.rfl

def putOut (entries : List (String × Data)) : Step Stack Unit :=
  Step.each (fun entry => output entry.1 entry.2) entries

theorem putOut_append (entries more : List (String × Data)) :
    putOut (entries ++ more) = (putOut entries >>= fun _ => putOut more) :=
  Step.each_append entries more

theorem provider_putOut {entries : List (String × Data)} (h : putOut entries stack = .ok () next) (name : String) :
    next.provider name = stack.provider name := by
  refine Step.respects_each (R := fun stack next : Stack => next.provider name = stack.provider name)
    (fun _ => rfl) (fun _ _ _ h h' => h'.trans h) ?_ entries _ _ _ h
  intro entry stack _ next hrun
  obtain ⟨-, rfl⟩ := output_eq_ok.mp hrun
  rfl

/-- Outputs are declared together just if no two of them share a name, those before included. -/
theorem putOut_eq_ok {made entries : List (String × Data)} (hmade : (made.map Prod.fst).Nodup)
    (h : stack.outputs = Keyed.ofList made) :
    putOut entries stack = .ok () next ↔
      ((made ++ entries).map Prod.fst).Nodup ∧ next = { stack with outputs := Keyed.ofList (made ++ entries) } := by
  refine (Step.each_insert_eq_ok (fun entry => output entry.1 entry.2) id Stack.outputs
    (fun outputs stack => { stack with outputs }) (fun _ _ _ => output_eq_ok) (fun _ _ => rfl) (fun _ _ _ => rfl)
    (fun _ => rfl) made hmade h).trans ?_
  rw [List.map_id]

end Stack

end ZoneGraph
