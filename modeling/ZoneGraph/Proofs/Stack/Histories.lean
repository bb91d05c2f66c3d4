import ZoneGraph.Proofs.Stack.Declarations

/-! Histories of a stack. Providers, aliases of keys, resources and outputs are declared
one after the other, and some declarations are refused. Of two providers or two outputs of
one name the first one stays, and both are kept in the order of their names. -/
namespace ZoneGraph

/-! ### First values -/

namespace Keyed

variable {α : Type} {key other : String} {value : α} {entries : Keyed α}

/-- Puts a value under a key that is free and keeps the value of one that is taken. -/
def keep (key : String) (value : α) (entries : Keyed α) : Keyed α :=
  if contains key entries then entries else insert key value entries

theorem keep_of_some {found : α} (h : find? key entries = some found) : keep key value entries = entries := by
  simp [keep, contains, h]

theorem keep_of_none (h : find? key entries = none) : keep key value entries = insert key value entries := by
  simp [keep, contains, h]

theorem find?_keep (key other : String) (value : α) (entries : Keyed α) :
    find? other (keep key value entries) = (find? other entries).or (if key = other then some value else none) := by
  cases hfind : find? key entries with
  | some found =>
    rw [keep_of_some hfind]
    split
    · rename_i heq
      rw [← heq, hfind]
      rfl
    · rw [Option.or_none]
  | none =>
    rw [keep_of_none hfind, find?_insert]
    split
    · rename_i heq
      rw [← heq, hfind]
      rfl
    · rw [Option.or_none]

theorem sorted_keep (h : entries.keys.Pairwise (· < ·)) : (keep key value entries).keys.Pairwise (· < ·) := by
  unfold keep
  split
  · exact h
  · exact sorted_insert h

end Keyed

theorem Arranged.keep {table : Keyed Provider} (h : Arranged table) (provider : Provider) :
    Arranged (Keyed.keep provider.name provider table) := by
  unfold Keyed.keep
  split
  · exact h
  · exact h.insert provider

namespace Stack

/-! ### Operations -/

inductive Operation where
  | addProvider (provider : Provider)
  | kmsAlias (id keyAlias keyId : String) (provider : Provider)
  | absorb (resources : List Resource)
  | output (name : String) (value : Data)

namespace Operation

/-- The operation itself. Its answer does not matter to the stack. -/
def step : Operation → Step Stack Unit
  | .addProvider provider => Stack.addProvider provider
  | .kmsAlias id keyAlias keyId provider => do let _ ← Stack.kmsAlias id keyAlias keyId provider
  | .absorb resources => Stack.absorb resources
  | .output name value => Stack.output name value

/-- The stack that an operation leaves behind, refused or not. -/
def next (operation : Operation) (stack : Stack) : Stack := operation.step.after stack

def provider? (name : String) : Operation → Option Provider
  | .addProvider provider => if provider.name = name then some provider else none
  | _ => none

def output? (name : String) : Operation → Option Data
  | .output other value => if other = name then some value else none
  | _ => none

variable {stack : Stack}

theorem next_addProvider (provider : Provider) (stack : Stack) :
    next (.addProvider provider) stack =
      { stack with providers := Keyed.keep provider.name provider stack.providers } := by
  rw [next, step]
  cases hfind : Keyed.find? provider.name stack.providers with
  | none =>
    rw [Keyed.keep_of_none hfind]
    exact Step.after_of_ok (addProvider_eq_ok.mpr ⟨hfind, rfl⟩)
  | some found =>
    rw [Keyed.keep_of_some hfind]
    have hrun : Stack.addProvider provider stack =
        .error (.deployment (.providerDeclaredTwice provider.name)) stack := by
      simp [Stack.addProvider, Keyed.contains, hfind]
    exact Step.after_of_error hrun

theorem next_output (name : String) (value : Data) (stack : Stack) :
    next (.output name value) stack = { stack with outputs := Keyed.keep name value stack.outputs } := by
  rw [next, step]
  cases hfind : Keyed.find? name stack.outputs with
  | none =>
    rw [Keyed.keep_of_none hfind]
    exact Step.after_of_ok (output_eq_ok.mpr ⟨hfind, rfl⟩)
  | some found =>
    rw [Keyed.keep_of_some hfind]
    have hrun : Stack.output name value stack = .error (.deployment (.outputDeclaredTwice name)) stack := by
      simp [Stack.output, Keyed.contains, hfind]
    exact Step.after_of_error hrun

theorem next_absorb (resources : List Resource) (stack : Stack) :
    ∃ set, next (.absorb resources) stack = { stack with resources := set } := by
  rw [next, step, Stack.absorb]
  cases hrun : ResourceSet.pushAll resources stack.resources with
  | ok value set => exact ⟨set, Step.after_of_ok (Step.within_of_ok hrun)⟩
  | error fault set => exact ⟨set, Step.after_of_error (Step.within_of_error hrun)⟩

/-- Declaring the alias of a key is absorbing it, once its provider was checked. -/
theorem next_kmsAlias (id keyAlias keyId : String) (provider : Provider) (stack : Stack) :
    ∃ set, next (.kmsAlias id keyAlias keyId provider) stack = { stack with resources := set } := by
  cases hnew : Resource.new .kmsAlias id provider with
  | error fault =>
    have hrun : Stack.kmsAlias id keyAlias keyId provider stack = .error fault stack := by
      rw [Stack.kmsAlias, hnew]
      rfl
    exact ⟨stack.resources, Step.after_of_error (Step.bind_of_error hrun)⟩
  | ok made =>
    let resource := made |>.setText "name" keyAlias |>.setText "target_key_id" keyId
    have hsame : Stack.kmsAlias id keyAlias keyId provider stack = (Stack.absorb [resource] >>= fun _ =>
        pure ⟨(resource.reference "target_key_arn").interpolate⟩ : Step Stack SigningKeyHandle) stack := by
      rw [Stack.kmsAlias, hnew]
      rfl
    obtain ⟨set, hset⟩ := next_absorb [resource] stack
    refine ⟨set, ?_⟩
    rw [← hset, next, next, step, step]
    cases habsorb : Stack.absorb [resource] stack with
    | ok value next =>
      rw [Step.after_of_ok habsorb]
      exact Step.after_of_ok (Step.bind_of_ok (hsame.trans (Step.bind_of_ok habsorb)))
    | error fault next =>
      rw [Step.after_of_error habsorb]
      exact Step.after_of_error (Step.bind_of_error (hsame.trans (Step.bind_of_error habsorb)))

end Operation

inductive Change (stack : Stack) : Operation → Stack → Prop where
  | provider (provider : Provider) : Change stack (.addProvider provider)
      { stack with providers := Keyed.keep provider.name provider stack.providers }
  | output (name : String) (value : Data) : Change stack (.output name value)
      { stack with outputs := Keyed.keep name value stack.outputs }
  | resources (operation : Operation) (set : ResourceSet) (hprovider : ∀ name, operation.provider? name = none)
      (houtput : ∀ name, operation.output? name = none) : Change stack operation { stack with resources := set }

theorem change_next (operation : Operation) (stack : Stack) : Change stack operation (operation.next stack) := by
  cases operation with
  | addProvider provider =>
    rw [Operation.next_addProvider]
    exact .provider provider
  | output name value =>
    rw [Operation.next_output]
    exact .output name value
  | absorb resources =>
    obtain ⟨set, hset⟩ := Operation.next_absorb resources stack
    rw [hset]
    exact .resources _ set (fun _ => rfl) fun _ => rfl
  | kmsAlias id keyAlias keyId provider =>
    obtain ⟨set, hset⟩ := Operation.next_kmsAlias id keyAlias keyId provider stack
    rw [hset]
    exact .resources _ set (fun _ => rfl) fun _ => rfl

/-- Whether the providers and the outputs of a stack are kept in order. -/
structure Kept (stack : Stack) : Prop where
  providers : Arranged stack.providers
  outputs : stack.outputs.keys.Pairwise (· < ·)

theorem kept_empty (name : String) : Kept { name } := ⟨⟨List.Pairwise.nil, by simp⟩, List.Pairwise.nil⟩

namespace Change

variable {stack next : Stack} {operation : Operation}

theorem kept (h : stack.Kept) (hchange : Change stack operation next) : next.Kept := by
  cases hchange with
  | provider provider => exact ⟨h.providers.keep provider, h.outputs⟩
  | output => exact ⟨h.providers, Keyed.sorted_keep h.outputs⟩
  | resources => exact ⟨h.providers, h.outputs⟩

theorem find?_providers (h : Change stack operation next) (name : String) :
    Keyed.find? name next.providers = (Keyed.find? name stack.providers).or (operation.provider? name) := by
  cases h with
  | provider provider => exact Keyed.find?_keep provider.name name provider stack.providers
  | output => exact Option.or_none.symm
  | resources set _ hprovider => rw [hprovider, Option.or_none]

theorem find?_outputs (h : Change stack operation next) (name : String) :
    Keyed.find? name next.outputs = (Keyed.find? name stack.outputs).or (operation.output? name) := by
  cases h with
  | provider => exact Option.or_none.symm
  | output other value => exact Keyed.find?_keep other name value stack.outputs
  | resources set _ _ houtput => rw [houtput, Option.or_none]

end Change

def run (stack : Stack) (operations : List Operation) : Stack :=
  operations.foldl (fun stack operation => operation.next stack) stack

variable {stack : Stack}

theorem run_cons (stack : Stack) (operation : Operation) (operations : List Operation) :
    stack.run (operation :: operations) = (operation.next stack).run operations := rfl

theorem kept_run (h : stack.Kept) (operations : List Operation) : (stack.run operations).Kept := by
  induction operations generalizing stack with
  | nil => exact h
  | cons operation rest ih => exact ih ((change_next operation stack).kept h)

/-- What the operations declare in turn under a name is found as the first of it. -/
theorem find?_run {α : Type} {table : Stack → Keyed α} {value? : String → Operation → Option α}
    (hstep : ∀ (stack next : Stack) (operation : Operation), Change stack operation next → ∀ name,
      Keyed.find? name (table next) = (Keyed.find? name (table stack)).or (value? name operation))
    (name : String) (operations : List Operation) (stack : Stack) :
    Keyed.find? name (table (stack.run operations)) =
      (Keyed.find? name (table stack)).or (operations.findSome? (value? name)) := by
  induction operations generalizing stack with
  | nil => exact Option.or_none.symm
  | cons operation rest ih =>
    rw [run_cons, ih, hstep stack _ operation (change_next operation stack), List.findSome?_cons, Option.or_assoc]
    cases value? name operation <;> rfl

theorem find?_providers_run (name : String) (operations : List Operation) (stack : Stack) :
    Keyed.find? name (stack.run operations).providers =
      (Keyed.find? name stack.providers).or (operations.findSome? (Operation.provider? name)) :=
  find?_run (fun _ _ _ => Change.find?_providers) name operations stack

theorem find?_outputs_run (name : String) (operations : List Operation) (stack : Stack) :
    Keyed.find? name (stack.run operations).outputs =
      (Keyed.find? name stack.outputs).or (operations.findSome? (Operation.output? name)) :=
  find?_run (fun _ _ _ => Change.find?_outputs) name operations stack

end Stack

end ZoneGraph
