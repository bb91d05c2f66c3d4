import ZoneGraph.Proofs.Zone.Paths
import Mathlib.Data.List.Induction

/-! Histories of a zone. A zone is opened and then many things are done to it, some of
which are refused; each leaves a zone behind. What was declared since resources were last
taken is what the zone holds: a zone holds a path of a record exactly when a record of
that path was declared since then, and it holds a registration exactly when it was
registered since then. The look-up of nameservers is kept when resources are taken. -/
namespace ZoneGraph.Zone

/-! ### Operations -/

inductive Operation where
  | call (call : Call)
  | sign (handle : Option SigningKeyHandle)
  | allowUser (name : String)
  | register (registrar : Provider) (dnssec : Bool)
  | nameservers
  | summary
  | take

namespace Operation

/-- The operation itself. Its answer does not matter to the zone. -/
def step : Operation → Step Zone Unit
  | .call asked => asked.perform
  | .sign handle => Zone.sign handle
  | .allowUser name => Zone.allowUser name
  | .register registrar dnssec => Zone.register registrar dnssec
  | .nameservers => do let _ ← Zone.nameservers
  | .summary => do let _ ← Zone.summary
  | .take => do let _ ← Zone.take

/-- The zone that an operation leaves behind, refused or not. -/
def next (operation : Operation) (zone : Zone) : Zone := operation.step.after zone

end Operation

def run (zone : Zone) (operations : List Operation) : Zone :=
  operations.foldl (fun zone operation => operation.next zone) zone

variable {P Q : Operation → Zone → Prop} {zone : Zone} {operations : List Operation} {operation : Operation}

theorem run_nil (zone : Zone) : zone.run [] = zone := rfl

theorem run_cons (zone : Zone) (operation : Operation) (operations : List Operation) :
    zone.run (operation :: operations) = (operation.next zone).run operations := rfl

theorem run_append (zone : Zone) (operations later : List Operation) :
    zone.run (operations ++ later) = (zone.run operations).run later := List.foldl_append

theorem run_concat (zone : Zone) (operations : List Operation) (operation : Operation) :
    zone.run (operations ++ [operation]) = operation.next (zone.run operations) := by
  simp [run]

/-- Whether one of the operations was such, in the state that it was made in. -/
def Ever (P : Operation → Zone → Prop) (zone : Zone) (operations : List Operation) : Prop :=
  ∃ before operation later, operations = before ++ operation :: later ∧ P operation (zone.run before)

/-- Whether one of the operations since resources were last taken was such, in the state
that it was made in. -/
def SinceTake (P : Operation → Zone → Prop) (zone : Zone) (operations : List Operation) : Prop :=
  ∃ before operation later, operations = before ++ operation :: later ∧ .take ∉ later ∧ P operation (zone.run before)

theorem not_ever_nil : ¬ Ever P zone [] := by
  rintro ⟨before, operation, later, h, -⟩
  simp at h

theorem not_sinceTake_nil : ¬ SinceTake P zone [] := by
  rintro ⟨before, operation, later, h, -⟩
  simp at h

theorem concat_eq_append_cons {before later : List Operation} {found : Operation} :
    operations ++ [operation] = before ++ found :: later ↔
      (later = [] ∧ operations = before ∧ operation = found) ∨
        ∃ more, later = more ++ [operation] ∧ operations = before ++ found :: more := by
  constructor
  · intro h
    rcases List.eq_nil_or_concat later with rfl | ⟨more, last, rfl⟩
    · obtain ⟨hbefore, hfound⟩ := List.append_inj' h rfl
      exact Or.inl ⟨rfl, hbefore, List.singleton_inj.mp hfound⟩
    · rw [List.concat_eq_append, ← List.cons_append, ← List.append_assoc] at h
      obtain ⟨hbefore, hlast⟩ := List.append_inj' h rfl
      exact Or.inr ⟨more, by rw [List.concat_eq_append, List.singleton_inj.mp hlast], hbefore⟩
  · rintro (⟨rfl, rfl, rfl⟩ | ⟨more, rfl, rfl⟩)
    · rfl
    · simp

theorem ever_concat :
    Ever P zone (operations ++ [operation]) ↔ Ever P zone operations ∨ P operation (zone.run operations) := by
  constructor
  · rintro ⟨before, found, later, h, hfound⟩
    obtain ⟨-, rfl, rfl⟩ | ⟨more, -, rfl⟩ := concat_eq_append_cons.mp h
    · exact Or.inr hfound
    · exact Or.inl ⟨before, found, more, rfl, hfound⟩
  · rintro (⟨before, found, later, rfl, hfound⟩ | hlast)
    · exact ⟨before, found, later ++ [operation], by simp, hfound⟩
    · exact ⟨operations, operation, [], rfl, hlast⟩

theorem sinceTake_concat :
    SinceTake P zone (operations ++ [operation]) ↔
      (operation ≠ .take ∧ SinceTake P zone operations) ∨ P operation (zone.run operations) := by
  constructor
  · rintro ⟨before, found, later, h, htake, hfound⟩
    obtain ⟨-, rfl, rfl⟩ | ⟨more, rfl, rfl⟩ := concat_eq_append_cons.mp h
    · exact Or.inr hfound
    · rw [List.mem_append, List.mem_singleton, not_or] at htake
      exact Or.inl ⟨Ne.symm htake.2, before, found, more, rfl, htake.1, hfound⟩
  · rintro (⟨hlast, before, found, later, rfl, htake, hfound⟩ | hlast)
    · refine ⟨before, found, later ++ [operation], by simp, ?_, hfound⟩
      rw [List.mem_append, List.mem_singleton, not_or]
      exact ⟨htake, Ne.symm hlast⟩
    · exact ⟨operations, operation, [], rfl, List.not_mem_nil, hlast⟩

theorem sinceTake_singleton : SinceTake P zone [operation] ↔ P operation zone := by
  rw [← List.nil_append [operation], sinceTake_concat, run_nil]
  exact or_iff_right fun h => not_sinceTake_nil h.2

theorem SinceTake.imp (h : SinceTake P zone operations) (himp : ∀ operation zone, P operation zone → Q operation zone) :
    SinceTake Q zone operations := by
  obtain ⟨before, found, later, hsplit, htake, hfound⟩ := h
  exact ⟨before, found, later, hsplit, htake, himp found _ hfound⟩

/-- What was done since resources were taken still counts while they are not taken again. -/
theorem SinceTake.append {later : List Operation} (h : SinceTake P zone operations) (htake : .take ∉ later) :
    SinceTake P zone (operations ++ later) := by
  obtain ⟨before, found, more, rfl, hmore, hfound⟩ := h
  exact ⟨before, found, more ++ later, by simp, by simp [hmore, htake], hfound⟩

/-! ### What an operation does -/

/-- The records that are declared before the first one refused. -/
def accepted : List Record → Zone → List Record
  | [], _ => []
  | record :: rest, zone =>
    match declare record zone with
    | .ok _ next => record :: accepted rest next
    | .error _ _ => []

def Operation.declared : Operation → Zone → List Record
  | .call asked, zone =>
    match asked.plan zone.backend.answering zone.origin with
    | .ok records => accepted records zone
    | .error _ => []
  | _, _ => []

namespace Operation

/-- Whether an operation registers the zone. -/
def Registers : Operation → Zone → Prop
  | .register registrar dnssec, zone => Step.Accepts (Zone.register registrar dnssec) zone
  | _, _ => False

/-- Whether an operation gets to know the nameservers of the zone. -/
def LooksUp : Operation → Zone → Prop
  | .nameservers, zone => Step.Accepts Zone.nameservers zone
  | .summary, zone => Step.Accepts Zone.summary zone
  | .register registrar dnssec, zone => Step.Accepts (Zone.register registrar dnssec) zone
  | _, _ => False

/-- Whether an operation declares a record that lies at the path of this one. -/
def Declares (record : Record) (operation : Operation) (zone : Zone) : Prop :=
  ∃ other ∈ operation.declared zone, other.path = record.path

end Operation

theorem accepted_prefix_records (records : List Record) (zone : Zone) : accepted records zone <+: records := by
  induction records generalizing zone with
  | nil => exact List.prefix_rfl
  | cons record rest ih =>
    unfold accepted
    split
    · exact (List.prefix_cons_inj record).mpr (ih _)
    · exact List.nil_prefix

theorem declared_record {record : Record} (h : Step.Accepts (declare record) zone) :
    (Operation.call (.record record)).declared zone = [record] := by
  obtain ⟨value, next, hdeclare⟩ := h
  change accepted [record] zone = [record]
  simp [accepted, hdeclare]

theorem after_each_declare (records : List Record) (zone : Zone) :
    ∃ set, Step.after (Step.each declare records) zone = { zone with resources := set } ∧
      set.toList = zone.resources.toList ++ (accepted records zone).map zone.recordResource := by
  induction records generalizing zone with
  | nil => exact ⟨zone.resources, rfl, (List.append_nil _).symm⟩
  | cons record rest ih =>
    rw [accepted]
    cases h : declare record zone with
    | ok value next =>
      obtain ⟨-, fresh, rfl⟩ := declare_eq_ok.mp h
      obtain ⟨set, hafter, hset⟩ :=
        ih { zone with resources := zone.resources.append (zone.recordResource record) fresh }
      refine ⟨set, ?_, ?_⟩
      · rw [Step.after_each_cons ⟨_, _, h⟩, Step.after_of_ok h, hafter]
      · rw [hset, ResourceSet.toList_append, List.append_assoc]
        rfl
    | error fault next =>
      obtain ⟨rfl, -⟩ := declare_eq_error.mp h
      refine ⟨next.resources, ?_, by simp⟩
      rw [Step.each_cons, Step.after_of_error (Step.bind_of_error h)]

/-- A call adds the records that it declares, refused or not. -/
theorem after_perform (asked : Call) (zone : Zone) :
    ∃ set, Step.after asked.perform zone = { zone with resources := set } ∧
      set.toList = zone.resources.toList ++ ((Operation.call asked).declared zone).map zone.recordResource := by
  rw [Operation.declared]
  cases hplan : asked.plan zone.backend.answering zone.origin with
  | error fault =>
    exact ⟨zone.resources, Step.after_of_error (Call.perform_of_plan_error hplan), (List.append_nil _).symm⟩
  | ok records =>
    rw [Step.after_congr (Call.perform_of_plan_ok hplan)]
    exact after_each_declare records zone

end ZoneGraph.Zone
