import ZoneGraph.Deployment.Group
import ZoneGraph.Proofs.Runs
import ZoneGraph.Zone

/-! Fan-out simulates direct calls. A run on a group succeeds exactly when the same run
succeeds on each member by itself, and it leaves each member as its own run does. A
run that is refused breaks off at the first call that any member refuses: the fault
is that of the first member to refuse it, and every member is left as a run of its
own leaves it. Members may be groups themselves. -/
namespace ZoneGraph.FanOut

variable {ζ κ : Type}

/-- Whether an operation works on a group by working on each member, from left to
right, up to the first refusal. -/
structure IsMemberwise (step : Step (FanOut ζ) Unit) : Prop where
  of_ok : ∀ {primary primary' backups backups'},
    Step.onAll step (primary :: backups) = .ok () (primary' :: backups') →
      step (.group primary backups) = .ok () (.group primary' backups')
  of_error : ∀ {primary primary' backups backups' fault},
    Step.onAll step (primary :: backups) = .error fault (primary' :: backups') →
      step (.group primary backups) = .error fault (.group primary' backups')

section Memberwise
variable {step : κ → Step (FanOut ζ) Unit}

/-- Operations made on the members one after the other make up the operations on the
group, since a group is never left without members. -/
theorem isMemberwise_each (hstep : ∀ k, IsMemberwise (step k)) (ks : List κ) :
    ∀ {primary primary' : FanOut ζ} {backups backups' : List (FanOut ζ)},
      (Step.each (fun k => Step.onAll (step k)) ks (primary :: backups) = .ok () (primary' :: backups') →
        Step.each step ks (.group primary backups) = .ok () (.group primary' backups')) ∧
      ∀ {fault}, Step.each (fun k => Step.onAll (step k)) ks (primary :: backups) =
          .error fault (primary' :: backups') →
        Step.each step ks (.group primary backups) = .error fault (.group primary' backups') := by
  induction ks with
  | nil =>
    intro primary primary' backups backups'
    constructor
    · intro h
      cases h
      rfl
    · intro fault h
      cases h
  | cons k rest ih =>
    intro primary primary' backups backups'
    constructor
    · intro h
      obtain ⟨⟨⟩, between, hk, hrest⟩ := Step.bind_eq_ok.mp h
      obtain ⟨-, rfl⟩ := Step.onAll_eq_ok.mp hk
      exact Step.bind_eq_ok.mpr ⟨(), _, (hstep k).of_ok hk, ih.1 hrest⟩
    · intro fault h
      apply Step.bind_eq_error.mpr
      rcases Step.bind_eq_error.mp h with hk | ⟨⟨⟩, between, hk, hrest⟩
      · exact Or.inl ((hstep k).of_error hk)
      · obtain ⟨-, rfl⟩ := Step.onAll_eq_ok.mp hk
        exact Or.inr ⟨(), _, (hstep k).of_ok hk, ih.2 hrest⟩

theorem ofList_eq_ok {members : List (FanOut ζ)} {whole : FanOut ζ} :
    ofList members = .ok whole ↔
      ∃ primary backups, members = primary :: backups ∧ whole = .group primary backups := by
  cases members <;> simp [ofList, eq_comm]

theorem exists_ofList {members : List (FanOut ζ)} (h : members ≠ []) : ∃ whole, ofList members = .ok whole := by
  obtain ⟨primary, backups, rfl⟩ := List.exists_cons_of_ne_nil h
  exact ⟨_, rfl⟩

/-- Operations on a group succeed exactly when they do on each member by itself. -/
theorem each_group_eq_ok (hstep : ∀ k, IsMemberwise (step k)) {ks : List κ} {primary next : FanOut ζ}
    {backups : List (FanOut ζ)} :
    Step.each step ks (.group primary backups) = .ok () next ↔
      (∀ member ∈ primary :: backups, Step.Accepts (Step.each step ks) member) ∧
        ofList ((primary :: backups).map (Step.after (Step.each step ks))) = .ok next := by
  cases h : Step.each (fun k => Step.onAll (step k)) ks (primary :: backups) with
  | ok value items =>
    obtain ⟨hall, rfl⟩ := Step.each_onAll_eq_ok.mp h
    have hgroup := (isMemberwise_each hstep ks).1 h
    rw [hgroup, List.map_cons]
    simpa [ofList] using fun _ => List.forall_mem_cons.mp hall
  | error fault items =>
    obtain ⟨b, rfl⟩ := Step.each_onAll_eq_error.mp h
    obtain ⟨primary', backups', hnext⟩ := List.exists_cons_of_ne_nil b.next_ne_nil
    have hgroup := (isMemberwise_each hstep ks).2 (hnext ▸ h)
    rw [hgroup]
    constructor
    · intro hok
      cases hok
    · rintro ⟨hall, -⟩
      have hok := Step.each_onAll_eq_ok.mpr ⟨hall, rfl⟩
      rw [h] at hok
      cases hok

/-- Operations on a group are refused where they break off on its members. -/
theorem each_group_eq_error (hstep : ∀ k, IsMemberwise (step k)) {ks : List κ} {primary next : FanOut ζ}
    {backups : List (FanOut ζ)} {fault : Fault} :
    Step.each step ks (.group primary backups) = .error fault next ↔
      ∃ b : Step.BreakOff step ks (primary :: backups) fault, ofList b.next = .ok next := by
  constructor
  · intro h
    cases hitems : Step.each (fun k => Step.onAll (step k)) ks (primary :: backups) with
    | ok value items =>
      obtain ⟨-, rfl⟩ := Step.each_onAll_eq_ok.mp hitems
      rw [(isMemberwise_each hstep ks).1 hitems] at h
      cases h
    | error found items =>
      obtain ⟨b, rfl⟩ := Step.each_onAll_eq_error.mp hitems
      obtain ⟨primary', backups', hnext⟩ := List.exists_cons_of_ne_nil b.next_ne_nil
      rw [(isMemberwise_each hstep ks).2 (hnext ▸ hitems)] at h
      cases h
      exact ⟨b, hnext ▸ rfl⟩
  · rintro ⟨b, hnext⟩
    obtain ⟨primary', backups', hlist, rfl⟩ := ofList_eq_ok.mp hnext
    exact (isMemberwise_each hstep ks).2 (hlist ▸ Step.each_onAll_eq_error.mpr ⟨b, rfl⟩)

end Memberwise

/-! ### Zones as members -/

/-- What an operation on a zone does to the zone as a member. -/
def asSingle : EStateM.Result Fault ζ Unit → EStateM.Result Fault (FanOut ζ) Unit
  | .ok _ zone => .ok () (.single zone)
  | .error fault zone => .error fault (.single zone)

/-- Operations that work on a member as others work on its zone do so one after the other. -/
theorem each_single {step : κ → Step (FanOut ζ) Unit} {own : κ → Step ζ Unit}
    (hstep : ∀ k zone, step k (.single zone) = asSingle (own k zone)) (ks : List κ) (zone : ζ) :
    Step.each step ks (.single zone) = asSingle (Step.each own ks zone) := by
  induction ks generalizing zone with
  | nil => rfl
  | cons k rest ih =>
    rw [Step.each_cons, Step.each_cons]
    have hk := hstep k zone
    cases h : own k zone with
    | ok value next =>
      rw [h] at hk
      rw [Step.bind_of_ok hk, Step.bind_of_ok h, ih]
    | error fault next =>
      rw [h] at hk
      rw [Step.bind_of_error hk, Step.bind_of_error h]
      rfl

theorem answer_single {step : Step (FanOut ζ) Unit} {own : Step ζ Unit} {zone : ζ}
    (h : step (.single zone) = asSingle (own zone)) : Step.answer step (.single zone) = Step.answer own zone := by
  unfold Step.answer
  rw [h]
  cases own zone <;> rfl

theorem after_single {step : Step (FanOut ζ) Unit} {own : Step ζ Unit} {zone : ζ}
    (h : step (.single zone) = asSingle (own zone)) :
    Step.after step (.single zone) = .single (Step.after own zone) := by
  unfold Step.after
  rw [h]
  cases own zone <;> rfl

theorem accepts_single {step : Step (FanOut ζ) Unit} {own : Step ζ Unit} {zone : ζ}
    (h : step (.single zone) = asSingle (own zone)) : Step.Accepts step (.single zone) ↔ Step.Accepts own zone := by
  unfold Step.Accepts
  rw [h]
  cases own zone <;> simp [asSingle]

theorem zonesOfAll_single (zones : List ζ) : zonesOfAll (zones.map single) = zones := by
  induction zones with
  | nil => rfl
  | cons zone rest ih =>
    rw [List.map_cons, zonesOfAll, ih]
    rfl

theorem zones_ofList_single {zones : List ζ} {whole : FanOut ζ} (h : ofList (zones.map single) = .ok whole) :
    whole.zones = zones := by
  obtain ⟨primary, backups, hlist, rfl⟩ := ofList_eq_ok.mp h
  calc
    FanOut.zones (.group primary backups) = zonesOfAll (primary :: backups) := by rw [FanOut.zones, zonesOfAll]
    _ = zones := by rw [← hlist, zonesOfAll_single]

/-- Operations on a group of zones succeed exactly when they do on each zone. -/
theorem each_zones_eq_ok {step : κ → Step (FanOut ζ) Unit} {own : κ → Step ζ Unit}
    (hstep : ∀ k, IsMemberwise (step k)) (hown : ∀ k zone, step k (.single zone) = asSingle (own k zone))
    {ks : List κ} {zones : List ζ} {whole next : FanOut ζ} (hwhole : ofList (zones.map single) = .ok whole) :
    Step.each step ks whole = .ok () next ↔
      (∀ zone ∈ zones, Step.Accepts (Step.each own ks) zone) ∧
        ofList ((zones.map (Step.after (Step.each own ks))).map single) = .ok next := by
  have hsingle := each_single hown ks
  have hafter : (zones.map single).map (Step.after (Step.each step ks)) =
      (zones.map (Step.after (Step.each own ks))).map single := by
    rw [List.map_map, List.map_map]
    exact List.map_congr_left fun zone _ => after_single (hsingle zone)
  obtain ⟨primary, backups, hlist, rfl⟩ := ofList_eq_ok.mp hwhole
  rw [each_group_eq_ok hstep, ← hlist, hafter, List.forall_mem_map]
  exact and_congr_left fun _ => forall₂_congr fun zone _ => accepts_single (hsingle zone)

/-! ### Calls -/

section Calls
variable [RecordHost ζ]

theorem performOnAll_eq (call : Call) (items : List (FanOut ζ)) :
    performOnAll call items = Step.onAll (perform call) items := by
  induction items with
  | nil => rw [performOnAll]; rfl
  | cons item rest ih =>
    rw [performOnAll, Step.onAll_cons, ih]
    cases perform call item with
    | error fault next => rfl
    | ok value next => cases Step.onAll (perform call) rest <;> rfl

theorem isMemberwise_perform (call : Call) : IsMemberwise (perform call : Step (FanOut ζ) Unit) := by
  constructor
  · intro primary primary' backups backups' h
    rw [perform, performOnAll_eq]
    obtain ⟨hp, others, hb, heq⟩ := Step.onAll_cons_eq_ok.mp h
    obtain ⟨rfl, rfl⟩ := List.cons.inj heq
    rw [Step.accepts_iff.mp hp, hb]
  · intro primary primary' backups backups' fault h
    rw [perform, performOnAll_eq]
    rcases Step.onAll_cons_eq_error.mp h with ⟨state, hp, heq⟩ | ⟨hp, others, hb, heq⟩
    · obtain ⟨rfl, rfl⟩ := List.cons.inj heq
      rw [hp]
    · obtain ⟨rfl, rfl⟩ := List.cons.inj heq
      rw [Step.accepts_iff.mp hp, hb]

theorem isMemberwise_ask (entry : Except Fault Call) : IsMemberwise (ask entry : Step (FanOut ζ) Unit) := by
  cases entry with
  | ok call => exact isMemberwise_perform call
  | error fault =>
    constructor
    · intro primary primary' backups backups' h
      obtain ⟨⟨value, next, hp⟩, -⟩ := Step.onAll_cons_eq_ok.mp h
      cases hp
    · intro primary primary' backups backups' found h
      rcases Step.onAll_cons_eq_error.mp h with ⟨state, hp, heq⟩ | ⟨⟨value, next, hp⟩, -⟩
      · cases hp
        cases heq
        rfl
      · cases hp

theorem perform_single (call : Call) (zone : ζ) : perform call (.single zone) = asSingle (call.perform zone) := by
  rw [perform]
  cases call.perform zone <;> rfl

theorem performAll_single (calls : List Call) (zone : ζ) :
    performAll calls (.single zone) = asSingle (Step.each Call.perform calls zone) :=
  each_single perform_single calls zone

end Calls

/-- Calls on a group of zones and the same calls on each member. -/
theorem performAll_group (primary : FanOut Zone) (backups : List (FanOut Zone)) (calls : List Call) :
    (Step.Accepts (performAll calls) (.group primary backups) ↔
      ∀ member ∈ primary :: backups, Step.Accepts (performAll calls) member) ∧
    (∀ next, performAll calls (.group primary backups) = .ok () next →
      ofList ((primary :: backups).map (Step.after (performAll calls))) = .ok next) ∧
    (∀ fault next, performAll calls (.group primary backups) = .error fault next ↔
      ∃ b : Step.BreakOff perform calls (primary :: backups) fault, ofList b.next = .ok next) ∧
    (∀ zone : Zone,
      Step.answer (performAll calls) (.single zone) = Step.answer (Step.each Call.perform calls) zone ∧
      Step.after (performAll calls) (.single zone) =
        .single (Step.after (Step.each Call.perform calls) zone)) := by
  have hok (next : FanOut Zone) : performAll calls (.group primary backups) = .ok () next ↔
      (∀ member ∈ primary :: backups, Step.Accepts (performAll calls) member) ∧
        ofList ((primary :: backups).map (Step.after (performAll calls))) = .ok next :=
    each_group_eq_ok isMemberwise_perform
  refine ⟨⟨?_, ?_⟩, ?_, ?_, fun zone => ⟨answer_single (performAll_single calls zone),
    after_single (performAll_single calls zone)⟩⟩
  · rintro ⟨⟨⟩, next, h⟩
    exact ((hok next).mp h).1
  · intro h
    exact ⟨(), _, (hok _).mpr ⟨h, rfl⟩⟩
  · intro next h
    exact ((hok next).mp h).2
  · intro fault next
    exact each_group_eq_error isMemberwise_perform

end ZoneGraph.FanOut
