import ZoneGraph.Proofs.Deployment.Opening
import ZoneGraph.Proofs.FanOut.Simulation
import ZoneGraph.Proofs.Stack.Declarations

/-! How a build closes the zones of a group. The calls of the group are made on each zone
as on the zone alone, and then the zone hands over what it declared. The summaries that
a build keeps are those of the zones that others delegate to, and of two zones of one
name it keeps that of the first. -/
namespace ZoneGraph

/-! ### Calling zones -/

namespace Building

/-- Calls on the zones of a group, of which there must be one, are calls on each zone by itself. -/
theorem callZones_eq_ok {calls : List (Except Fault Call)} {zones called : List Zone} {building next : Building} :
    callZones calls zones building = .ok called next ↔ zones ≠ [] ∧ next = building ∧
      List.Forall₂ (fun zone zone' => Step.each Zone.ask calls zone = .ok () zone') zones called := by
  have hown : ∀ entry (zone : Zone), FanOut.ask entry (.single zone) = FanOut.asSingle (Zone.ask entry zone) := by
    intro entry zone
    cases entry with
    | ok call => exact FanOut.perform_single call zone
    | error fault => rfl
  rw [callZones, Step.lift_bind_eq_ok, Step.forall₂_eq_ok_iff]
  constructor
  · rintro ⟨whole, hwhole, h⟩
    obtain ⟨⟨⟩, after, hrun, h⟩ := Step.run_bind_eq_ok.mp h
    obtain ⟨rfl, rfl⟩ := Step.pure_eq_ok.mp h
    obtain ⟨hall, hafter⟩ := (FanOut.each_zones_eq_ok FanOut.isMemberwise_ask hown hwhole).mp hrun
    refine ⟨?_, rfl, hall, FanOut.zones_ofList_single hafter⟩
    rintro rfl
    cases hwhole
  · rintro ⟨hne, rfl, hall, rfl⟩
    obtain ⟨whole, hwhole⟩ := FanOut.exists_ofList (List.map_eq_nil_iff.not.mpr hne)
    obtain ⟨after, hafter⟩ := FanOut.exists_ofList
      (List.map_eq_nil_iff.not.mpr (List.map_eq_nil_iff.not.mpr hne))
    have hrun := (FanOut.each_zones_eq_ok FanOut.isMemberwise_ask hown hwhole).mpr ⟨hall, hafter⟩
    exact ⟨whole, hwhole, Step.run_bind_eq_ok.mpr ⟨(), after, hrun,
      Step.pure_eq_ok.mpr ⟨FanOut.zones_ofList_single hafter, rfl⟩⟩⟩

/-! ### Closing zones -/

theorem onStack_absorb_eq_ok {resources : List Resource} {building next : Building} :
    onStack (Stack.absorb resources) building = .ok () next ↔
      ∃ set, set.toList = building.stack.resources.toList ++ resources ∧
        next = { building with stack := { building.stack with resources := set } } := by
  rw [onStack, Step.within_eq_ok]
  constructor
  · rintro ⟨stack, hstack, rfl⟩
    obtain ⟨set, rfl, hset⟩ := Stack.absorb_eq_ok.mp hstack
    exact ⟨set, hset, rfl⟩
  · rintro ⟨set, hset, rfl⟩
    exact ⟨_, Stack.absorb_eq_ok.mpr ⟨set, rfl, hset⟩, rfl⟩

theorem close_eq_ok {delegated : List String} {zone : Zone} {building next : Building} :
    close delegated zone building = .ok () next ↔
    ∃ last set, set.toList = building.stack.resources.toList ++ last.resources.toList ∧
      ((zone.name ∈ delegated ∧ Keyed.find? zone.name building.summaries = none ∧
          ∃ summary, Zone.summary zone = .ok summary last ∧
            next = { stack := { building.stack with resources := set },
                     summaries := Keyed.insert last.name summary building.summaries }) ∨
        (¬ (zone.name ∈ delegated ∧ Keyed.find? zone.name building.summaries = none) ∧ last = zone ∧
          next = { building with stack := { building.stack with resources := set } })) := by
  have hcontains : (!Keyed.contains zone.name building.summaries) = true ↔
      Keyed.find? zone.name building.summaries = none := by
    simp [Keyed.contains]
  rw [close, Step.get_bind]
  dsimp only
  split
  · rename_i hwanted
    rw [hcontains] at hwanted
    constructor
    · intro h
      obtain ⟨summary, last, hsummary, h⟩ := Step.run_bind_eq_ok.mp h
      obtain ⟨set, hset, rfl⟩ := onStack_absorb_eq_ok.mp h
      exact ⟨last, set, hset, Or.inl ⟨hwanted.1, hwanted.2, summary, hsummary, rfl⟩⟩
    · rintro ⟨last, set, hset, ⟨-, -, summary, hsummary, rfl⟩ | ⟨hskip, -⟩⟩
      · exact Step.run_bind_eq_ok.mpr ⟨summary, last, hsummary, onStack_absorb_eq_ok.mpr ⟨set, hset, rfl⟩⟩
      · exact absurd hwanted hskip
  · rename_i hwanted
    rw [hcontains] at hwanted
    constructor
    · intro h
      obtain ⟨set, hset, rfl⟩ := onStack_absorb_eq_ok.mp h
      exact ⟨zone, set, hset, Or.inr ⟨hwanted, rfl, rfl⟩⟩
    · rintro ⟨last, set, hset, ⟨hd, hfree, -⟩ | ⟨-, rfl, rfl⟩⟩
      · exact absurd ⟨hd, hfree⟩ hwanted
      · exact onStack_absorb_eq_ok.mpr ⟨set, hset, rfl⟩

end Building

/-! ### Summaries -/

theorem summaryOf?_of_ok {zone next : Zone} {summary : ZoneSummary}
    (h : Zone.summary zone = .ok summary next) : summaryOf? (.ok next) = some (next.name, summary) := by
  obtain ⟨servers, hservers, rfl⟩ := Zone.summary_eq_ok.mp h
  have hagain := Zone.summary_eq_ok.mpr ⟨servers, Zone.nameservers_again hservers, rfl⟩
  rw [summaryOf?, Step.answer_of_ok hagain]
  rfl

theorem find?_summariesOf_concat {name : String} {zones : List Zone} {zone : Zone} :
    Keyed.find? name (summariesOf ((zones ++ [zone]).map .ok)) =
      (Keyed.find? name (summariesOf (zones.map .ok))).or
        (Keyed.find? name (summaryOf? (.ok zone)).toList) := by
  rw [List.map_append, summariesOf, List.filterMap_append, Keyed.find?_append]
  rfl

theorem find?_summaryOf?_of_ne {name : String} {zone : Zone} (h : zone.name ≠ name) :
    Keyed.find? name (summaryOf? (.ok zone)).toList = none := by
  change Keyed.find? name ((Zone.summary.answer zone).toOption.map (zone.name, ·)).toList = none
  cases (Zone.summary.answer zone).toOption with
  | none => rfl
  | some summary => simp [Keyed.find?, h]

/-- Whether the summaries kept by a build are those of the zones built so far, for the
names that are delegated to. -/
structure Known (file : DeploymentFile) (before : List ZoneSpec) (zones : List Zone)
    (kept : Keyed ZoneSummary) : Prop where
  of_before : ∀ name ∈ file.delegated, (Keyed.find? name kept).isSome ↔ name ∈ before.map ZoneSpec.name
  same : ∀ name ∈ file.delegated, Keyed.find? name kept = Keyed.find? name (summariesOf (zones.map .ok))

namespace Known

variable {file : DeploymentFile} {before : List ZoneSpec} {spec : ZoneSpec} {zones : List Zone} {zone : Zone}
  {kept : Keyed ZoneSummary}

theorem nil (file : DeploymentFile) : Known file [] [] [] := by
  constructor
  · simp
  · intro name hname
    rfl

theorem insert (h : Known file before zones kept) (hname : zone.name = spec.name)
    (hfree : Keyed.find? zone.name kept = none) {summary : ZoneSummary}
    (hsummary : summaryOf? (.ok zone) = some (zone.name, summary)) :
    Known file (before ++ [spec]) (zones ++ [zone]) (Keyed.insert zone.name summary kept) := by
  constructor
  · intro name hd
    rw [Keyed.find?_insert, List.map_append, List.mem_append, ← h.of_before name hd]
    by_cases heq : zone.name = name
    · simp [heq, ← hname]
    · simp [heq, ← hname, Ne.symm heq]
  · intro name hd
    rw [Keyed.find?_insert, find?_summariesOf_concat, ← h.same name hd]
    by_cases heq : zone.name = name
    · rw [if_pos heq, ← heq, hfree, hsummary]
      simp [Keyed.find?]
    · rw [if_neg heq, find?_summaryOf?_of_ne heq, Option.or_none]

/-- A later zone of a name, or one that nobody delegates to, leaves nothing. -/
theorem skip (h : Known file before zones kept) (hname : zone.name = spec.name)
    (hskip : ¬ (zone.name ∈ file.delegated ∧ Keyed.find? zone.name kept = none)) :
    Known file (before ++ [spec]) (zones ++ [zone]) kept := by
  have hsome : ∀ name ∈ file.delegated, zone.name = name → (Keyed.find? name kept).isSome := by
    rintro name hd rfl
    exact Option.isSome_iff_ne_none.mpr fun hnone => hskip ⟨hd, hnone⟩
  constructor
  · intro name hd
    rw [List.map_append, List.mem_append, ← h.of_before name hd]
    refine ⟨Or.inl, ?_⟩
    rintro (hb | hlast)
    · exact hb
    · exact hsome name hd (by simpa [hname, eq_comm] using hlast)
  · intro name hd
    rw [find?_summariesOf_concat, ← h.same name hd]
    by_cases heq : zone.name = name
    · obtain ⟨summary, hfound⟩ := Option.isSome_iff_exists.mp (hsome name hd heq)
      rw [hfound, Option.some_or]
    · rw [find?_summaryOf?_of_ne heq, Option.or_none]

theorem isFirstDelegated_iff (h : Known file before zones kept) (hname : zone.name = spec.name) :
    spec.isFirstDelegated file before = true ↔
      zone.name ∈ file.delegated ∧ Keyed.find? zone.name kept = none := by
  rw [ZoneSpec.isFirstDelegated, decide_eq_true_eq, ← hname]
  refine and_congr_right fun hd => ?_
  rw [← h.of_before _ hd, Option.not_isSome_iff_eq_none]

end Known

/-! ### Groups -/

namespace Building

variable {file : DeploymentFile} {calls : List (Except Fault Call)} {before : List ZoneSpec}

/-- Closing a zone leaves it as its run by itself does, and hands over what it declared. -/
theorem close_called {spec : ZoneSpec} {prepared called : Zone} {zones : List Zone} {building next : Building}
    (hprepared : spec.prepared file = .ok prepared) (hcalled : Step.each Zone.ask calls prepared = .ok () called)
    (hknown : Known file before zones building.summaries)
    (h : close file.delegated called building = .ok () next) :
    ∃ zone set, spec.alone file calls (spec.isFirstDelegated file before) = .ok zone ∧
      Known file (before ++ [spec]) (zones ++ [zone]) next.summaries ∧
      next.stack = { building.stack with resources := set } ∧
      set.toList = building.stack.resources.toList ++ zone.resources.toList := by
  have hname := ZoneSpec.name_of_called hprepared hcalled
  obtain ⟨last, set, hset, ⟨hd, hfree, summary, hsummary, rfl⟩ | ⟨hskip, rfl, rfl⟩⟩ := close_eq_ok.mp h
  · obtain ⟨servers, hservers, -⟩ := Zone.summary_eq_ok.mp hsummary
    have hextends := Zone.extends_nameservers _ _ _ hservers
    have hfirst := (hknown.isFirstDelegated_iff hname).mpr ⟨hd, hfree⟩
    rw [← hextends.name_eq] at hname hfree
    refine ⟨last, set, ?_, hknown.insert hname hfree (summaryOf?_of_ok hsummary), rfl, hset⟩
    exact (ZoneSpec.alone_of_prepared hprepared).mpr ⟨called, hcalled, Or.inl ⟨hfirst, servers, hservers⟩⟩
  · have hfirst := mt (hknown.isFirstDelegated_iff hname).mp hskip
    refine ⟨last, set, ?_, hknown.skip hname hskip, rfl, hset⟩
    exact (ZoneSpec.alone_of_prepared hprepared).mpr ⟨last, hcalled, Or.inr ⟨Bool.eq_false_iff.mpr hfirst, rfl⟩⟩

/-- Closing the zones of a group leaves each as its run by itself does. -/
theorem each_close_called {specs : List ZoneSpec} {prepared called zones : List Zone} {building next : Building}
    (hprepared : List.Forall₂ (fun spec zone => spec.prepared file = .ok zone) specs prepared)
    (hcalled : List.Forall₂ (fun zone zone' => Step.each Zone.ask calls zone = .ok () zone') prepared called)
    (hknown : Known file before zones building.summaries)
    (h : Step.each (close file.delegated) called building = .ok () next) :
    ∃ built set, file.groupRuns calls before specs = built.map .ok ∧
      Known file (before ++ specs) (zones ++ built) next.summaries ∧
      next.stack = { building.stack with resources := set } ∧
      set.toList = building.stack.resources.toList ++ built.flatMap (·.resources.toList) := by
  induction hprepared generalizing called before zones building with
  | nil =>
    cases hcalled
    cases h
    exact ⟨[], _, rfl, by simpa using hknown, rfl, by simp⟩
  | @cons spec first specs others hfirst hothers ih =>
    obtain _ | @⟨_, made, _, rest, hmade, hrest⟩ := hcalled
    obtain ⟨⟨⟩, between, hclose, hclosed⟩ := Step.bind_eq_ok.mp h
    obtain ⟨zone, set, halone, hzone, hstack, hset⟩ := close_called hfirst hmade hknown hclose
    obtain ⟨built, set', hruns, hbuilt, hstack', hset'⟩ := ih hrest hzone hclosed
    refine ⟨zone :: built, set', ?_, ?_, ?_, ?_⟩
    · rw [DeploymentFile.groupRuns, halone, hruns]
      rfl
    · simpa using hbuilt
    · rw [hstack', hstack]
    · rw [hset', hstack, hset, List.flatMap_cons, List.append_assoc]

end Building

end ZoneGraph
