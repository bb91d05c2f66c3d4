import ZoneGraph.Proofs.Deployment.Alone
import ZoneGraph.Proofs.Stack.Declarations
import ZoneGraph.Proofs.Zone.Registration
import Mathlib.Data.List.Forall2

/-! How a build opens the zones of a group. Each zone is opened, signed and registered
as it is by itself, and all that the stack keeps of it is the output for its identifier.
Whatever a zone declares, it stays named after the same things. -/
namespace ZoneGraph

/-! ### Operations within operations -/

namespace Step

variable {σ τ α ι : Type}

theorem run_eq_ok {step : Step σ α} {state part : σ} {outer next : τ} {value : α} :
    run step state outer = .ok (value, part) next ↔ step state = .ok value part ∧ next = outer := by
  unfold run
  cases step state <;> simp [eq_comm]

theorem run_bind_eq_ok {β : Type} {step : Step σ α} {second : α × σ → Step τ β} {state : σ} {outer next : τ}
    {value : β} :
    (run step state >>= second) outer = .ok value next ↔
      ∃ middle part, step state = .ok middle part ∧ second (middle, part) outer = .ok value next := by
  rw [bind_eq_ok]
  constructor
  · rintro ⟨⟨middle, part⟩, between, hrun, h⟩
    obtain ⟨hstep, rfl⟩ := run_eq_ok.mp hrun
    exact ⟨middle, part, hstep, h⟩
  · rintro ⟨middle, part, hstep, h⟩
    exact ⟨(middle, part), outer, run_eq_ok.mpr ⟨hstep, rfl⟩, h⟩

theorem collect_cons_eq_ok {step : ι → Step σ α} {item : ι} {rest : List ι} {state next : σ} {values : List α} :
    collect step (item :: rest) state = .ok values next ↔
      ∃ value others between, step item state = .ok value between ∧
        collect step rest between = .ok others next ∧ values = value :: others := by
  rw [collect, bind_eq_ok]
  constructor
  · rintro ⟨value, between, hitem, h⟩
    obtain ⟨others, last, hrest, h⟩ := bind_eq_ok.mp h
    obtain ⟨rfl, rfl⟩ := pure_eq_ok.mp h
    exact ⟨value, others, between, hitem, hrest, rfl⟩
  · rintro ⟨value, others, between, hitem, hrest, rfl⟩
    exact ⟨value, between, hitem, bind_eq_ok.mpr ⟨others, next, hrest, rfl⟩⟩

end Step

/-! ### What a zone is named after -/

namespace Zone

theorem extends_ask (entry : Except Fault Call) : Step.Respects Extends (ask entry) := by
  intro zone value next h
  cases entry with
  | ok call => exact extends_perform call _ _ _ h
  | error fault => cases h

theorem extends_each_ask (calls : List (Except Fault Call)) : Step.Respects Extends (Step.each ask calls) :=
  Step.respects_each Extends.refl (fun _ _ _ => Extends.trans) extends_ask calls

theorem Extends.name_eq {zone next : Zone} (h : zone.Extends next) : next.name = zone.name := by
  obtain ⟨set, lookup, rfl, -⟩ := h
  rfl

end Zone

namespace ZoneSpec

theorem openZone_ok {defaults : ZoneDefaults} {provider : Provider} {spec : ZoneSpec} {zone : Zone}
    (h : spec.openZone defaults provider = .ok zone) :
    Zone.open spec.backend ⟨spec.name, defaults⟩ provider = .ok zone := by
  unfold openZone at h
  split at h
  · cases h
  · exact h

theorem signZone_ok {keys : Keyed SigningKeyHandle} {spec : ZoneSpec} {zone next : Zone}
    (h : spec.signZone keys zone = .ok () next) :
    (spec.sign = false ∧ next = zone) ∨
      (spec.sign = true ∧ ∃ handle, Zone.sign handle zone = .ok () next ∧
        ∀ found, handle = some found → ∃ name, Keyed.find? name keys = some found) := by
  unfold signZone at h
  by_cases hsign : spec.sign = true
  · rw [if_pos hsign] at h
    refine Or.inr ⟨hsign, ?_⟩
    cases hbackend : spec.backend with
    | livedns =>
      rw [hbackend] at h
      exact ⟨none, h, nofun⟩
    | route53 =>
      rw [hbackend] at h
      obtain ⟨handle, hhandle, h⟩ := Step.lift_bind_eq_ok.mp h
      refine ⟨some handle, h, ?_⟩
      rintro _ ⟨⟩
      unfold signingHandle at hhandle
      split at hhandle
      · cases hhandle
      · rename_i name hname
        split at hhandle
        · rename_i hfound
          cases hhandle
          exact ⟨name, hfound⟩
        · cases hhandle
  · rw [if_neg hsign] at h
    obtain ⟨-, rfl⟩ := Step.pure_eq_ok.mp h
    exact Or.inl ⟨Bool.eq_false_iff.mpr hsign, rfl⟩

theorem signZone_extends {keys : Keyed SigningKeyHandle} {spec : ZoneSpec} {zone next : Zone}
    (hunsigned : zone.key = none) (h : spec.signZone keys zone = .ok () next) :
    ∃ key, key.isSome = spec.sign ∧ Zone.Extends { zone with key } next := by
  obtain ⟨hsign, rfl⟩ | ⟨hsign, handle, hrun, -⟩ := signZone_ok h
  · exact ⟨none, hsign.symm, hunsigned ▸ Zone.Extends.refl _⟩
  · obtain ⟨key, hextends⟩ := Zone.sign_extends hrun
    exact ⟨some key, hsign.symm, hextends⟩

/-- What a zone is before any call is fixed by its spec, its provider and its key. -/
theorem prepared_extends {file : DeploymentFile} {spec : ZoneSpec} {zone : Zone}
    (h : spec.prepared file = .ok zone) :
    ∃ provider opened key, Zone.open spec.backend ⟨spec.name, file.defaults⟩ provider = .ok opened ∧
      key.isSome = spec.sign ∧ Zone.Extends { opened with key } zone := by
  obtain ⟨provider, opened, signed, allowed, -, hopened, hsigned, hallowed, h⟩ := prepared_eq_ok.mp h
  have hopened := openZone_ok hopened
  obtain ⟨-, -, -, -, hunsigned, -⟩ := Zone.open_eq_ok hopened
  obtain ⟨key, hkey, hextends⟩ := signZone_extends hunsigned hsigned
  have hallowed := Step.respects_each Zone.Extends.refl (fun _ _ _ => Zone.Extends.trans) Zone.extends_allowUser
    _ _ _ _ hallowed
  refine ⟨provider, opened, key, hopened, hkey, hextends.trans (hallowed.trans ?_)⟩
  rcases registered_eq_ok.mp h with ⟨-, rfl⟩ | ⟨registrar, provider, -, -, hrun⟩
  · exact Zone.Extends.refl _
  · exact Zone.extends_register _ _ _ _ _ hrun

/-- What a zone built by itself is, and whether its nameservers are known. -/
theorem alone_extends {file : DeploymentFile} {spec : ZoneSpec} {calls : List (Except Fault Call)} {lookUp : Bool}
    {zone : Zone} (h : spec.alone file calls lookUp = .ok zone) :
    (∃ provider opened key, Zone.open spec.backend ⟨spec.name, file.defaults⟩ provider = .ok opened ∧
        key.isSome = spec.sign ∧ Zone.Extends { opened with key } zone) ∧
      (lookUp = true → ¬ zone.needsLookup) := by
  obtain ⟨prepared, called, hprepared, hcalled, hlast⟩ := alone_eq_ok.mp h
  obtain ⟨provider, opened, key, hopened, hkey, hextends⟩ := prepared_extends hprepared
  have hextends := hextends.trans (Zone.extends_each_ask calls _ _ _ hcalled)
  rcases hlast with ⟨-, servers, hservers⟩ | ⟨hfalse, rfl⟩
  · exact ⟨⟨provider, opened, key, hopened, hkey, hextends.trans (Zone.extends_nameservers _ _ _ hservers)⟩,
      fun _ => (Zone.nameservers_known hservers).1⟩
  · exact ⟨⟨provider, opened, key, hopened, hkey, hextends⟩, fun htrue => absurd htrue (by simp [hfalse])⟩

/-- With the zone before any call, a zone built by itself is told by its calls and its look-up. -/
theorem alone_of_prepared {file : DeploymentFile} {spec : ZoneSpec} {calls : List (Except Fault Call)} {lookUp : Bool}
    {prepared zone : Zone} (hprepared : spec.prepared file = .ok prepared) :
    spec.alone file calls lookUp = .ok zone ↔ ∃ called, Step.each Zone.ask calls prepared = .ok () called ∧
      ((lookUp = true ∧ ∃ servers, Zone.nameservers called = .ok servers zone) ∨ (lookUp = false ∧ called = zone)) := by
  rw [alone_eq_ok, hprepared]
  simp

theorem extends_of_alone {file : DeploymentFile} {spec : ZoneSpec} {calls : List (Except Fault Call)} {lookUp : Bool}
    {prepared zone : Zone} (hprepared : spec.prepared file = .ok prepared)
    (h : spec.alone file calls lookUp = .ok zone) : prepared.Extends zone := by
  obtain ⟨called, hcalled, hlast⟩ := (alone_of_prepared hprepared).mp h
  have hextends := Zone.extends_each_ask calls _ _ _ hcalled
  rcases hlast with ⟨-, servers, hservers⟩ | ⟨-, rfl⟩
  · exact hextends.trans (Zone.extends_nameservers _ _ _ hservers)
  · exact hextends

theorem named_of_alone {file : DeploymentFile} {spec : ZoneSpec} {calls : List (Except Fault Call)} {lookUp : Bool}
    {zone : Zone} (h : spec.alone file calls lookUp = .ok zone) :
    zone.backend = spec.backend ∧ zone.name = spec.name := by
  obtain ⟨⟨provider, opened, key, hopened, -, set, lookup, rfl, -⟩, -⟩ := alone_extends h
  obtain ⟨hbackend, horigin, -⟩ := Zone.open_eq_ok hopened
  exact ⟨hbackend, congrArg Origin.name horigin⟩

/-- What opening gives and every operation keeps, a zone built by itself has. -/
theorem alone_keeps {P : Zone → Prop} {file : DeploymentFile} {spec : ZoneSpec} {calls : List (Except Fault Call)}
    {lookUp : Bool} {zone : Zone} (h : spec.alone file calls lookUp = .ok zone)
    (hopen : ∀ provider opened, file.provider spec.provider = .ok provider →
      Zone.open spec.backend ⟨spec.name, file.defaults⟩ provider = .ok opened → P opened)
    (hsign : Step.Respects (fun zone next => P zone → P next) (spec.signZone file.keyHandles))
    (hallow : ∀ name, Step.Respects (fun zone next => P zone → P next) (Zone.allowUser name))
    (hregister : ∀ name provider dnssec, file.provider name = .ok provider →
      Step.Respects (fun zone next => P zone → P next) (Zone.register provider dnssec))
    (hcall : ∀ call : Call, Step.Respects (fun zone next => P zone → P next) (call.perform : Step Zone Unit))
    (hnameservers : Step.Respects (fun zone next => P zone → P next) Zone.nameservers) : P zone := by
  have hask (entry : Except Fault Call) : Step.Respects (fun zone next => P zone → P next) (Zone.ask entry) := by
    intro zone value next hrun
    cases entry with
    | ok call => exact hcall call _ _ _ hrun
    | error fault => cases hrun
  obtain ⟨prepared, called, hprepared, hcalled, hlast⟩ := alone_eq_ok.mp h
  obtain ⟨provider, opened, signed, allowed, hprovider, hopened, hsigned, hallowed, hregistered⟩ :=
    prepared_eq_ok.mp hprepared
  have hopened : P opened := hopen _ _ hprovider (openZone_ok hopened)
  have hallowed : P allowed := Step.each_keeps hallow spec.allowUsers _ _ _ hallowed (hsign _ _ _ hsigned hopened)
  have hprepared : P prepared := by
    rcases registered_eq_ok.mp hregistered with ⟨-, rfl⟩ | ⟨registrar, provider, -, hfound, hrun⟩
    · exact hallowed
    · exact hregister _ _ _ hfound _ _ _ hrun hallowed
  have hcalled : P called := Step.each_keeps hask calls _ _ _ hcalled hprepared
  rcases hlast with ⟨-, servers, hservers⟩ | ⟨-, rfl⟩
  · exact hnameservers _ _ _ hservers hcalled
  · exact hcalled

theorem name_of_prepared {file : DeploymentFile} {spec : ZoneSpec} {zone : Zone}
    (h : spec.prepared file = .ok zone) : zone.name = spec.name := by
  obtain ⟨provider, opened, key, hopened, -, hextends⟩ := prepared_extends h
  obtain ⟨-, horigin, -⟩ := Zone.open_eq_ok hopened
  rw [hextends.name_eq, Zone.name, horigin]

theorem name_of_called {file : DeploymentFile} {spec : ZoneSpec} {calls : List (Except Fault Call)}
    {prepared called : Zone} (hprepared : spec.prepared file = .ok prepared)
    (hcalled : Step.each Zone.ask calls prepared = .ok () called) : called.name = spec.name := by
  rw [(Zone.extends_each_ask calls _ _ _ hcalled).name_eq]
  exact name_of_prepared hprepared

/-- The output for a zone stays the same when the zone declares more. -/
theorem output_of_extends {spec : ZoneSpec} {zone next : Zone} (h : zone.Extends next) :
    spec.output next = spec.output zone := by
  obtain ⟨set, lookup, rfl, -⟩ := h
  rfl

theorem output_of_registered {file : DeploymentFile} {spec : ZoneSpec} {zone next : Zone}
    (h : spec.registered file zone = .ok next) : spec.output next = spec.output zone := by
  rcases registered_eq_ok.mp h with ⟨-, rfl⟩ | ⟨registrar, provider, -, -, hrun⟩
  · rfl
  · exact output_of_extends (Zone.extends_register _ _ _ _ _ hrun)

end ZoneSpec

/-! ### Opening a zone -/

namespace ZoneSpec

variable {file : DeploymentFile} {spec : ZoneSpec} {stack next : Stack} {zone : Zone}

theorem outputZone_eq (spec : ZoneSpec) (zone : Zone) :
    spec.outputZone zone = Stack.putOut (spec.output zone).toList := by
  unfold outputZone output Stack.putOut
  cases spec.outputZoneId with
  | none => rfl
  | some name => exact (Step.each_singleton _).symm

theorem registrarOf_eq_ok {registrar : Option (Provider × Bool)}
    (hproviders : ∀ name, stack.provider name = file.provider name) :
    spec.registrarOf stack = .ok registrar next ↔ next = stack ∧
      ((spec.registrar = none ∧ registrar = none) ∨
        ∃ asked provider, spec.registrar = some asked ∧ file.provider asked.provider = .ok provider ∧
          registrar = some (provider, asked.dnssec)) := by
  unfold registrarOf
  cases spec.registrar with
  | none =>
    rw [Step.pure_eq_ok]
    simp [eq_comm, and_comm]
  | some asked =>
    dsimp only
    rw [Step.get_bind, Step.lift_bind_eq_ok]
    simp only [hproviders, Step.pure_eq_ok]
    constructor
    · rintro ⟨provider, hprovider, rfl, rfl⟩
      exact ⟨rfl, Or.inr ⟨asked, provider, rfl, hprovider, rfl⟩⟩
    · rintro ⟨rfl, ⟨hnone, -⟩ | ⟨_, provider, hsome, hprovider, rfl⟩⟩
      · cases hnone
      · cases hsome
        exact ⟨provider, hprovider, rfl, rfl⟩

/-- A deployment's zone starts out as the zone does by itself. All that the stack keeps
of it is the output. -/
theorem build_eq_ok (hproviders : ∀ name, stack.provider name = file.provider name) :
    spec.build file.defaults file.keyHandles stack = .ok zone next ↔
      spec.prepared file = .ok zone ∧ Stack.putOut (spec.output zone).toList stack = .ok () next := by
  have hkept {put : Stack} {entries : List (String × Data)} (h : Stack.putOut entries stack = .ok () put)
      (name : String) : put.provider name = file.provider name := (Stack.provider_putOut h name).trans (hproviders name)
  rw [build, Step.get_bind]
  constructor
  · intro h
    obtain ⟨provider, hprovider, h⟩ := Step.lift_bind_eq_ok.mp h
    obtain ⟨opened, hopened, h⟩ := Step.lift_bind_eq_ok.mp h
    obtain ⟨⟨⟩, signed, hsigned, h⟩ := Step.run_bind_eq_ok.mp h
    obtain ⟨⟨⟩, allowed, hallowed, h⟩ := Step.run_bind_eq_ok.mp h
    obtain ⟨⟨⟩, put, hput, h⟩ := Step.bind_eq_ok.mp h
    rw [outputZone_eq] at hput
    obtain ⟨registrar, start, hregistrar, h⟩ := Step.bind_eq_ok.mp h
    obtain ⟨rfl, hasked⟩ := (registrarOf_eq_ok (hkept hput)).mp hregistrar
    have hzone : spec.registered file allowed = .ok zone ∧ next = start := by
      rw [registered_eq_ok]
      rcases hasked with ⟨hnone, rfl⟩ | ⟨asked, provider, hsome, hfound, rfl⟩
      · obtain ⟨rfl, rfl⟩ := Step.pure_eq_ok.mp h
        exact ⟨Or.inl ⟨hnone, rfl⟩, rfl⟩
      · obtain ⟨⟨⟩, final, hrun, h⟩ := Step.run_bind_eq_ok.mp h
        obtain ⟨rfl, rfl⟩ := Step.pure_eq_ok.mp h
        exact ⟨Or.inr ⟨asked, provider, hsome, hfound, hrun⟩, rfl⟩
    obtain ⟨hregistered, rfl⟩ := hzone
    rw [hproviders] at hprovider
    rw [output_of_registered hregistered]
    exact ⟨prepared_eq_ok.mpr ⟨provider, opened, signed, allowed, hprovider, hopened, hsigned, hallowed, hregistered⟩,
      hput⟩
  · rintro ⟨hprepared, hput⟩
    obtain ⟨provider, opened, signed, allowed, hprovider, hopened, hsigned, hallowed, hregistered⟩ :=
      prepared_eq_ok.mp hprepared
    rw [← hproviders] at hprovider
    refine Step.lift_bind_eq_ok.mpr ⟨provider, hprovider, Step.lift_bind_eq_ok.mpr ⟨opened, hopened,
      Step.run_bind_eq_ok.mpr ⟨(), signed, hsigned, Step.run_bind_eq_ok.mpr ⟨(), allowed, hallowed,
      Step.bind_eq_ok.mpr ⟨(), next, ?_, ?_⟩⟩⟩⟩⟩
    · rw [outputZone_eq]
      rwa [output_of_registered hregistered] at hput
    · rcases registered_eq_ok.mp hregistered with ⟨hnone, rfl⟩ | ⟨asked, provider, hsome, hfound, hrun⟩
      · exact Step.bind_eq_ok.mpr ⟨none, _, (registrarOf_eq_ok (hkept hput)).mpr ⟨rfl, Or.inl ⟨hnone, rfl⟩⟩, rfl⟩
      · exact Step.bind_eq_ok.mpr ⟨some (provider, asked.dnssec), _,
          (registrarOf_eq_ok (hkept hput)).mpr ⟨rfl, Or.inr ⟨asked, provider, hsome, hfound, rfl⟩⟩,
          Step.run_bind_eq_ok.mpr ⟨(), zone, hrun, rfl⟩⟩

theorem outputs_cons (spec : ZoneSpec) (specs : List ZoneSpec) (zone : Zone) (zones : List Zone) :
    outputs (spec :: specs) (zone :: zones) = (spec.output zone).toList ++ outputs specs zones := by
  rw [outputs, List.zip_cons_cons, List.filterMap_cons]
  cases spec.output zone <;> rfl

theorem outputs_append {specs more : List ZoneSpec} {zones others : List Zone}
    (h : specs.length = zones.length) :
    outputs (specs ++ more) (zones ++ others) = outputs specs zones ++ outputs more others := by
  rw [outputs, List.zip_append h, List.filterMap_append]
  rfl

theorem outputs_of_prepared {calls : List (Except Fault Call)} {specs before : List ZoneSpec}
    {prepared built : List Zone} (hprepared : List.Forall₂ (fun spec zone => spec.prepared file = .ok zone) specs prepared)
    (hruns : file.groupRuns calls before specs = built.map .ok) : outputs specs built = outputs specs prepared := by
  induction hprepared generalizing before built with
  | nil =>
    obtain rfl := List.map_eq_nil_iff.mp hruns.symm
    rfl
  | cons hfirst _ ih =>
    rw [DeploymentFile.groupRuns] at hruns
    obtain ⟨zone, rest, rfl, halone, hrest⟩ := List.map_eq_cons_iff.mp hruns.symm
    rw [outputs_cons, outputs_cons, ih hrest.symm, output_of_extends (extends_of_alone hfirst halone.symm)]

/-- Opening some zones is opening each by itself and putting out what is to be known of them. -/
theorem collect_build_eq_ok {specs : List ZoneSpec} {zones : List Zone}
    (hproviders : ∀ name, stack.provider name = file.provider name) :
    Step.collect (build file.defaults file.keyHandles) specs stack = .ok zones next ↔
      List.Forall₂ (fun spec zone => spec.prepared file = .ok zone) specs zones ∧
        Stack.putOut (outputs specs zones) stack = .ok () next := by
  induction specs generalizing stack zones with
  | nil =>
    constructor
    · intro h
      cases h
      exact ⟨.nil, rfl⟩
    · rintro ⟨hprepared, hput⟩
      cases hprepared
      cases hput
      rfl
  | cons spec rest ih =>
    rw [Step.collect_cons_eq_ok]
    constructor
    · rintro ⟨zone, others, between, hbuild, hrest, rfl⟩
      obtain ⟨hprepared, hput⟩ := (build_eq_ok hproviders).mp hbuild
      obtain ⟨hothers, hmore⟩ := (ih fun name => (Stack.provider_putOut hput name).trans (hproviders name)).mp hrest
      refine ⟨.cons hprepared hothers, ?_⟩
      rw [outputs_cons, Stack.putOut_append]
      exact Step.bind_eq_ok.mpr ⟨(), _, hput, hmore⟩
    · rintro ⟨hprepared, hput⟩
      obtain _ | @⟨_, zone, _, others, hfirst, hothers⟩ := hprepared
      rw [outputs_cons, Stack.putOut_append] at hput
      obtain ⟨⟨⟩, between, hput, hmore⟩ := Step.bind_eq_ok.mp hput
      have hrest := (ih fun name => (Stack.provider_putOut hput name).trans (hproviders name)).mpr ⟨hothers, hmore⟩
      exact ⟨zone, others, between, (build_eq_ok hproviders).mpr ⟨hfirst, hput⟩, hrest, rfl⟩

end ZoneSpec

end ZoneGraph
