import ZoneGraph.Proofs.Bundle.Watched
import ZoneGraph.Proofs.Zone.Declarations
import Mathlib.Data.List.Induction

/-! Bundles as they are presented. A bundle can be told record by record, reading the name
and the settings of the zone where it needs them, on any host that takes records one by one.
Told so it does what its plan does: it presents the records of a list that is fixed by the
zone's name and settings, in order, up to the first one refused, and none after it. -/
namespace ZoneGraph

/-! ### Bundles told record by record -/

namespace Bundle

variable {ζ : Type} [RecordHost ζ]

/-- The addresses of some servers, family by family, as they are come across. -/
def gather (servers : List Server) : List String × List String :=
  servers.foldl (fun found server => (found.1 ++ server.ipv4.toList, found.2 ++ server.ipv6.toList)) ([], [])

def presentAddresses (name : String) (servers : List Server) (options : RecordOptions) : Step ζ Unit :=
  Step.each (fun family : RecordType × List String =>
      if family.2.isEmpty then pure ()
      else RecordHost.declare ⟨name, family.1, .list family.2, options⟩)
    [(.a, (gather servers).1), (.aaaa, (gather servers).2)]

/-- Presents the records of mail hosting. The name of the zone is read on the way. -/
def presentMailHosting (subdomains : List String) : Step ζ Unit := do
  Step.each (fun name => RecordHost.declare ⟨name, .mx, .list mailHosts, {}⟩) (subdomains ++ [apex, "*"])
  RecordHost.declare ⟨apex, .txt, .single senderPolicy, {}⟩
  let zone := (RecordHost.origin (← get)).name
  Step.each (fun selector =>
    RecordHost.declare ⟨selector ++ "._domainkey", .cname, .single (mailKeyTarget selector zone), {}⟩) mailSelectors
  RecordHost.declare ⟨"_dmarc", .txt, .single messagePolicy, {}⟩

def presentMailServices : Step ζ Unit := do
  RecordHost.declare ⟨"_submission._tcp", .srv, .single "0 1 587 smtp.fastmail.com.", {}⟩
  Step.each (fun service : String × Nat => do
    RecordHost.declare ⟨"_" ++ service.1 ++ "._tcp", .srv, .single "0 0 0 .", {}⟩
    RecordHost.declare ⟨"_" ++ service.1 ++ "s._tcp", .srv,
      .single ("0 1 " ++ toString service.2 ++ " " ++ service.1 ++ ".fastmail.com."), {}⟩) clientServices

/-- Presents the records of a web name. The settings are read before the addresses, and the
name and the settings again after them. -/
def presentWebHosting (name : String) (servers : List Server) (options : RecordOptions) : Step ζ Unit := do
  let defaults := (RecordHost.origin (← get)).defaults
  presentAddresses name (servers.filter Server.servesWeb) (options.withTtl defaults.webTtl)
  let origin := RecordHost.origin (← get)
  let policy := AcmePolicy.ofName origin.name origin.defaults.acmeRoot name
  RecordHost.declare ⟨policy.caaName, .caa, .list policy.caaValues, {}⟩
  RecordHost.declare ⟨policy.challengeName, .cname, .single policy.challengeTarget, {}⟩

/-- Presents the addresses of the servers below the zone, whose name is checked first. -/
def presentServerNames (servers : List Server) (options : RecordOptions) : Step ζ Unit := do
  let name := (RecordHost.origin (← get)).name
  match DomainName.parseZone name with
  | .error fault => throw (.invalidZoneName name fault)
  | .ok zone =>
    Step.each (fun server =>
      match zone.relativeName? server.name with
      | some label => presentAddresses label [server] options
      | none => pure ()) servers

def presentDelegation (label : String) (child : ZoneSummary) : Step ζ Unit := do
  RecordHost.declare ⟨label, .ns, child.nameservers.fqdnValues, {}⟩
  match child.dsRecord with
  | some ds => RecordHost.declare ⟨label, .ds, .single ds, {}⟩
  | none => pure ()

/-! ### Steps that present a list -/

/-- Whether an operation presents the records of a list to every host of some name and
settings. -/
def Lists (origin : Origin) (step : Step ζ Unit) (records : List Record) : Prop :=
  ∀ host, RecordHost.origin host = origin → step host = Step.each RecordHost.declare records host

variable {origin : Origin} {first second : Step ζ Unit} {records more : List Record}

theorem lists_pure : Lists origin (pure () : Step ζ Unit) [] := fun _ _ => rfl

theorem lists_declare (record : Record) : Lists origin (RecordHost.declare record : Step ζ Unit) [record] := by
  intro host _
  rw [Step.each_cons, Step.each_nil]
  cases h : (RecordHost.declare record : Step ζ Unit) host with
  | ok value next => exact (Step.bind_of_ok h).symm
  | error fault next => exact (Step.bind_of_error h).symm

theorem lists_get {step : ζ → Step ζ Unit}
    (h : ∀ host, RecordHost.origin host = origin → Lists origin (step host) records) :
    Lists origin (get >>= step) records :=
  fun host horigin => h host horigin host horigin

variable [PlainHost ζ]

theorem origin_after_each (records : List Record) (host : ζ) :
    RecordHost.origin (Step.after (Step.each RecordHost.declare records) host) = RecordHost.origin host := by
  induction records generalizing host with
  | nil => rfl
  | cons record rest ih =>
    have horigin := PlainHost.origin_after record host
    rw [Step.each_cons]
    cases h : RecordHost.declare record host with
    | ok value next =>
      rw [Step.after_of_ok h] at horigin
      rw [Step.after_bind_of_ok h, ih, horigin]
    | error fault next =>
      rw [Step.after_of_error h] at horigin
      rw [Step.after_of_error (Step.bind_of_error h), horigin]

theorem lists_bind (hfirst : Lists origin first records) (hsecond : Lists origin second more) :
    Lists origin (first >>= fun _ => second) (records ++ more) := by
  intro host horigin
  have hafter := origin_after_each records host
  have hrun := hfirst host horigin
  rw [Step.each_append]
  cases h : first host with
  | ok value next =>
    rw [h] at hrun
    rw [Step.after_of_ok hrun.symm] at hafter
    rw [Step.bind_of_ok h, Step.bind_of_ok hrun.symm, hsecond next (hafter.trans horigin)]
  | error fault next =>
    rw [h] at hrun
    rw [Step.bind_of_error h, Step.bind_of_error hrun.symm]

theorem lists_each {ι : Type} {step : ι → Step ζ Unit} {records : ι → List Record}
    (h : ∀ item, Lists origin (step item) (records item)) (items : List ι) :
    Lists origin (Step.each step items) (items.flatMap records) := by
  induction items with
  | nil => exact lists_pure
  | cons item rest ih => exact lists_bind (h item) ih

theorem lists_each_declare {ι : Type} (record : ι → Record) (items : List ι) :
    Lists origin (Step.each (fun item => RecordHost.declare (record item)) items : Step ζ Unit) (items.map record) := by
  rw [List.map_eq_flatMap]
  exact lists_each (fun item => lists_declare (record item)) items

/-! ### Bundles as lists -/

theorem gather_eq (servers : List Server) :
    gather servers = (servers.filterMap (·.ipv4), servers.filterMap (·.ipv6)) := by
  induction servers using List.reverseRecOn with
  | nil => rfl
  | append_singleton servers server ih =>
    have hconcat : gather (servers ++ [server]) =
        ((gather servers).1 ++ server.ipv4.toList, (gather servers).2 ++ server.ipv6.toList) := by
      simp [gather]
    have hlast : ∀ address : Server → Option String, [server].filterMap address = (address server).toList := by
      intro address
      cases h : address server <;> simp [h]
    rw [hconcat, ih, List.filterMap_append, List.filterMap_append, hlast, hlast]

theorem lists_presentAddresses (name : String) (servers : List Server) (options : RecordOptions) :
    Lists origin (presentAddresses name servers options : Step ζ Unit) (addresses name servers options) := by
  have hfamily : ∀ found : RecordType × List String,
      Lists origin (if found.2.isEmpty then pure ()
        else RecordHost.declare ⟨name, found.1, .list found.2, options⟩ : Step ζ Unit)
        (family name found.1 found.2 options) := by
    intro found
    unfold family
    split
    · exact lists_pure
    · exact lists_declare _
  have h := lists_each hfamily [(.a, (gather servers).1), (.aaaa, (gather servers).2)]
  rw [gather_eq, List.flatMap_cons, List.flatMap_cons, List.flatMap_nil, List.append_nil] at h
  rw [presentAddresses, gather_eq]
  exact h

theorem lists_presentMailHosting (subdomains : List String) :
    Lists origin (presentMailHosting subdomains : Step ζ Unit) (mailHosting origin.name subdomains) := by
  rw [mailHosting, List.append_assoc, List.append_assoc]
  refine lists_bind (lists_each_declare _ _) (lists_bind (lists_declare _) (lists_get fun host horigin => ?_))
  rw [horigin]
  exact lists_bind (lists_each_declare _ _) (lists_declare _)

theorem lists_presentMailServices : Lists origin (presentMailServices : Step ζ Unit) mailServices :=
  lists_bind (lists_declare _) (lists_each (fun _ => lists_bind (lists_declare _) (lists_declare _)) _)

theorem lists_presentWebHosting (name : String) (servers : List Server) (options : RecordOptions) :
    Lists origin (presentWebHosting name servers options : Step ζ Unit)
      (addresses name (servers.filter Server.servesWeb) (options.withTtl origin.defaults.webTtl) ++
        certificates origin name) := by
  refine lists_get fun host horigin => ?_
  rw [horigin]
  refine lists_bind (lists_presentAddresses _ _ _) (lists_get fun host horigin => ?_)
  rw [horigin]
  exact lists_bind (lists_declare _) (lists_declare _)

/-- The nameservers of a child zone, and its key if it has one. -/
def delegation (label : String) (child : ZoneSummary) : List Record :=
  ⟨label, .ns, child.nameservers.fqdnValues, {}⟩ ::
    (child.dsRecord.map fun ds => ⟨label, .ds, .single ds, {}⟩).toList

theorem lists_presentDelegation (label : String) (child : ZoneSummary) :
    Lists origin (presentDelegation label child : Step ζ Unit) (delegation label child) := by
  unfold delegation
  refine lists_bind (lists_declare _) ?_
  cases child.dsRecord with
  | none => exact lists_pure
  | some ds => exact lists_declare _

theorem lists_presentServerNames {zone : DomainName} (hzone : DomainName.parseZone origin.name = .ok zone)
    (servers : List Server) (options : RecordOptions) :
    Lists origin (presentServerNames servers options : Step ζ Unit) (serverNames zone servers options) := by
  refine lists_get fun host horigin => ?_
  simp only [horigin, hzone]
  refine lists_each (fun server => ?_) servers
  cases zone.relativeName? server.name with
  | some label => exact lists_presentAddresses label [server] options
  | none => exact lists_pure

omit [PlainHost ζ] in
theorem presentServerNames_of_invalid {fault : NameFault} (hzone : DomainName.parseZone origin.name = .error fault)
    (servers : List Server) (options : RecordOptions) {host : ζ} (horigin : RecordHost.origin host = origin) :
    presentServerNames servers options host = .error (.invalidZoneName origin.name fault) host := by
  rw [presentServerNames, Step.get_bind, horigin, hzone]
  rfl

end Bundle

/-! ### Requests -/

/-- What can be asked of a zone that stands for several records. -/
inductive BundleRequest where
  | addresses (name : String) (servers : List Server) (options : RecordOptions)
  | delegation (label : String) (child : ZoneSummary)
  | mailHosting (subdomains : List String)
  | mailServices
  | webHosting (name : String) (servers : List Server) (options : RecordOptions)
  | serverNames (servers : List Server) (options : RecordOptions)

namespace BundleRequest

variable {ζ : Type} [RecordHost ζ]

/-- The calls that a request is made by. -/
def calls : BundleRequest → List Call
  | .addresses name servers options => Call.addresses name servers options
  | .delegation label child => Call.delegate label child
  | .mailHosting subdomains => [.mailHosting subdomains]
  | .mailServices => [.mailServices]
  | .webHosting name servers options => [.webHosting name servers options]
  | .serverNames servers options => [.serverNames servers options]

/-- The records that a request stands for under a name and settings. -/
def records (request : BundleRequest) (origin : Origin) : Except Fault (List Record) :=
  Call.planAll .alike origin request.calls

def present : BundleRequest → Step ζ Unit
  | .addresses name servers options => Bundle.presentAddresses name servers options
  | .delegation label child => Bundle.presentDelegation label child
  | .mailHosting subdomains => Bundle.presentMailHosting subdomains
  | .mailServices => Bundle.presentMailServices
  | .webHosting name servers options => Bundle.presentWebHosting name servers options
  | .serverNames servers options => Bundle.presentServerNames servers options

/-! ### Plans of requests -/

variable {request : BundleRequest} {origin : Origin} {records : List Record}

theorem planAll_singleton (answering : Answering) (origin : Origin) (call : Call) :
    Call.planAll answering origin [call] = call.plan answering origin := by
  rw [Call.planAll, Call.planAll]
  cases call.plan answering origin with
  | error fault => rfl
  | ok records => exact congrArg Except.ok (List.append_nil records)

theorem planAll_records (answering : Answering) (origin : Origin) (records : List Record) :
    Call.planAll answering origin (records.map .record) = .ok records := by
  induction records with
  | nil => rfl
  | cons record rest ih =>
    rw [List.map_cons, Call.planAll_cons_eq_ok]
    exact ⟨[record], rest, rfl, ih, rfl⟩

theorem delegate_eq (label : String) (child : ZoneSummary) :
    Call.delegate label child = (Bundle.delegation label child).map .record := by
  unfold Call.delegate Bundle.delegation
  cases child.dsRecord <;> rfl

theorem map_server_webServers (servers : List Server) :
    (Call.webServers servers).map (·.server) = servers.filter Server.servesWeb := by
  have hall : (ServerRef.all servers).map (·.server) = servers := by
    rw [ServerRef.all, List.map_map]
    exact List.zipIdx_map_fst 0 servers
  calc
    (Call.webServers servers).map (·.server)
        = ((ServerRef.all servers).map (·.server)).filter Server.servesWeb := by
      rw [List.filter_map]
      rfl
    _ = servers.filter Server.servesWeb := by rw [hall]

/-- Only server names depend on the name of the zone being one. -/
theorem records_cases (request : BundleRequest) (origin : Origin) :
    (∃ records, request.records origin = .ok records) ∨
      ∃ servers options fault, request = .serverNames servers options ∧
        DomainName.parseZone origin.name = .error fault ∧
        request.records origin = .error (.invalidZoneName origin.name fault) := by
  unfold BundleRequest.records
  cases request with
  | addresses name servers options => exact Or.inl ⟨_, planAll_records _ _ _⟩
  | delegation label child =>
    rw [calls, delegate_eq]
    exact Or.inl ⟨_, planAll_records _ _ _⟩
  | mailHosting | mailServices | webHosting => exact Or.inl ⟨_, planAll_singleton _ _ _⟩
  | serverNames servers options =>
    rw [calls, planAll_singleton, Call.plan]
    cases hzone : DomainName.parseZone origin.name with
    | ok zone => exact Or.inl ⟨_, rfl⟩
    | error fault => exact Or.inr ⟨servers, options, fault, rfl, rfl, rfl⟩

variable [PlainHost ζ]

theorem lists_present (h : request.records origin = .ok records) :
    Bundle.Lists origin (request.present : Step ζ Unit) records := by
  unfold BundleRequest.records at h
  cases request with
  | addresses name servers options =>
    rw [calls, Call.addresses, planAll_records] at h
    rw [← Except.ok.inj h]
    exact Bundle.lists_presentAddresses name servers options
  | delegation label child =>
    rw [calls, delegate_eq, planAll_records] at h
    rw [← Except.ok.inj h]
    exact Bundle.lists_presentDelegation label child
  | mailHosting subdomains =>
    rw [calls, planAll_singleton] at h
    rw [← Except.ok.inj h]
    exact Bundle.lists_presentMailHosting subdomains
  | mailServices =>
    rw [calls, planAll_singleton] at h
    rw [← Except.ok.inj h]
    exact Bundle.lists_presentMailServices
  | webHosting name servers options =>
    rw [calls, planAll_singleton] at h
    rw [← Except.ok.inj h]
    rw [map_server_webServers]
    exact Bundle.lists_presentWebHosting name servers options
  | serverNames servers options =>
    rw [calls, planAll_singleton, Call.plan] at h
    split at h
    · rename_i zone hzone
      rw [← Except.ok.inj h]
      exact Bundle.lists_presentServerNames hzone servers options
    · cases h

theorem each_perform_of_planAll {calls : List Call} {host : ζ}
    (h : Call.planAll .alike (RecordHost.origin host) calls = .ok records) :
    Step.each Call.perform calls host = Step.each RecordHost.declare records host := by
  induction calls generalizing host records with
  | nil =>
    cases h
    rfl
  | cons call rest ih =>
    obtain ⟨own, more, hown, hmore, rfl⟩ := Call.planAll_cons_eq_ok.mp h
    have hperform : (call.perform : Step ζ Unit) host = Step.each RecordHost.declare own host := by
      rw [Call.perform_eq, PlainHost.answering_eq, hown]
    have hafter := Bundle.origin_after_each own host
    rw [Step.each_append, Step.each_cons]
    cases hrun : Step.each RecordHost.declare own host with
    | error fault next => rw [Step.bind_of_error hrun, Step.bind_of_error (hperform.trans hrun)]
    | ok value next =>
      rw [Step.after_of_ok hrun] at hafter
      rw [Step.bind_of_ok hrun, Step.bind_of_ok (hperform.trans hrun), ih (by rw [hafter, hmore])]

omit [PlainHost ζ] in
theorem each_perform_of_invalid {fault : NameFault} (hzone : DomainName.parseZone origin.name = .error fault)
    (servers : List Server) (options : RecordOptions) {host : ζ} (horigin : RecordHost.origin host = origin) :
    Step.each Call.perform [.serverNames servers options] host = .error (.invalidZoneName origin.name fault) host := by
  rw [Step.each_cons]
  refine Step.bind_of_error ?_
  rw [Call.perform_eq, Call.plan, horigin, hzone]

end BundleRequest

/-- On any plain host a request presents a list of records that is fixed by the name and the
settings of the host, up to the first record that the host refuses, and it does so record by
record as it is told. Only server names are refused beforehand, under a name that is not one
of a zone, and then nothing is presented. -/
theorem bundles_cut_at_refusal (request : BundleRequest) (origin : Origin) :
    ((∀ servers options, request = .serverNames servers options → ∃ zone, DomainName.parseZone origin.name = .ok zone) →
      ∃ records, request.records origin = .ok records ∧
        ∀ (ζ : Type) [RecordHost ζ] [PlainHost ζ] (watched : Watched ζ), RecordHost.origin watched.host = origin →
          CutAtRefusal records watched (Step.each Call.perform request.calls watched) ∧
          request.present watched = Step.each Call.perform request.calls watched ∧
          Watched.unwatched (Step.each Call.perform request.calls watched) =
            Step.each Call.perform request.calls watched.host) ∧
    (∀ servers options fault, request = .serverNames servers options → DomainName.parseZone origin.name = .error fault →
      ∀ (ζ : Type) [RecordHost ζ] [PlainHost ζ] (watched : Watched ζ), RecordHost.origin watched.host = origin →
        Step.each Call.perform request.calls watched = .error (.invalidZoneName origin.name fault) watched ∧
        request.present watched = Step.each Call.perform request.calls watched) := by
  constructor
  · intro hvalid
    rcases request.records_cases origin with ⟨records, hrecords⟩ | ⟨servers, options, fault, hrequest, hinvalid, -⟩
    · refine ⟨records, hrecords, ?_⟩
      rintro ζ _ _ watched rfl
      have hwatched : Step.each Call.perform request.calls watched = Step.each RecordHost.declare records watched :=
        BundleRequest.each_perform_of_planAll hrecords
      have hhost : Step.each Call.perform request.calls watched.host =
          Step.each RecordHost.declare records watched.host :=
        BundleRequest.each_perform_of_planAll hrecords
      rw [hwatched, hhost]
      exact ⟨cutAtRefusal_each records watched, BundleRequest.lists_present hrecords watched rfl,
        unwatched_each records watched⟩
    · obtain ⟨zone, hzone⟩ := hvalid servers options hrequest
      rw [hinvalid] at hzone
      cases hzone
  · rintro servers options fault rfl hinvalid ζ _ _ watched horigin
    have hrun : Step.each Call.perform [.serverNames servers options] watched = _ :=
      BundleRequest.each_perform_of_invalid hinvalid servers options horigin
    have hpresent : Bundle.presentServerNames servers options watched = _ :=
      Bundle.presentServerNames_of_invalid hinvalid servers options horigin
    exact ⟨hrun, hpresent.trans hrun.symm⟩

def smallDraft : Watched Draft := { host := { origin := ⟨"luffy.cx", { acmeRoot := "luffy.cx" }⟩, limit := some 3 } }

/-- Mail hosting is cut at its fourth record. Server names below a name with one label are
refused with nothing presented. -/
theorem bundles_cut_at_refusal_draft :
    (∃ records, (BundleRequest.mailHosting ["vincent"]).records ⟨"luffy.cx", { acmeRoot := "luffy.cx" }⟩ = .ok records ∧
      ∃ fault next, Step.each Call.perform [.mailHosting ["vincent"]] smallDraft = .error fault next ∧
        next.presented = records.take 4) ∧
    ∀ draft : Watched Draft, draft.host.origin = ⟨"cx", { acmeRoot := "luffy.cx" }⟩ →
      Step.each Call.perform [.serverNames [] {}] draft = .error (.invalidZoneName "cx" .tooFewLabels) draft := by
  constructor
  · obtain ⟨hlisted, -⟩ :=
      bundles_cut_at_refusal (.mailHosting ["vincent"]) ⟨"luffy.cx", { acmeRoot := "luffy.cx" }⟩
    obtain ⟨records, hrecords, hpresents⟩ := hlisted nofun
    obtain ⟨hcut, -, -⟩ := hpresents Draft smallDraft rfl
    have hrefused : (Step.answer (Step.each Call.perform [.mailHosting ["vincent"]]) smallDraft).toBool = false := by
      decide +kernel
    have hlength : (Step.after (Step.each Call.perform [.mailHosting ["vincent"]]) smallDraft).presented.length = 4 := by
      decide +kernel
    refine ⟨records, hrecords, ?_⟩
    change CutAtRefusal records smallDraft (Step.each Call.perform [.mailHosting ["vincent"]] smallDraft) at hcut
    cases hrun : Step.each Call.perform [.mailHosting ["vincent"]] smallDraft with
    | ok value next =>
      rw [Step.answer_of_ok hrun] at hrefused
      cases hrefused
    | error fault next =>
      rw [Step.after_of_error hrun] at hlength
      rw [hrun] at hcut
      refine ⟨fault, next, rfl, ?_⟩
      cases hcut with
      | refused before record rest between fault next hsplit hbefore hlast hpresented =>
        have hpresented : next.presented = before ++ [record] := hpresented
        rw [hpresented] at hlength ⊢
        rw [hsplit, List.append_cons before record rest, List.take_left' hlength]
  · intro draft horigin
    obtain ⟨-, hinvalid⟩ := bundles_cut_at_refusal (.serverNames [] {}) ⟨"cx", { acmeRoot := "luffy.cx" }⟩
    exact (hinvalid [] {} .tooFewLabels rfl (by decide +kernel) Draft draft horigin).1

end ZoneGraph
