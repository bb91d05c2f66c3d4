import ZoneGraph.Proofs.Resource.Mentions
import ZoneGraph.Proofs.Zone.Asking

/-! The look-up of nameservers on LiveDNS. All that a zone declares in the course of some
operations is what was taken from it and what it still holds. There is one look-up in it
once the zone was asked for its nameservers, and none before. What is registered has the
one reference that the zone gives, and whatever mentions the look-up comes after it. Only
records that are declared before anyone asks the zone can mention it earlier, since what a
record has as values is up to the caller and nobody looks into it. -/
namespace ZoneGraph.Zone

variable {zone opened : Zone} {operation : Operation} {operations : List Operation} {added : List Resource}
  {origin : Origin} {provider : Provider}

/-! ### Everything that was declared -/

def Operation.handsOver : Operation → Zone → List Resource
  | .take, zone => zone.resources.toList
  | _, _ => []

/-- What some operations hand over, in order. -/
def handedOver : Zone → List Operation → List Resource
  | _, [] => []
  | zone, operation :: rest => operation.handsOver zone ++ handedOver (operation.next zone) rest

/-- All that a zone declared in the course of some operations: what was handed over and
what it still holds. -/
def everDeclared (zone : Zone) (operations : List Operation) : List Resource :=
  handedOver zone operations ++ (zone.run operations).resources.toList

theorem handedOver_concat (zone : Zone) (operations : List Operation) (operation : Operation) :
    zone.handedOver (operations ++ [operation]) =
      zone.handedOver operations ++ operation.handsOver (zone.run operations) := by
  induction operations generalizing zone with
  | nil => exact List.append_nil _
  | cons first rest ih =>
    rw [List.cons_append, handedOver, handedOver, ih, List.append_assoc]
    rfl

theorem everDeclared_take : zone.everDeclared (operations ++ [.take]) = zone.everDeclared operations := by
  rw [everDeclared, handedOver_concat, run_concat]
  exact List.append_nil _

theorem everDeclared_concat (htake : operation ≠ .take)
    (hnext : (operation.next (zone.run operations)).resources.toList =
      (zone.run operations).resources.toList ++ added) :
    zone.everDeclared (operations ++ [operation]) = zone.everDeclared operations ++ added := by
  have hnone : operation.handsOver (zone.run operations) = [] := by
    cases operation with
    | take => exact absurd rfl htake
    | call | sign | allowUser | register | nameservers | summary => rfl
  rw [everDeclared, handedOver_concat, hnone, List.append_nil, run_concat, hnext, ← List.append_assoc]
  rfl

section Opened

variable (hopen : Zone.open .livedns origin provider = .ok opened)

include hopen

/-- What was declared is told by a walk over the operations, each with what it yields. -/
theorem everDeclared_induction {motive : List Operation → List Resource → Prop} (hnil : motive [] [])
    (htake : ∀ operations, motive operations (opened.everDeclared operations) →
      motive (operations ++ [.take]) (opened.everDeclared operations))
    (hstep : ∀ operations operation added, operation.Yields (opened.run operations) added →
      motive operations (opened.everDeclared operations) →
        motive (operations ++ [operation]) (opened.everDeclared operations ++ added))
    (operations : List Operation) : motive operations (opened.everDeclared operations) := by
  induction operations using List.reverseRecOn with
  | nil =>
    obtain ⟨-, -, -, -, -, hresources⟩ := open_eq_ok hopen
    rw [everDeclared, handedOver, run_nil, hresources]
    exact hnil
  | append_singleton operations operation ih =>
    by_cases htaken : operation = .take
    · subst htaken
      rw [everDeclared_take]
      exact htake operations ih
    · obtain ⟨added, hnext, hyields⟩ :=
        yields_next (consistent_run (consistent_open hopen) operations) (backend_run hopen operations) htaken
      rw [everDeclared_concat htaken hnext]
      exact hstep operations operation added hyields ih

end Opened

/-! ### Look-ups -/

/-- The look-ups among some resources. -/
def lookupsAmong (resources : List Resource) : List Resource := resources.filter (·.kind = .livednsLookup)

theorem lookupsAmong_append (resources more : List Resource) :
    lookupsAmong (resources ++ more) = lookupsAmong resources ++ lookupsAmong more := List.filter_append ..

theorem lookupsAmong_pendingLookup (zone : Zone) : lookupsAmong zone.pendingLookup = zone.pendingLookup := by
  unfold pendingLookup
  split <;> rfl

theorem kind_recordResource_ne {kind : ResourceKind} (hkind : kind.isRecord = false) (record : Record) (zone : Zone) :
    (zone.recordResource record).kind ≠ kind := by
  rintro rfl
  rw [isRecord_recordResource] at hkind
  cases hkind

namespace Operation.Yields

theorem lookups_of_asks (h : operation.Yields zone added) (hasks : operation.AsksNameservers zone) :
    lookupsAmong added = zone.pendingLookup := by
  cases h with
  | silent added hnone => exact absurd hasks hnone
  | asks added _ hadded =>
    have hother : lookupsAmong added = [] := by
      refine List.filter_eq_nil_iff.mpr fun resource hr => ?_
      rw [decide_eq_true_eq]
      obtain ⟨registrar, rfl | ⟨key, rfl⟩⟩ := hadded resource hr
      · nofun
      · nofun
    rw [lookupsAmong_append, hother, List.append_nil, lookupsAmong_pendingLookup]

theorem lookups_of_silent (h : operation.Yields zone added) (hasks : ¬ operation.AsksNameservers zone) :
    lookupsAmong added = [] := by
  cases h with
  | asks added hasked => exact absurd hasked hasks
  | silent added _ hadded =>
    refine List.filter_eq_nil_iff.mpr fun resource hr => ?_
    rw [decide_eq_true_eq]
    rcases hadded resource hr with rfl | ⟨record, -, rfl⟩
    · nofun
    · exact kind_recordResource_ne rfl record zone

theorem registered (h : operation.Yields zone added) {resource : Resource} (hr : resource ∈ added)
    (hkind : resource.kind = .registeredNameservers) :
    resource.text? "nameservers" = some zone.nameserversRef.interpolate := by
  cases h with
  | silent added _ hadded =>
    rcases hadded resource hr with rfl | ⟨record, -, rfl⟩
    · cases hkind
    · exact absurd hkind (kind_recordResource_ne rfl record zone)
  | asks added _ hadded =>
    rcases List.mem_append.mp hr with hr | hr
    · rw [← lookupsAmong_pendingLookup] at hr
      have hlookup := (List.mem_filter.mp hr).2
      rw [hkind] at hlookup
      cases hlookup
    · obtain ⟨registrar, rfl | ⟨key, rfl⟩⟩ := hadded resource hr
      · simp [registeredNameservers, Nameservers.toData, Data.text?]
      · cases hkind

end Operation.Yields

/-! ### Mentions -/

theorem length_name_lt_address (zone : Zone) : zone.name.length < zone.lookupResource.address.length := by
  refine Nat.lt_of_le_of_lt ?_ zone.lookupResource.length_path_lt_address
  change zone.name.length ≤ (zone.pathOf "LiveDNSNS").length
  rw [pathOf, path, String.length_append, String.length_append, String.length_append, String.length_append]
  omega

theorem not_mentions_lookup (zone : Zone) : ¬ zone.lookupResource.Mentions zone.lookupResource.address :=
  Resource.not_mentions_of_short rfl rfl zone.length_name_lt_address

theorem not_mentions_livednsKey (zone : Zone) : ¬ zone.livednsKey.Mentions zone.lookupResource.address :=
  Resource.not_mentions_of_short rfl rfl zone.length_name_lt_address

/-- Two lists cut at one item: it is in the first one, or the first one and some more come
before it. -/
theorem append_eq_append_cons {α : Type} {left right before later : List α} {item : α}
    (h : left ++ right = before ++ item :: later) :
    (∃ more, left = before ++ item :: more) ∨ ∃ more, before = left ++ more ∧ right = more ++ item :: later := by
  rcases List.append_eq_append_iff.mp h with ⟨more, hbefore, hright⟩ | ⟨more, hleft, hlater⟩
  · exact .inr ⟨more, hbefore, hright⟩
  · cases more with
    | nil => exact .inr ⟨[], by simpa using hleft.symm, by simpa using hlater.symm⟩
    | cons first rest =>
      obtain ⟨rfl, -⟩ := List.cons.inj hlater
      exact .inl ⟨rest, hleft⟩

/-- Whether a resource is a record that was declared before the zone was asked for its
nameservers, so that it has no reference from this zone. -/
def Unasked (opened : Zone) (operations : List Operation) (resource : Resource) : Prop :=
  ∃ earlier operation rest record, operations = earlier ++ operation :: rest ∧
    ¬ Ever Operation.AsksNameservers opened earlier ∧ record ∈ operation.declared (opened.run earlier) ∧
    resource = opened.recordResource record

theorem Unasked.concat {resource : Resource} (h : Unasked opened operations resource) (operation : Operation) :
    Unasked opened (operations ++ [operation]) resource := by
  obtain ⟨earlier, found, rest, record, rfl, hasked, hrecord, hresource⟩ := h
  exact ⟨earlier, found, rest ++ [operation], record, by simp, hasked, hrecord, hresource⟩

section Run

variable (hopen : Zone.open .livedns origin provider = .ok opened)

include hopen

theorem lookupResource_run (operations : List Operation) :
    (opened.run operations).lookupResource = opened.lookupResource := by
  obtain ⟨hbackend, horigin, hprovider⟩ := same_as_opened hopen operations
  exact lookupResource_congr hbackend horigin hprovider

theorem pendingLookup_run_of_asked (h : Ever Operation.AsksNameservers opened operations) :
    (opened.run operations).pendingLookup = [] :=
  if_neg (mt (needsLookup_run_iff hopen operations).mp (not_not_intro h))

theorem pendingLookup_run_of_unasked (h : ¬ Ever Operation.AsksNameservers opened operations) :
    (opened.run operations).pendingLookup = [opened.lookupResource] := by
  rw [pendingLookup, if_pos ((needsLookup_run_iff hopen operations).mpr h), lookupResource_run hopen]

/-- The look-up is declared once, when the zone is first asked for its nameservers. -/
theorem lookups_run (operations : List Operation) :
    (Ever Operation.AsksNameservers opened operations →
      lookupsAmong (opened.everDeclared operations) = [opened.lookupResource]) ∧
    (¬ Ever Operation.AsksNameservers opened operations → lookupsAmong (opened.everDeclared operations) = []) := by
  refine everDeclared_induction hopen (motive := fun operations declared =>
    (Ever Operation.AsksNameservers opened operations → lookupsAmong declared = [opened.lookupResource]) ∧
    (¬ Ever Operation.AsksNameservers opened operations → lookupsAmong declared = [])) ?_ ?_ ?_ operations
  · exact ⟨fun h => absurd h not_ever_nil, fun _ => rfl⟩
  · intro operations ih
    rwa [ever_concat, or_iff_left (show ¬ Operation.AsksNameservers .take _ from id)]
  · intro operations operation added hyields ih
    rw [ever_concat, lookupsAmong_append]
    by_cases hasks : operation.AsksNameservers (opened.run operations)
    · rw [hyields.lookups_of_asks hasks]
      refine ⟨fun _ => ?_, fun h => absurd (.inr hasks) h⟩
      by_cases hasked : Ever Operation.AsksNameservers opened operations
      · rw [ih.1 hasked, pendingLookup_run_of_asked hopen hasked, List.append_nil]
      · rw [ih.2 hasked, pendingLookup_run_of_unasked hopen hasked, List.nil_append]
    · rw [hyields.lookups_of_silent hasks, List.append_nil, or_iff_left hasks]
      exact ih

theorem registered_reference_run (operations : List Operation) :
    ∀ resource ∈ opened.everDeclared operations, resource.kind = .registeredNameservers →
      resource.text? "nameservers" = some (opened.lookupResource.reference "nameservers").interpolate := by
  refine everDeclared_induction hopen (motive := fun _ declared => ∀ resource ∈ declared,
    resource.kind = .registeredNameservers → resource.text? "nameservers" =
      some (opened.lookupResource.reference "nameservers").interpolate) nofun (fun _ ih => ih) ?_ operations
  intro operations operation added hyields ih
  refine List.forall_mem_append.mpr ⟨ih, fun resource hr hkind => ?_⟩
  rw [← nameserversRef_run hopen operations]
  exact hyields.registered hr hkind

/-- Asked for its nameservers or for a summary, the zone answers with the same reference. -/
theorem answers_run (operations : List Operation) :
    let zone := opened.run operations
    let servers := Nameservers.reference (opened.lookupResource.reference "nameservers")
    ∃ next, nameservers zone = .ok servers next ∧
      summary zone = .ok ⟨origin.name, servers, zone.key.map SigningKey.dsRecord⟩ next := by
  intro zone servers
  obtain ⟨set, hservers, -⟩ := nameservers_of_fresh (consistent_run (consistent_open hopen) operations).lookup
  rw [nameserversRef_run hopen] at hservers
  have hname : zone.name = origin.name := congrArg Origin.name (origin_run hopen operations)
  have hsummary := summary_eq_ok.mpr ⟨servers, hservers, rfl⟩
  refine ⟨_, hservers, ?_⟩
  rw [← hname]
  exact hsummary

theorem lookup_mem_of_asked (h : Ever Operation.AsksNameservers opened operations) :
    opened.lookupResource ∈ opened.everDeclared operations := by
  have hmem : opened.lookupResource ∈ lookupsAmong (opened.everDeclared operations) := by
    rw [(lookups_run hopen operations).1 h]
    exact List.mem_singleton_self _
  exact (List.mem_filter.mp hmem).1

/-- What an operation adds mentions the look-up only after it, or it is a record that was
declared before the zone was asked. -/
theorem lookup_before_added {more later : List Resource} {resource : Resource}
    (hyields : operation.Yields (opened.run operations) (more ++ resource :: later))
    (hmentions : resource.Mentions opened.lookupResource.address) :
    opened.lookupResource ∈ opened.everDeclared operations ++ more ∨
      Unasked opened (operations ++ [operation]) resource := by
  by_cases hasked : Ever Operation.AsksNameservers opened operations
  · exact .inl (List.mem_append_left _ (lookup_mem_of_asked hopen hasked))
  rw [← lookupResource_run hopen operations] at hmentions
  generalize hadded : more ++ resource :: later = added at hyields
  cases hyields with
  | silent added _ hsilent =>
    rcases hsilent resource (by rw [← hadded]; simp) with rfl | ⟨record, hrecord, rfl⟩
    · exact absurd hmentions (not_mentions_livednsKey _)
    · obtain ⟨hbackend, horigin, hprovider⟩ := same_as_opened hopen operations
      exact .inr ⟨operations, operation, [], record, rfl, hasked, hrecord,
        recordResource_congr hbackend horigin hprovider record⟩
  | asks added =>
    -- The look-up comes first, so what mentions it is not the first of what is added.
    rw [pendingLookup_run_of_unasked hopen hasked] at hadded
    cases more with
    | nil =>
      obtain ⟨rfl, -⟩ := List.cons.inj hadded
      rw [lookupResource_run hopen] at hmentions
      exact absurd hmentions (not_mentions_lookup opened)
    | cons first rest =>
      obtain ⟨rfl, -⟩ := List.cons.inj hadded
      exact .inl (List.mem_append_right _ (List.mem_cons_self ..))

theorem lookup_before_mention (operations : List Operation) :
    ∀ before resource later, opened.everDeclared operations = before ++ resource :: later →
      resource.Mentions opened.lookupResource.address →
        opened.lookupResource ∈ before ∨ Unasked opened operations resource := by
  refine everDeclared_induction hopen (motive := fun operations declared => ∀ before resource later,
    declared = before ++ resource :: later → resource.Mentions opened.lookupResource.address →
      opened.lookupResource ∈ before ∨ Unasked opened operations resource) ?_ ?_ ?_ operations
  · intro before resource later hsplit
    simp at hsplit
  · intro operations ih before resource later hsplit hmentions
    exact (ih before resource later hsplit hmentions).imp_right (·.concat .take)
  · intro operations operation added hyields ih before resource later hsplit hmentions
    rcases append_eq_append_cons hsplit with ⟨more, hdeclared⟩ | ⟨more, rfl, rfl⟩
    · exact (ih before resource more hdeclared hmentions).imp_right (·.concat operation)
    · exact lookup_before_added hopen hyields hmentions

end Run

/-- A LiveDNS zone has one reference to its nameservers, which it gives whenever it is
asked and which its registrations have. It declares one look-up once it is asked and none
before, also when its resources are taken, and whatever mentions the look-up comes after
it, but for records that were declared before anyone had asked. -/
theorem nameservers_looked_up_once (hopen : Zone.open .livedns origin provider = .ok opened)
    (operations : List Operation) :
    let zone := opened.run operations
    let reference := opened.lookupResource.reference "nameservers"
    let declared := opened.everDeclared operations
    (∃ next, nameservers zone = .ok (.reference reference) next) ∧
    (∃ next, summary zone = .ok ⟨origin.name, .reference reference, zone.key.map SigningKey.dsRecord⟩ next) ∧
    (∀ resource ∈ declared, resource.kind = .registeredNameservers →
      resource.text? "nameservers" = some reference.interpolate) ∧
    (Ever Operation.AsksNameservers opened operations →
      declared.filter (·.kind = .livednsLookup) = [opened.lookupResource]) ∧
    (¬ Ever Operation.AsksNameservers opened operations → declared.filter (·.kind = .livednsLookup) = []) ∧
    (∀ before resource later, declared = before ++ resource :: later →
      resource.Mentions opened.lookupResource.address →
        opened.lookupResource ∈ before ∨ Unasked opened operations resource) := by
  intro zone reference declared
  obtain ⟨next, hservers, hsummary⟩ := answers_run hopen operations
  exact ⟨⟨next, hservers⟩, ⟨next, hsummary⟩, registered_reference_run hopen operations,
    (lookups_run hopen operations).1, (lookups_run hopen operations).2, lookup_before_mention hopen operations⟩

/-- A record and a registration at the wrong provider, then a summary between two takings
and a registration with the key. -/
def askingHistory : List Operation :=
  [.call (.record ⟨"www", .a, .single "192.0.2.3", {}⟩), .register ⟨.aws, "main", []⟩ false, .sign none, .take,
    .summary, .take, .register ⟨.gandi, "vb", []⟩ true, .nameservers]

/-- The summary declares the only look-up, and what was refused declares none. -/
theorem nameservers_looked_up_once_luffy :
    ∃ opened, Zone.open .livedns ⟨"luffy.cx", { acmeRoot := "luffy.cx" }⟩ ⟨.gandi, "vb", []⟩ = .ok opened ∧
      (opened.everDeclared askingHistory).map Resource.path =
        ["G-luffy.cx/A-www", "G-luffy.cx/KSK", "G-luffy.cx/LiveDNSNS", "G-luffy.cx/NS", "G-luffy.cx/NSSEC"] ∧
      (opened.everDeclared askingHistory).filter (·.kind = .livednsLookup) = [opened.lookupResource] ∧
      (opened.everDeclared (askingHistory.take 4)).filter (·.kind = .livednsLookup) = [] := by
  have heval : (Zone.open .livedns ⟨"luffy.cx", { acmeRoot := "luffy.cx" }⟩ ⟨.gandi, "vb", []⟩).toOption.map
      (fun opened => ((opened.everDeclared askingHistory).map Resource.path,
        decide (opened.run (askingHistory.take 4)).needsLookup)) =
        some (["G-luffy.cx/A-www", "G-luffy.cx/KSK", "G-luffy.cx/LiveDNSNS", "G-luffy.cx/NS", "G-luffy.cx/NSSEC"],
          true) := by
    decide +kernel
  obtain ⟨opened, hopen, heval⟩ := Step.exists_ok_of_toOption heval
  obtain ⟨hpaths, hdue⟩ := Prod.mk.inj heval
  obtain ⟨-, -, -, hasked, -, -⟩ := nameservers_looked_up_once hopen askingHistory
  obtain ⟨-, -, -, -, hunasked, -⟩ := nameservers_looked_up_once hopen (askingHistory.take 4)
  refine ⟨opened, hopen, hpaths, hasked ?_, hunasked ?_⟩
  · exact ⟨askingHistory.take 4, .summary, askingHistory.drop 5, rfl, trivial⟩
  · exact (needsLookup_run_iff hopen _).mp (of_decide_eq_true hdue)

/-- What a zone answered in one run can be delegated in another, before anyone asks there. -/
def delegatingHistory (given : ZoneSummary) : List Operation :=
  (Call.delegate "west" given).map .call ++ [.nameservers]

/-- The record that delegates mentions the look-up, and it is declared before it. -/
theorem mentioned_before_lookup :
    ∃ opened given asked,
      Zone.open .livedns ⟨"luffy.cx", { acmeRoot := "luffy.cx" }⟩ ⟨.gandi, "vb", []⟩ = .ok opened ∧
      summary opened = .ok given asked ∧
      let declared := opened.everDeclared (delegatingHistory given)
      declared.filter (·.kind = .livednsLookup) = [opened.lookupResource] ∧
      ¬ ∀ before resource later, declared = before ++ resource :: later →
        resource.Mentions opened.lookupResource.address → opened.lookupResource ∈ before := by
  have heval : (Zone.open .livedns ⟨"luffy.cx", { acmeRoot := "luffy.cx" }⟩ ⟨.gandi, "vb", []⟩).toOption.map
      (fun opened =>
        let reference := opened.lookupResource.reference "nameservers"
        let given := ⟨"luffy.cx", .reference reference, opened.key.map SigningKey.dsRecord⟩
        (reference.address, (opened.everDeclared (delegatingHistory given)).map (·.text? "values"))) =
        some ("data.gandi_livedns_domain_ns.G-luffy_cx_LiveDNSNS_be26ed40",
          [some "$\x7bformatlist(\"%s.\", data.gandi_livedns_domain_ns.G-luffy_cx_LiveDNSNS_be26ed40.nameservers)\x7d",
            none]) := by
    decide +kernel
  obtain ⟨opened, hopen, heval⟩ := Step.exists_ok_of_toOption heval
  obtain ⟨haddress, hvalues⟩ := Prod.mk.inj heval
  obtain ⟨asked, -, hsummary⟩ := answers_run hopen []
  obtain ⟨record, rest, hdeclared, hvalue, -⟩ := List.map_eq_cons_iff.mp hvalues
  refine ⟨opened, _, asked, hopen, hsummary, (lookups_run hopen _).1 ?_, fun h => ?_⟩
  · exact ⟨_, .nameservers, [], rfl, trivial⟩
  · have hmentions : record.Mentions opened.lookupResource.address := by
      refine Resource.mentions_of_text? hvalue ?_
      change (opened.lookupResource.reference "nameservers").address.toList <:+: _
      rw [haddress]
      decide +kernel
    exact List.not_mem_nil (h [] record rest hdeclared hmentions)

end ZoneGraph.Zone
