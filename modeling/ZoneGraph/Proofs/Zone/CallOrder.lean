import ZoneGraph.Proofs.Bundle.Presented
import ZoneGraph.Proofs.Zone.WebHosting
import Mathlib.Data.List.Perm.Basic

/-! Requests in another order. What a request stands for does not depend on what was declared
before it, and whether a zone takes some records depends on them as a set: the backend has to
take each, and their paths have to be distinct and free. So requests that succeed one after
the other succeed in any order, and leave the same resources but for their order. -/
namespace ZoneGraph

/-- What can be asked of a zone: a record, the addresses of a web name, or a bundle. -/
inductive Request where
  | record (record : Record)
  | webAddresses (name : String) (servers : List ServerRef) (options : RecordOptions)
  | bundle (bundle : BundleRequest)

namespace Request

def calls : Request → List Call
  | .record wanted => [.record wanted]
  | .webAddresses name servers options => [.webAddresses name servers options]
  | .bundle wanted => wanted.calls

def make (request : Request) : Step Zone Unit := Step.each Call.perform request.calls

theorem each_make (requests : List Request) :
    Step.each make requests = Step.each Call.perform (requests.flatMap calls) := by
  induction requests with
  | nil => rfl
  | cons request rest ih => rw [List.flatMap_cons, Step.each_append, Step.each_cons, ih, make]

end Request

/-- In another order calls stand for the same records in another order. -/
theorem Call.planAll_perm {answering : Answering} {origin : Origin} {calls reordered : List Call}
    (hperm : calls.Perm reordered) {records : List Record} (h : planAll answering origin calls = .ok records) :
    ∃ others, planAll answering origin reordered = .ok others ∧ records.Perm others := by
  induction hperm generalizing records with
  | nil => exact ⟨records, h, .refl _⟩
  | cons call _ ih =>
    obtain ⟨own, more, hown, hmore, rfl⟩ := planAll_cons_eq_ok.mp h
    obtain ⟨others, hothers, hsame⟩ := ih hmore
    exact ⟨own ++ others, planAll_cons_eq_ok.mpr ⟨own, others, hown, hothers, rfl⟩, hsame.append_left own⟩
  | swap call other rest =>
    obtain ⟨first, more, hfirst, hmore, rfl⟩ := planAll_cons_eq_ok.mp h
    obtain ⟨second, last, hsecond, hlast, rfl⟩ := planAll_cons_eq_ok.mp hmore
    have hrest := planAll_cons_eq_ok.mpr ⟨first, last, hfirst, hlast, rfl⟩
    refine ⟨second ++ (first ++ last), planAll_cons_eq_ok.mpr ⟨second, first ++ last, hsecond, hrest, rfl⟩, ?_⟩
    rw [← List.append_assoc, ← List.append_assoc]
    exact List.perm_append_comm.append_right last
  | trans _ _ ih ih' =>
    obtain ⟨between, hbetween, hsame⟩ := ih h
    obtain ⟨others, hothers, hsame'⟩ := ih' hbetween
    exact ⟨others, hothers, hsame.trans hsame'⟩

namespace Zone

variable {zone next : Zone}

theorem each_declare_perm {records reordered : List Record} (hperm : records.Perm reordered)
    (h : Step.each declare records zone = .ok () next) :
    ∃ set, Step.each declare reordered zone = .ok () { next with resources := set } ∧
      set.toList.Perm next.resources.toList := by
  obtain ⟨htakes, hdistinct, hfree⟩ := accepts_each_declare_iff.mp ⟨(), next, h⟩
  obtain ⟨-, declared, rfl, hdeclared⟩ := each_declare_ok h
  -- None of the conditions depends on the order.
  have htakes' : ∀ record ∈ reordered, zone.takesRouting record := fun record hr =>
    htakes record (hperm.mem_iff.mpr hr)
  have hdistinct' : (reordered.map Record.path).Nodup := (hperm.map Record.path).nodup_iff.mp hdistinct
  have hfree' : ∀ record ∈ reordered, zone.pathOf record.path ∉ zone.resources.paths := fun record hr =>
    hfree record (hperm.mem_iff.mpr hr)
  obtain ⟨set, heach, hset⟩ := each_declare_of_free htakes' hdistinct' hfree'
  refine ⟨set, heach, ?_⟩
  rw [hset, hdeclared]
  exact (hperm.symm.map zone.recordResource).append_left _

/-- Requests that succeed one after the other succeed in any order, and the zone ends up with
the same resources, in another order. -/
theorem requests_commute {requests reordered : List Request} (hperm : requests.Perm reordered)
    (h : Step.each Request.make requests zone = .ok () next) :
    ∃ set, Step.each Request.make reordered zone = .ok () { next with resources := set } ∧
      set.toList.Perm next.resources.toList := by
  rw [Request.each_make] at h ⊢
  obtain ⟨records, hplan, hrun⟩ := Call.each_perform_ok h
  obtain ⟨others, hothers, hsame⟩ := Call.planAll_perm (hperm.flatMap_right Request.calls) hplan
  rw [Call.each_perform_of_planAll hothers]
  exact each_declare_perm hsame hrun

def mixedRequests : List Request :=
  [.record ⟨"www", .a, .single "192.0.2.3", { routing := some (.ofLocation ⟨.country, "US"⟩) }⟩,
    .webAddresses "shop" (Call.webServers europeanServers) {},
    .bundle (.addresses "all" europeanServers {}),
    .bundle (.webHosting "*.eu" europeanServers {}),
    .bundle (.mailHosting ["vincent"]),
    .bundle .mailServices,
    .bundle (.serverNames europeanServers {}),
    .bundle (.delegation "west" ⟨"west.luffy.cx", .hosts ["ns1.west.luffy.cx"], some "12345 13 2 ABCD"⟩)]

/-- The requests succeed on a zone with a user, from the first to the last and from the last
to the first. -/
theorem requests_commute_luffy :
    ∃ opened, Zone.open .route53 ⟨"luffy.cx", { acmeRoot := "luffy.cx" }⟩ ⟨.aws, "main", []⟩ = .ok opened ∧
      let zone := opened.run [.allowUser "ACME"]
      ∃ next set, Step.each Request.make mixedRequests zone = .ok () next ∧
        Step.each Request.make mixedRequests.reverse zone = .ok () { next with resources := set } ∧
        set.toList.Perm next.resources.toList := by
  have heval : (Zone.open .route53 ⟨"luffy.cx", { acmeRoot := "luffy.cx" }⟩ ⟨.aws, "main", []⟩).toOption.map
      (fun opened => (Step.answer (Step.each Request.make mixedRequests) (opened.run [.allowUser "ACME"])).toBool) =
        some true := by
    decide +kernel
  obtain ⟨opened, hopen, hanswer⟩ := Step.exists_ok_of_toOption heval
  obtain ⟨⟨⟩, next, hrun⟩ := Step.accepts_of_answer hanswer
  obtain ⟨set, hreversed, hsame⟩ := requests_commute (List.reverse_perm mixedRequests).symm hrun
  exact ⟨opened, hopen, next, set, hrun, hreversed, hsame⟩

end Zone

end ZoneGraph
