import ZoneGraph.Acme
import ZoneGraph.Zone

/-! The domain that the certificates of a web name are for. It is the web name without a
star in front, as its zone qualifies it. The record that says who may issue certificates
stands at this domain, and allows those for the names below it when the web name has a
star. The challenge stands under its own label below the domain and points to the domain
in the zone that answers challenges. Only for a star in front of the apex it does not,
because the apex is told from other names before the star is taken off. -/
namespace ZoneGraph

/-! ### Names as their zone qualifies them -/

namespace Zone

variable {name : String}

theorem qualify_apex (zone : Zone) : zone.qualify apex = zone.name := if_pos rfl

theorem qualify_of_ne_apex (zone : Zone) (h : name ≠ apex) : zone.qualify name = name ++ "." ++ zone.name := if_neg h

end Zone

namespace AcmePolicy

variable {name : String}

/-! ### Names without their star -/

/-- A web name without a star and a dot in front. -/
def withoutStar (name : String) : String :=
  if "*.".toList <+: name.toList then String.ofList (name.toList.drop 2) else name

theorem exists_star (h : "*.".toList <+: name.toList) : ∃ rest, name = "*." ++ rest := by
  obtain ⟨rest, hrest⟩ := h
  refine ⟨String.ofList rest, String.toList_inj.mp ?_⟩
  rw [String.toList_append, String.toList_ofList (l := rest), hrest]

theorem starts_with_star (rest : String) : "*.".toList <+: ("*." ++ rest).toList := by
  rw [String.toList_append]
  exact List.prefix_append _ _

theorem withoutStar_star (rest : String) : withoutStar ("*." ++ rest) = rest := by
  rw [withoutStar, if_pos (starts_with_star rest), String.toList_append]
  exact String.ofList_toList

theorem withoutStar_of_plain (h : ¬ "*.".toList <+: name.toList) : withoutStar name = name := if_neg h

theorem belowStar?_star (rest : String) : belowStar? ("*." ++ rest) = some rest := by
  rw [belowStar?, String.toList_append]
  exact congrArg some String.ofList_toList

theorem belowStar?_of_plain (h : ¬ "*.".toList <+: name.toList) : belowStar? name = none := by
  unfold belowStar?
  split
  · rename_i rest hstar
    exact absurd ⟨rest, hstar.symm⟩ h
  · rfl

/-- A text that starts with another character is not the apex, whatever follows. -/
theorem append_ne_apex {c : Char} {start : String} (hstart : start.toList.head? = some c) (hc : c ≠ '@')
    (rest : String) : start ++ rest ≠ apex := by
  intro h
  have hhead := congrArg (fun text => text.toList.head?) h
  simp only [String.toList_append, List.head?_append, hstart, Option.some_or] at hhead
  exact hc (Option.some.inj hhead)

theorem star_ne_apex (rest : String) : "*." ++ rest ≠ apex := append_ne_apex rfl (by decide) rest

/-- What is left of a name is the apex for the apex itself and for a star before it. -/
theorem withoutStar_eq_apex : withoutStar name = apex ↔ name = apex ∨ name = "*.@" := by
  by_cases hstar : "*.".toList <+: name.toList
  · obtain ⟨rest, rfl⟩ := exists_star hstar
    rw [withoutStar_star]
    constructor
    · rintro rfl
      exact .inr rfl
    · rintro (h | h)
      · exact absurd h (star_ne_apex rest)
      · have hrest := congrArg withoutStar h
        rw [withoutStar_star] at hrest
        exact hrest.trans (withoutStar_star "@")
  · rw [withoutStar_of_plain hstar]
    refine ⟨.inl, Or.rec id ?_⟩
    rintro rfl
    exact absurd (starts_with_star "@") hstar

/-! ### Policies -/

theorem ofName_apex (zone acmeRoot : String) : ofName zone acmeRoot apex = ofApex zone acmeRoot := if_pos rfl

theorem ofName_of_ne_apex (zone acmeRoot : String) (h : name ≠ apex) :
    ofName zone acmeRoot name =
      ofOwner zone acmeRoot (if "*.".toList <+: name.toList then wildcardAllowed else wildcardForbidden)
        (withoutStar name) := by
  rw [ofName, if_neg h]
  by_cases hstar : "*.".toList <+: name.toList
  · rw [if_pos hstar]
    obtain ⟨rest, rfl⟩ := exists_star hstar
    rw [belowStar?_star, withoutStar_star]
  · rw [if_neg hstar, belowStar?_of_plain hstar, withoutStar_of_plain hstar]

/-- The issuers of a web name stand at the name without its star. -/
theorem caaName_ofName (zone acmeRoot name : String) : (ofName zone acmeRoot name).caaName = withoutStar name := by
  by_cases hname : name = apex
  · have hplain : ¬ "*.".toList <+: apex.toList := by decide
    rw [hname, ofName_apex, withoutStar_of_plain hplain]
    rfl
  · rw [ofName_of_ne_apex zone acmeRoot hname]
    rfl

/-! ### Challenges -/

/-- Names with one challenge are one name without their star. -/
theorem withoutStar_eq_of_challengeName {zone acmeRoot other : String}
    (h : (ofName zone acmeRoot name).challengeName = (ofName zone acmeRoot other).challengeName) :
    withoutStar name = withoutStar other := by
  -- The challenge of the apex has no owner after its label.
  have hlonger : ∀ owner, challengeLabel ≠ challengeLabel ++ "." ++ owner := by
    intro owner hsame
    have hlength := congrArg String.length hsame
    have hdot : ".".length = 1 := rfl
    rw [String.length_append, String.length_append] at hlength
    omega
  by_cases hname : name = apex
  · by_cases hother : other = apex
    · rw [hname, hother]
    · rw [hname, ofName_apex, ofName_of_ne_apex zone acmeRoot hother] at h
      exact absurd h (hlonger _)
  · rw [ofName_of_ne_apex zone acmeRoot hname] at h
    by_cases hother : other = apex
    · rw [hother, ofName_apex] at h
      exact absurd h.symm (hlonger _)
    · rw [ofName_of_ne_apex zone acmeRoot hother] at h
      exact (String.append_right_inj _).mp h

theorem challengeLabel_append_ne_apex (rest : String) : challengeLabel ++ rest ≠ apex :=
  append_ne_apex rfl (by decide) rest

/-- A challenge below an owner is the one for the owner's domain, unless the owner is the
apex: the zone would then have a second name within itself. -/
theorem qualify_challenge_eq_iff (zone : Zone) (owner : String) :
    zone.qualify (challengeLabel ++ "." ++ owner) = challengeLabel ++ "." ++ zone.qualify owner ↔ owner ≠ apex := by
  rw [String.append_assoc, zone.qualify_of_ne_apex (challengeLabel_append_ne_apex _)]
  constructor
  · rintro h rfl
    rw [zone.qualify_apex] at h
    have hlength := congrArg String.length h
    simp [apex] at hlength
  · intro howner
    rw [zone.qualify_of_ne_apex howner]
    simp only [String.append_assoc]

theorem challengeTarget_ofApex (zone : Zone) :
    (ofApex zone.name zone.origin.defaults.acmeRoot).challengeTarget =
      zone.name ++ "." ++ zone.origin.defaults.acmeZone ++ "." := by
  have hlabels : ".acme." = "." ++ "acme." := rfl
  rw [ofApex, ZoneDefaults.acmeZone, hlabels]
  simp only [String.append_assoc]

theorem challengeTarget_ofOwner (zone : Zone) {owner : String} (wildcard : String) (h : owner ≠ apex) :
    (ofOwner zone.name zone.origin.defaults.acmeRoot wildcard owner).challengeTarget =
      zone.qualify owner ++ "." ++ zone.origin.defaults.acmeZone ++ "." := by
  have hlabels : ".acme." = "." ++ "acme." := rfl
  rw [ofOwner, ZoneDefaults.acmeZone, zone.qualify_of_ne_apex h, hlabels]
  simp only [String.append_assoc]

/-! ### The protected domain -/

/-- The records of a web name protect the domain that was asked for. The one exception is
a star in front of the apex, whose challenge stands elsewhere. -/
theorem protects_domain (zone : Zone) (name : String) :
    let policy := ofName zone.name zone.origin.defaults.acmeRoot name
    let domain := if policy.caaName = "@" then zone.name else policy.caaName ++ "." ++ zone.name
    domain = zone.qualify (withoutStar name) ∧
      policy.caaValues = ["0 issue \"letsencrypt.org\"",
        if "*.".toList <+: name.toList then "0 issuewild \"letsencrypt\"" else "0 issuewild \";\""] ∧
      (zone.qualify policy.challengeName = "_acme-challenge." ++ domain ∧
        policy.challengeTarget = domain ++ "." ++ zone.origin.defaults.acmeZone ++ "." ↔ name ≠ "*.@") := by
  intro policy domain
  have hdomain : domain = zone.qualify policy.caaName := rfl
  rw [hdomain]
  by_cases hname : name = apex
  · subst hname
    have hpolicy : policy = ofApex zone.name zone.origin.defaults.acmeRoot := ofName_apex ..
    have hplain : ¬ "*.".toList <+: apex.toList := by decide
    rw [hpolicy, if_neg hplain, withoutStar_of_plain hplain]
    refine ⟨rfl, rfl, iff_of_true ⟨?_, ?_⟩ (by decide)⟩
    · change zone.qualify challengeLabel = _ ++ zone.qualify apex
      rw [zone.qualify_apex]
      exact zone.qualify_of_ne_apex (by decide)
    · change _ = zone.qualify apex ++ _ ++ _ ++ _
      rw [zone.qualify_apex]
      exact challengeTarget_ofApex zone
  · have hpolicy := ofName_of_ne_apex zone.name zone.origin.defaults.acmeRoot hname
    change policy = _ at hpolicy
    rw [hpolicy]
    refine ⟨rfl, rfl, ?_⟩
    have howner : withoutStar name ≠ apex ↔ name ≠ "*.@" := by
      rw [Ne, withoutStar_eq_apex, or_iff_right hname]
    rw [← howner]
    constructor
    · rintro ⟨hchallenge, -⟩
      exact (qualify_challenge_eq_iff zone (withoutStar name)).mp hchallenge
    · intro h
      exact ⟨(qualify_challenge_eq_iff zone (withoutStar name)).mpr h, challengeTarget_ofOwner zone _ h⟩

/-- For a star in front of the apex the issuers stand at the zone itself, while the
challenge neither stands below it nor points to it. -/
theorem unprotected_star_apex :
    let policy := ofName "luffy.cx" "luffy.cx" "*.@"
    policy.caaName = "@" ∧ policy.challengeName ≠ "@" ∧
      policy.challengeName ++ "." ++ "luffy.cx" ≠ "_acme-challenge." ++ "luffy.cx" ∧
      policy.challengeTarget ≠ "luffy.cx" ++ "." ++ ZoneDefaults.acmeZone { acmeRoot := "luffy.cx" } ++ "." := by
  decide +kernel

end AcmePolicy

end ZoneGraph
