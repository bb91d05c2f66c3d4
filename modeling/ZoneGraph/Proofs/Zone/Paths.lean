import ZoneGraph.Proofs.Zone.Registration
import Mathlib.Data.List.Basic

/-! Paths of a zone's resources. The path of a record is its type and a text made of its
set identifier and its name, with hyphens between. No type has a hyphen, so the type can
be told from the rest, and the path of a record is never that of another resource of the
zone. The rest cannot be split again, since a set identifier and a name may both have
hyphens: two records of one type may lie at one path and differ in both. -/
namespace ZoneGraph

/-- What stands before the first mark of a text and what follows it are told by the text. -/
theorem append_mark_inj {mark : Char} {left left' right right' : List Char} (h : mark ∉ left) (h' : mark ∉ left') :
    left ++ mark :: right = left' ++ mark :: right' ↔ left = left' ∧ right = right' := by
  induction left generalizing left' with
  | nil =>
    cases left' with
    | nil => simp
    | cons c left' => exact iff_of_false (fun heq => h' (by simp [(List.cons.inj heq).1])) nofun
  | cons c left ih =>
    cases left' with
    | nil => exact iff_of_false (fun heq => h (by simp [(List.cons.inj heq).1])) nofun
    | cons d left' =>
      obtain ⟨-, hleft⟩ := not_or.mp (mt List.mem_cons.mpr h)
      obtain ⟨-, hleft'⟩ := not_or.mp (mt List.mem_cons.mpr h')
      rw [List.cons_append, List.cons_append, List.cons.injEq, List.cons.injEq, ih hleft hleft', and_assoc]

/-! ### Records -/

theorem RecordType.hyphen_notMem_name (type : RecordType) : '-' ∉ type.name.toList := by
  cases type <;> decide

namespace Record

variable {record other : Record}

/-- The set identifier of a routed record. -/
def setIdentifier? (record : Record) : Option String :=
  record.options.routing.map RoutingSelector.setIdentifier

/-- The path of a record without its type. -/
def pathRest (record : Record) : String :=
  match record.setIdentifier? with
  | some identifier => identifier ++ "-" ++ record.name
  | none => record.name

theorem path_eq (record : Record) : record.path = record.type.name ++ "-" ++ record.pathRest := by
  unfold path pathRest setIdentifier?
  cases record.options.routing with
  | none => rfl
  | some routing => simp [String.append_assoc]

theorem path_toList (record : Record) :
    record.path.toList = record.type.name.toList ++ '-' :: record.pathRest.toList := by
  rw [path_eq, String.toList_append, String.toList_append, List.append_assoc]
  rfl

/-- A path of a record has a hyphen, unlike those of the resources that a zone has once. -/
theorem path_ne_of_hyphen_notMem {id : String} (h : '-' ∉ id.toList) : record.path ≠ id := by
  rintro rfl
  rw [path_toList] at h
  exact h (List.mem_append_right _ (List.mem_cons_self ..))

/-- The first hyphen of a path ends the type. -/
theorem type_eq_of_path_eq {id rest : String} (hid : '-' ∉ id.toList) (h : record.path = id ++ "-" ++ rest) :
    record.type.name = id ∧ record.pathRest = rest := by
  have hlist := congrArg String.toList h
  rw [path_toList, String.toList_append, String.toList_append, List.append_assoc] at hlist
  have hlist : record.type.name.toList ++ '-' :: record.pathRest.toList = id.toList ++ '-' :: rest.toList := hlist
  rw [← String.toList_inj, ← String.toList_inj]
  exact (append_mark_inj record.type.hyphen_notMem_name hid).mp hlist

theorem path_eq_iff : record.path = other.path ↔ record.type = other.type ∧ record.pathRest = other.pathRest := by
  constructor
  · intro h
    obtain ⟨htype, hrest⟩ := type_eq_of_path_eq other.type.hyphen_notMem_name (h.trans other.path_eq)
    exact ⟨RecordType.name_injective htype, hrest⟩
  · rintro ⟨htype, hrest⟩
    rw [path_eq, path_eq, htype, hrest]

theorem path_eq_iff_of_unrouted (hrecord : record.options.routing = none) (hother : other.options.routing = none) :
    record.path = other.path ↔ record.type = other.type ∧ record.name = other.name := by
  rw [path_eq_iff, pathRest, pathRest, setIdentifier?, setIdentifier?, hrecord, hother]
  rfl

theorem path_ne_user (name : String) : record.path ≠ "IAM-" ++ name := by
  intro h
  have hpath : record.path = "IAM" ++ "-" ++ name := h
  obtain ⟨htype, -⟩ := type_eq_of_path_eq (by decide) hpath
  revert htype
  cases record.type <;> decide

/-! ### Record sets -/

/-- Whether two records stand for one record set: they have one type, one name and one
set identifier, or both none. -/
structure SameSet (record other : Record) : Prop where
  type : record.type = other.type
  name : record.name = other.name
  setIdentifier : record.setIdentifier? = other.setIdentifier?

/-- Whether the name of one record takes in a part of the other's set identifier. -/
inductive Overlaps (record other : Record) : Prop where
  /-- The other's name begins with the whole set identifier. -/
  | unrouted (identifier : String) (hrecord : record.setIdentifier? = some identifier)
      (hother : other.setIdentifier? = none) (hname : other.name = identifier ++ "-" ++ record.name)
  /-- The name begins with the end of the other's set identifier. -/
  | routed (identifier middle : String) (hrecord : record.setIdentifier? = some identifier)
      (hother : other.setIdentifier? = some (identifier ++ "-" ++ middle))
      (hname : record.name = middle ++ "-" ++ other.name)

/-- Whether two records of one type are of different sets and still lie at one path. -/
def Confused (record other : Record) : Prop :=
  record.type = other.type ∧ (record.Overlaps other ∨ other.Overlaps record)

theorem Overlaps.pathRest_eq (h : record.Overlaps other) : record.pathRest = other.pathRest := by
  unfold pathRest
  cases h with
  | unrouted identifier hrecord hother hname => simp [hrecord, hother, hname]
  | routed identifier middle hrecord hother hname => simp [hrecord, hother, hname, String.append_assoc]

/-- Two texts joined by a hyphen in two ways: at one place, or at two hyphens with a text
between them. -/
theorem hyphen_append_cases {left left' right right' : String} (h : left ++ "-" ++ right = left' ++ "-" ++ right') :
    (left = left' ∧ right = right') ∨
      (∃ middle, left' = left ++ "-" ++ middle ∧ right = middle ++ "-" ++ right') ∨
        ∃ middle, left = left' ++ "-" ++ middle ∧ right' = middle ++ "-" ++ right := by
  have hmiddle : ∀ {left left' right right' : String} {more : List Char}, left'.toList = left.toList ++ more →
      '-' :: right.toList = more ++ '-' :: right'.toList → (left = left' ∧ right = right') ∨
        ∃ middle, left' = left ++ "-" ++ middle ∧ right = middle ++ "-" ++ right' := by
    intro left left' right right' more hleft hright
    cases more with
    | nil =>
      rw [List.append_nil] at hleft
      exact Or.inl ⟨String.toList_inj.mp hleft.symm, String.toList_inj.mp (List.cons.inj hright).2⟩
    | cons c middle =>
      obtain ⟨rfl, hrest⟩ := List.cons.inj hright
      refine Or.inr ⟨String.ofList middle, String.toList_inj.mp ?_, String.toList_inj.mp ?_⟩
      · simp [hleft, String.toList_append]
      · simpa [String.toList_append] using hrest
  have hlist := congrArg String.toList h
  simp only [String.toList_append, List.append_assoc] at hlist
  rcases List.append_eq_append_iff.mp hlist with ⟨more, hleft, hright⟩ | ⟨more, hleft, hright⟩
  · exact (hmiddle hleft hright).imp_right Or.inl
  · rcases hmiddle hleft hright with ⟨rfl, rfl⟩ | hmore
    · exact Or.inl ⟨rfl, rfl⟩
    · exact Or.inr (Or.inr hmore)

/-- Records at one path are of one set, or they are confused. -/
theorem path_eq_iff_sameSet_or_confused : record.path = other.path ↔ record.SameSet other ∨ record.Confused other := by
  rw [path_eq_iff]
  constructor
  · rintro ⟨htype, hrest⟩
    unfold pathRest at hrest
    cases hrecord : record.setIdentifier? with
    | none =>
      cases hother : other.setIdentifier? with
      | none =>
        rw [hrecord, hother] at hrest
        exact Or.inl ⟨htype, hrest, hrecord.trans hother.symm⟩
      | some identifier =>
        rw [hrecord, hother] at hrest
        exact Or.inr ⟨htype, Or.inr (.unrouted identifier hother hrecord hrest)⟩
    | some identifier =>
      cases hother : other.setIdentifier? with
      | none =>
        rw [hrecord, hother] at hrest
        exact Or.inr ⟨htype, Or.inl (.unrouted identifier hrecord hother hrest.symm)⟩
      | some identifier' =>
        rw [hrecord, hother] at hrest
        rcases hyphen_append_cases hrest with ⟨rfl, hname⟩ | ⟨middle, rfl, hname⟩ | ⟨middle, rfl, hname⟩
        · exact Or.inl ⟨htype, hname, hrecord.trans hother.symm⟩
        · exact Or.inr ⟨htype, Or.inl (.routed identifier middle hrecord hother hname)⟩
        · exact Or.inr ⟨htype, Or.inr (.routed identifier' middle hother hrecord hname)⟩
  · rintro (⟨htype, hname, hid⟩ | ⟨htype, h | h⟩)
    · exact ⟨htype, by rw [pathRest, pathRest, hname, hid]⟩
    · exact ⟨htype, h.pathRest_eq⟩
    · exact ⟨htype, h.pathRest_eq.symm⟩

/-- Names without a hyphen are never confused. -/
theorem not_confused (hrecord : '-' ∉ record.name.toList) (hother : '-' ∉ other.name.toList) :
    ¬ record.Confused other := by
  have hnot : ∀ {record other : Record}, '-' ∉ record.name.toList → '-' ∉ other.name.toList →
      ¬ record.Overlaps other := by
    intro record other hrecord hother h
    cases h with
    | unrouted identifier hid hnone hname => exact hother (by simp [hname, String.toList_append])
    | routed identifier middle hid hsome hname => exact hrecord (by simp [hname, String.toList_append])
  rintro ⟨-, h | h⟩
  · exact hnot hrecord hother h
  · exact hnot hother hrecord h

end Record

/-! ### Zones -/

namespace Zone

theorem pathOf_inj {zone : Zone} {id other : String} : zone.pathOf id = zone.pathOf other ↔ id = other :=
  String.append_right_inj _

theorem path_recordResource (record : Record) (zone : Zone) :
    (zone.recordResource record).path = zone.pathOf record.path := by
  cases hbackend : zone.backend with
  | livedns =>
    rw [recordResource_of_livedns hbackend]
    rfl
  | route53 =>
    rw [recordResource_of_route53 hbackend, route53Record, path_addRouting]
    rfl

end Zone

end ZoneGraph
