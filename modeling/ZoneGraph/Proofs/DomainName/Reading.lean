import ZoneGraph.DomainName
import Mathlib.Data.List.Basic

/-! How names are read from texts. A character either is a dot that ends a label, or it
is read within the label, in the same way whatever labels stand before it and whatever
text follows it. So a text can be cut at any dot that ends a label: what is left of the
dot reads as the labels before it, and what is right of it as the labels after it. -/
namespace ZoneGraph.DomainName

variable {labels result own rest : List (List Char)} {label text : List Char} {place : Place} {c : Char}

/-! ### Labels -/

theorem addLabel_eq_ok : addLabel labels label = .ok result ↔
    (byteCount label ≤ 63 ∧ isLabel label = true ∧ wireBytes labels + byteCount label + 1 ≤ 255) ∧
      result = labels ++ [label] := by
  unfold addLabel
  split_ifs with hbytes hlabel hname
  · exact iff_of_false nofun fun h => by omega
  · rw [Bool.not_eq_true'] at hlabel
    simp [hlabel]
  · exact iff_of_false nofun fun h => by omega
  · have hisLabel : isLabel label = true := by simpa using hlabel
    have hallowed : byteCount label ≤ 63 ∧ isLabel label = true ∧ wireBytes labels + byteCount label + 1 ≤ 255 :=
      ⟨by omega, hisLabel, by omega⟩
    rw [and_iff_right hallowed, Except.ok.injEq, eq_comm]

theorem wireBytes_append_le (before labels : List (List Char)) : wireBytes labels ≤ wireBytes (before ++ labels) := by
  induction before with
  | nil => exact Nat.le_refl _
  | cons label before ih =>
    rw [List.cons_append, wireBytes]
    omega

/-- A label that is allowed after some labels is allowed after the last of them alone. -/
theorem addLabel_of_append {before : List (List Char)} (h : addLabel (before ++ labels) label = .ok result) :
    addLabel labels label = .ok (labels ++ [label]) := by
  obtain ⟨⟨hbytes, hlabel, hname⟩, -⟩ := addLabel_eq_ok.mp h
  have hle := wireBytes_append_le before labels
  exact addLabel_eq_ok.mpr ⟨⟨hbytes, hlabel, by omega⟩, rfl⟩

theorem ne_nil_of_addLabel (h : addLabel labels label = .ok result) : label ≠ [] := by
  obtain ⟨⟨-, hlabel, -⟩, -⟩ := addLabel_eq_ok.mp h
  rintro rfl
  cases hlabel

/-! ### Reading on -/

theorem readFrom_nil (labels : List (List Char)) (label : List Char) (place : Place) :
    readFrom labels label place [] = if label.isEmpty then .ok labels else addLabel labels label := by
  unfold readFrom
  rfl

/-- A dot ends a label that is allowed, and the next one starts after it. -/
theorem readFrom_dot (h : addLabel labels label = .ok (labels ++ [label])) (text : List Char) :
    readFrom labels label .label ('.' :: text) = readFrom (labels ++ [label]) [] .label text := by
  rw [readFrom, if_pos rfl, h]

/-- Whether a character is read within a label, with a longer start of it or at another
place thereafter. A dot is not, unless a backslash stands before it. -/
structure Continues (label : List Char) (place : Place) (c : Char) (label' : List Char) (place' : Place) : Prop where
  readFrom_eq : ∀ labels rest, readFrom labels label place (c :: rest) = readFrom labels label' place' rest
  plain : place = .label → c ≠ '.' ∧ (c ≠ '\\' → place' = .label)

/-- What a character does to a reading that goes on. -/
theorem readFrom_cons_ok {text : List Char} (h : readFrom labels label place (c :: text) = .ok result) :
    (place = .label ∧ c = '.' ∧ addLabel labels label = .ok (labels ++ [label]) ∧
      readFrom (labels ++ [label]) [] .label text = .ok result) ∨
      ∃ label' place', Continues label place c label' place' := by
  cases place with
  | label =>
    unfold readFrom at h
    split_ifs at h with hdot hescape hrefused
    · cases hadd : addLabel labels label with
      | error fault => simp [hadd] at h
      | ok more =>
        obtain ⟨-, rfl⟩ := addLabel_eq_ok.mp hadd
        rw [hadd] at h
        exact Or.inl ⟨rfl, hdot, rfl, h⟩
    · refine Or.inr ⟨label, .escape, fun labels rest => ?_, fun _ => ⟨hdot, fun hne => absurd hescape hne⟩⟩
      rw [readFrom, if_neg hdot, if_pos hescape]
    · refine Or.inr ⟨label ++ [c], .label, fun labels rest => ?_, fun _ => ⟨hdot, fun _ => rfl⟩⟩
      rw [readFrom, if_neg hdot, if_neg hescape, if_neg hrefused]
  | escape =>
    unfold readFrom at h
    split_ifs at h with hnumeral
    · cases hdigit : octalDigit c with
      | error fault => simp [hdigit] at h
      | ok digit =>
        refine Or.inr ⟨label, .secondDigit digit, fun labels rest => ?_, nofun⟩
        rw [readFrom, if_pos hnumeral, hdigit]
    · refine Or.inr ⟨label ++ [c], .label, fun labels rest => ?_, nofun⟩
      rw [readFrom, if_neg hnumeral]
  | secondDigit high =>
    unfold readFrom at h
    cases hdigit : octalDigit c with
    | error fault => simp [hdigit] at h
    | ok digit =>
      refine Or.inr ⟨label, .thirdDigit high digit, fun labels rest => ?_, nofun⟩
      rw [readFrom, hdigit]
  | thirdDigit high middle =>
    unfold readFrom at h
    cases hdigit : octalDigit c with
    | error fault => simp [hdigit] at h
    | ok digit =>
      refine Or.inr ⟨label ++ [Char.ofNat (64 * high + 8 * middle + digit)], .label, fun labels rest => ?_, nofun⟩
      rw [readFrom, hdigit]

theorem prefix_of_readFrom (h : readFrom labels label place text = .ok result) : labels <+: result := by
  induction text generalizing labels label place with
  | nil =>
    rw [readFrom_nil] at h
    split_ifs at h
    · cases h
      exact List.prefix_rfl
    · obtain ⟨-, rfl⟩ := addLabel_eq_ok.mp h
      exact List.prefix_append _ _
  | cons c text ih =>
    rcases readFrom_cons_ok h with ⟨-, -, -, hrest⟩ | ⟨label', place', hcontinues⟩
    · exact (List.prefix_append _ _).trans (ih hrest)
    · rw [hcontinues.readFrom_eq] at h
      exact ih h

/-- What is read after some labels is read without them as well. -/
theorem readFrom_of_append {before : List (List Char)}
    (h : readFrom (before ++ labels) label place text = .ok (before ++ result)) :
    readFrom labels label place text = .ok result := by
  induction text generalizing labels label place with
  | nil =>
    rw [readFrom_nil] at h ⊢
    split_ifs at h ⊢
    · rw [List.append_cancel_left (Except.ok.inj h)]
    · obtain ⟨-, hresult⟩ := addLabel_eq_ok.mp h
      rw [List.append_assoc] at hresult
      rw [List.append_cancel_left hresult]
      exact addLabel_of_append h
  | cons c text ih =>
    rcases readFrom_cons_ok h with ⟨rfl, rfl, hadd, hrest⟩ | ⟨label', place', hcontinues⟩
    · rw [List.append_assoc] at hrest
      rw [readFrom_dot (addLabel_of_append hadd)]
      exact ih hrest
    · rw [hcontinues.readFrom_eq] at h ⊢
      exact ih h

/-! ### Cutting -/

/-- A text that reads as some labels and more can be cut at the dot between them. With the
dot, what is left of it reads the same. -/
theorem readFrom_split (hown : own ≠ []) (hrest : rest ≠ [])
    (h : readFrom labels label place text = .ok (labels ++ (own ++ rest))) :
    ∃ left right, text = left ++ '.' :: right ∧
      readFrom labels label place left = .ok (labels ++ own) ∧
      readFrom labels label place (left ++ ['.']) = .ok (labels ++ own) ∧
      readFrom (labels ++ own) [] .label right = .ok (labels ++ own ++ rest) := by
  induction text generalizing labels label place own with
  | nil =>
    rw [readFrom_nil] at h
    split_ifs at h with hempty
    · have hnil : own ++ rest = [] := List.self_eq_append_right.mp (Except.ok.inj h)
      exact absurd (List.append_eq_nil_iff.mp hnil).1 hown
    · obtain ⟨-, hresult⟩ := addLabel_eq_ok.mp h
      rcases List.append_eq_singleton_iff.mp (List.append_cancel_left hresult) with ⟨hnil, -⟩ | ⟨-, hnil⟩
      · exact absurd hnil hown
      · exact absurd hnil hrest
  | cons c text ih =>
    rcases readFrom_cons_ok h with ⟨rfl, rfl, hadd, hread⟩ | ⟨label', place', hcontinues⟩
    · -- The label that ends here is the first one to be kept.
      obtain ⟨more, hmore⟩ := prefix_of_readFrom hread
      have hnonempty : label.isEmpty = false := List.isEmpty_eq_false_iff.mpr (ne_nil_of_addLabel hadd)
      rw [List.append_assoc] at hmore
      have hfirst := List.append_cancel_left hmore
      cases own with
      | nil => exact absurd rfl hown
      | cons first own =>
        obtain ⟨rfl, -⟩ := List.cons.inj hfirst
        by_cases hlast : own = []
        · subst hlast
          refine ⟨[], text, rfl, ?_, ?_, by simpa using hread⟩
          · rw [readFrom_nil, hnonempty, if_neg Bool.false_ne_true, hadd]
          · rw [List.nil_append, readFrom_dot hadd, readFrom_nil]
            rfl
        · have hread : readFrom (labels ++ [label]) [] .label text = .ok (labels ++ [label] ++ (own ++ rest)) := by
            simpa using hread
          obtain ⟨left, right, rfl, hleft, hwith, hright⟩ := ih hlast hread
          refine ⟨'.' :: left, right, rfl, ?_, ?_, by simpa using hright⟩
          · rw [readFrom_dot hadd, hleft]
            simp
          · rw [List.cons_append, readFrom_dot hadd, hwith]
            simp
    · rw [hcontinues.readFrom_eq] at h
      obtain ⟨left, right, rfl, hleft, hwith, hright⟩ := ih hown h
      refine ⟨c :: left, right, rfl, ?_, ?_, hright⟩
      · rw [hcontinues.readFrom_eq, hleft]
      · rw [List.cons_append, hcontinues.readFrom_eq, hwith]

/-- Without escapes each dot ends a label. -/
theorem length_of_readFrom_plain (hplain : '\\' ∉ text)
    (h : readFrom labels label .label (text ++ ['.']) = .ok result) :
    result.length = labels.length + text.count '.' + 1 := by
  induction text generalizing labels label with
  | nil =>
    rcases readFrom_cons_ok h with ⟨-, -, -, hrest⟩ | ⟨label', place', hcontinues⟩
    · rw [readFrom_nil] at hrest
      obtain rfl : labels ++ [label] = result := Except.ok.inj hrest
      simp
    · exact absurd rfl (hcontinues.plain rfl).1
  | cons c text ih =>
    obtain ⟨hc, hrest⟩ := not_or.mp (mt List.mem_cons.mpr hplain)
    rcases readFrom_cons_ok h with ⟨-, rfl, -, hread⟩ | ⟨label', place', hcontinues⟩
    · rw [ih hrest hread, List.count_cons_self, List.length_append, List.length_singleton]
      omega
    · obtain ⟨hdot, hplace⟩ := hcontinues.plain rfl
      rw [List.cons_append, hcontinues.readFrom_eq, hplace (Ne.symm hc)] at h
      rw [ih hrest h, List.count_cons_of_ne hdot]

/-! ### Names -/

theorem parse_eq_ok {name : DomainName} (hroot : text ≠ ['.']) :
    parse text = .ok name ↔ readFrom [] [] .label text = .ok name.labels := by
  rw [parse, if_neg hroot]
  cases name
  cases readFrom [] [] .label text <;> simp [Except.map]

theorem parse_of_readFrom (h : readFrom [] [] .label text = .ok labels) : parse text = .ok ⟨labels⟩ := by
  refine (parse_eq_ok ?_).mpr h
  rintro rfl
  cases h

end ZoneGraph.DomainName
