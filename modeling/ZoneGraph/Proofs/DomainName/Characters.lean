import ZoneGraph.Proofs.DomainName.Reading

/-! Which characters the text of a name may have. Whatever is read within a label, as it
stands or after a backslash, ends up in a label, and labels are checked; the digits of an
escape are digits in base eight. So a text that reads as a name has letters and digits,
the few marks of labels, dots and backslashes, and no other character. -/
namespace ZoneGraph.DomainName

variable {labels result : List (List Char)} {label text : List Char} {place : Place} {c : Char}

/-- Whether a character may stand in the text of a name. -/
def IsNameChar (c : Char) : Prop := c.isAlphanum = true ∨ c ∈ ['_', '-', '.', '*', '\\']

theorem not_isNameChar_slash : ¬ IsNameChar '/' := by
  rintro (halphanum | hmark)
  · exact absurd halphanum (by decide)
  · exact absurd hmark (by decide)

theorem isNameChar_of_startsLabel (h : startsLabel c = true) : IsNameChar c := by
  simp only [startsLabel, Bool.or_eq_true, decide_eq_true_eq] at h
  rcases h with ((halphanum | rfl) | rfl) | rfl
  · exact Or.inl halphanum
  all_goals exact Or.inr (by decide)

theorem isNameChar_of_continuesLabel (h : continuesLabel c = true) : IsNameChar c := by
  simp only [continuesLabel, Bool.or_eq_true, decide_eq_true_eq] at h
  rcases h with ((halphanum | rfl) | rfl) | rfl
  · exact Or.inl halphanum
  all_goals exact Or.inr (by decide)

theorem isNameChar_of_isLabel (h : isLabel label = true) : ∀ c ∈ label, IsNameChar c := by
  cases label with
  | nil => simp
  | cons first rest =>
    simp only [isLabel, Bool.or_eq_true, Bool.and_eq_true, decide_eq_true_eq, List.isEmpty_iff, List.all_eq_true] at h
    rcases h with ⟨rfl, rfl⟩ | ⟨hfirst, hrest⟩
    · exact List.forall_mem_singleton.mpr (Or.inr (by simp))
    · exact List.forall_mem_cons.mpr
        ⟨isNameChar_of_startsLabel hfirst, fun c hc => isNameChar_of_continuesLabel (hrest c hc)⟩

theorem isNameChar_of_octalDigit {digit : Nat} (h : octalDigit c = .ok digit) : IsNameChar c := by
  unfold octalDigit at h
  split_ifs at h with hnumeral
  unfold octal? at h
  split_ifs at h with hoctal
  refine Or.inl ?_
  have hdigit : c.isDigit = true := by
    simp only [Char.isDigit, Bool.and_eq_true, decide_eq_true_eq]
    exact ⟨hoctal.1, Nat.le_trans hoctal.2 (by decide)⟩
  simp [Char.isAlphanum, hdigit]

theorem isNameChar_of_insert (hc : IsNameChar c) (h : ∀ other ∈ label ++ text, IsNameChar other) :
    ∀ other ∈ label ++ c :: text, IsNameChar other := by
  rw [List.forall_mem_append] at h ⊢
  exact ⟨h.1, List.forall_mem_cons.mpr ⟨hc, h.2⟩⟩

/-- A reading that goes through has allowed characters only, in the text and in the label
that it starts within. -/
theorem isNameChar_of_readFrom (h : readFrom labels label place text = .ok result) :
    ∀ other ∈ label ++ text, IsNameChar other := by
  fun_induction readFrom labels label place text with
  | case1 labels label place hempty => simp [List.isEmpty_iff.mp hempty]
  | case2 labels label =>
    obtain ⟨⟨-, hlabel, -⟩, -⟩ := addLabel_eq_ok.mp h
    rw [List.append_nil]
    exact isNameChar_of_isLabel hlabel
  | case3 labels label rest more hadd ih =>
    obtain ⟨⟨-, hlabel, -⟩, -⟩ := addLabel_eq_ok.mp hadd
    have hrest : ∀ other ∈ label ++ rest, IsNameChar other :=
      List.forall_mem_append.mpr ⟨isNameChar_of_isLabel hlabel, ih h⟩
    exact isNameChar_of_insert (Or.inr (by decide)) hrest
  | case5 labels label rest hdot ih => exact isNameChar_of_insert (Or.inr (by decide)) (ih h)
  | case7 labels label c rest hdot hescape hallowed ih =>
    rw [List.append_cons]
    exact ih h
  | case8 labels label c rest hnumeral digit hdigit ih =>
    exact isNameChar_of_insert (isNameChar_of_octalDigit hdigit) (ih h)
  | case10 labels label c rest hnumeral ih =>
    rw [List.append_cons]
    exact ih h
  | case11 labels label high c rest digit hdigit ih =>
    exact isNameChar_of_insert (isNameChar_of_octalDigit hdigit) (ih h)
  | case13 labels label high middle c rest digit hdigit ih =>
    have hboth := List.forall_mem_append.mp (ih h)
    have hlabel := (List.forall_mem_append.mp hboth.1).1
    exact isNameChar_of_insert (isNameChar_of_octalDigit hdigit) (List.forall_mem_append.mpr ⟨hlabel, hboth.2⟩)
  | case4 | case6 | case9 | case12 | case14 => cases h

/-- The text of a zone's name has allowed characters only. -/
theorem isNameChar_of_parseZone {text : String} {name : DomainName} (h : parseZone text = .ok name) :
    ∀ c ∈ text.toList, IsNameChar c := by
  unfold parseZone at h
  split_ifs at h with hempty hdot
  have hroot : text.toList ≠ ['.'] := by
    intro hroot
    rw [hroot] at hdot
    exact hdot rfl
  cases hparse : parse text.toList with
  | error fault => simp [hparse] at h
  | ok found => exact isNameChar_of_readFrom ((parse_eq_ok hroot).mp hparse)

end ZoneGraph.DomainName
