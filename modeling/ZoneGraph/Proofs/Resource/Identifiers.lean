import ZoneGraph.Proofs.Digest.Digits
import ZoneGraph.Resource
import Mathlib.Data.List.Forall2

/-! Identifiers of resources, and the references made from them. A path is sanitized character
by character into a stem, so different paths may have one stem. The identifier ends in an
underscore and eight digits of the digest of the path. As the end has always one length, an
identifier tells its stem and the first bytes of the digest. No character of an identifier
or of the name of a kind is a dot, so what a reference names can be read off its parts
between the dots. -/
namespace ZoneGraph

/-! ### Characters -/

/-- Whether a character may stand in an identifier. -/
def InIdentifier (c : Char) : Prop := c.isAlpha ∨ c.isDigit ∨ c = '-' ∨ c = '_'

/-- Whether a text starts as identifiers do, with a letter or an underscore. -/
def StartsIdentifier (text : List Char) : Prop := ∃ c ∈ text.head?, c.isAlpha ∨ c = '_'

/-- Whether a text is an identifier: it starts as one, which an empty text does not, and no
other character than those for identifiers stands in it. -/
structure IsIdentifier (text : List Char) : Prop where
  start : StartsIdentifier text
  chars : ∀ c ∈ text, InIdentifier c

/-- What a character of a path is sanitized to: itself if it may stand in an identifier, and
else an underscore. -/
inductive Sanitized (c : Char) : Char → Prop where
  | kept (h : InIdentifier c) : Sanitized c c
  | replaced (h : ¬ InIdentifier c) : Sanitized c '_'

/-- Whether a stem is that of a path: every character is sanitized, and an underscore is put
in front just if the text would not start as identifiers do. -/
inductive IsStem (path : List Char) : List Char → Prop where
  | plain {text : List Char} (hchars : List.Forall₂ Sanitized path text) (hstart : StartsIdentifier text) :
      IsStem path text
  | mended {text : List Char} (hchars : List.Forall₂ Sanitized path text) (hstart : ¬ StartsIdentifier text) :
      IsStem path ('_' :: text)

theorem isIdChar_iff {c : Char} : isIdChar c = true ↔ InIdentifier c := by
  simp [isIdChar, InIdentifier, Char.isAlphanum, or_assoc]

theorem inIdentifier_of_isHexDigit {c : Char} (h : Digest.Sha256.IsHexDigit c) : InIdentifier c := by
  have hdigits : "0123456789abcdef".toList.all isIdChar = true := by decide
  exact isIdChar_iff.mp (List.all_eq_true.mp hdigits c h)

theorem dot_not_inIdentifier : ¬ InIdentifier '.' := by
  unfold InIdentifier
  decide

theorem isDigit_eq_false_of_isAlpha {c : Char} (h : c.isAlpha = true) : c.isDigit = false := by
  have hletter : 'A'.toNat ≤ c.toNat := by
    rcases (Bool.or_eq_true _ _).mp h with hupper | hlower
    · exact (of_decide_eq_true hupper).1
    · have hlow : 'a'.toNat ≤ c.toNat := of_decide_eq_true (Bool.and_eq_true_iff.mp hlower).1
      exact Nat.le_trans (by decide) hlow
  rw [← Bool.not_eq_true, Char.isDigit_iff_toNat]
  rintro ⟨-, hdigit⟩
  exact absurd (Nat.le_trans hletter hdigit) (by decide)

theorem sanitized_iff {c d : Char} : Sanitized c d ↔ (if isIdChar c then c else '_') = d := by
  constructor
  · rintro (h | h)
    · rw [if_pos (isIdChar_iff.mpr h)]
    · rw [if_neg (mt isIdChar_iff.mp h)]
  · rintro rfl
    split
    · rename_i h
      exact .kept (isIdChar_iff.mp h)
    · rename_i h
      exact .replaced (mt isIdChar_iff.mpr h)

theorem Sanitized.inIdentifier {c d : Char} (h : Sanitized c d) : InIdentifier d := by
  cases h with
  | kept h => exact h
  | replaced => exact .inr (.inr (.inr rfl))

theorem forall₂_sanitized_iff {path text : List Char} :
    List.Forall₂ Sanitized path text ↔ (path.map fun c => if isIdChar c then c else '_') = text := by
  have hsanitized : Sanitized = fun c d => (if isIdChar c then c else '_') = d := by
    ext c d
    exact sanitized_iff
  rw [← List.forall₂_eq_eq_eq, List.forall₂_map_left_iff, hsanitized]

/-- Of the characters for identifiers, digits and hyphens may not stand first. -/
theorem startsIdentifier_cons {c : Char} {rest : List Char} (h : InIdentifier c) :
    StartsIdentifier (c :: rest) ↔ ¬ (c.isDigit || c = '-') = true := by
  have hstart : StartsIdentifier (c :: rest) ↔ c.isAlpha ∨ c = '_' := by simp [StartsIdentifier]
  rw [hstart]
  rcases h with halpha | hdigit | rfl | rfl
  · have hhyphen : c ≠ '-' := by
      rintro rfl
      exact absurd halpha (by decide)
    simp [halpha, isDigit_eq_false_of_isAlpha halpha, hhyphen]
  · have halpha : ¬ c.isAlpha = true := fun halpha => by simp [isDigit_eq_false_of_isAlpha halpha] at hdigit
    have hunderscore : c ≠ '_' := by
      rintro rfl
      exact absurd hdigit (by decide)
    simp [hdigit, halpha, hunderscore]
  · decide
  · decide

theorem isStem_idStem (path : List Char) : IsStem path (idStem path) := by
  rw [idStem]
  split
  · rename_i hnil
    exact .mended (forall₂_sanitized_iff.mpr hnil) (by simp [StartsIdentifier])
  · rename_i c rest hcons
    have hchars := forall₂_sanitized_iff.mpr hcons
    obtain ⟨d, -, hc, -, -⟩ := List.forall₂_cons_right_iff.mp hchars
    split
    · rename_i hfirst
      exact .mended hchars (mt (startsIdentifier_cons hc.inIdentifier).mp (not_not.mpr hfirst))
    · rename_i hfirst
      exact .plain hchars ((startsIdentifier_cons hc.inIdentifier).mpr hfirst)

theorem IsStem.unique {path stem other : List Char} (h : IsStem path stem) (hother : IsStem path other) :
    stem = other := by
  have hsame {text text' : List Char} (hchars : List.Forall₂ Sanitized path text)
      (hchars' : List.Forall₂ Sanitized path text') : text = text' :=
    (forall₂_sanitized_iff.mp hchars).symm.trans (forall₂_sanitized_iff.mp hchars')
  rcases h with ⟨hchars, hstart⟩ | ⟨hchars, hstart⟩
  · rcases hother with ⟨hchars', hstart'⟩ | ⟨hchars', hstart'⟩
    · exact hsame hchars hchars'
    · exact absurd (hsame hchars hchars' ▸ hstart) hstart'
  · rcases hother with ⟨hchars', hstart'⟩ | ⟨hchars', hstart'⟩
    · exact absurd (hsame hchars hchars' ▸ hstart') hstart
    · rw [hsame hchars hchars']

theorem isStem_iff {path stem : List Char} : IsStem path stem ↔ stem = idStem path := by
  constructor
  · exact fun h => h.unique (isStem_idStem path)
  · rintro rfl
    exact isStem_idStem path

theorem IsStem.isIdentifier {path stem : List Char} (h : IsStem path stem) : IsIdentifier stem := by
  have hclean {text : List Char} (hchars : List.Forall₂ Sanitized path text) : ∀ d ∈ text, InIdentifier d := by
    rw [← forall₂_sanitized_iff.mp hchars, List.forall_mem_map]
    exact fun c _ => (sanitized_iff.mpr rfl).inIdentifier
  cases h with
  | plain hchars hstart => exact ⟨hstart, hclean hchars⟩
  | mended hchars hstart =>
    refine ⟨⟨'_', rfl, .inr rfl⟩, List.forall_mem_cons.mpr ⟨?_, hclean hchars⟩⟩
    exact .inr (.inr (.inr rfl))

/-! ### Identifiers -/

/-- The digits at the end of an identifier: two for each of the first four bytes of a digest. -/
def idDigits (path : String) : List Char :=
  ((Digest.Sha256.digest path.toUTF8.toList).take 4).flatMap Digest.Sha256.hexByte

theorem length_idDigits (path : String) : (idDigits path).length = 8 := by
  rw [idDigits, Digest.Sha256.length_flatMap_hexByte, List.length_take, Digest.Sha256.length_digest]
  rfl

theorem isHexDigit_of_mem_idDigits {path : String} {d : Char} (h : d ∈ idDigits path) : Digest.Sha256.IsHexDigit d := by
  obtain ⟨byte, -, hd⟩ := List.mem_flatMap.mp h
  exact Digest.Sha256.isHexDigit_of_mem_hexByte hd

theorem logicalId_toList (path : String) : (logicalId path).toList = idStem path.toList ++ '_' :: idDigits path := by
  rw [logicalId, String.toList_ofList, Digest.Sha256.take_hexDigest, idDigits]

/-- The digits are the last eight characters, so equal identifiers have equal stems. -/
theorem logicalId_eq_iff {path other : String} : logicalId path = logicalId other ↔
    idStem path.toList = idStem other.toList ∧
      (Digest.Sha256.digest path.toUTF8.toList).take 4 = (Digest.Sha256.digest other.toUTF8.toList).take 4 := by
  rw [← Digest.Sha256.flatMap_hexByte_inj, ← idDigits, ← idDigits, ← String.toList_inj, logicalId_toList,
    logicalId_toList]
  constructor
  · intro h
    have hlength : ('_' :: idDigits path).length = ('_' :: idDigits other).length := by
      rw [List.length_cons, List.length_cons, length_idDigits, length_idDigits]
    obtain ⟨hstem, hdigits⟩ := List.append_inj' h hlength
    exact ⟨hstem, (List.cons.inj hdigits).2⟩
  · rintro ⟨hstem, hdigits⟩
    rw [hstem, hdigits]

/-- Two paths of one stem are told apart by their digits. -/
example : idStem "G-luffy.cx/TXT-@".toList = idStem "G-luffy.cx/TXT-*".toList ∧
    logicalId "G-luffy.cx/TXT-@" ≠ logicalId "G-luffy.cx/TXT-*" := by
  decide +kernel

theorem isIdentifier_logicalId (path : String) : IsIdentifier (logicalId path).toList := by
  obtain ⟨⟨c, hc, hfirst⟩, hchars⟩ := (isStem_idStem path.toList).isIdentifier
  rw [logicalId_toList]
  constructor
  · exact ⟨c, List.mem_head?_append_of_mem_head? hc, hfirst⟩
  · refine List.forall_mem_append.mpr ⟨hchars, List.forall_mem_cons.mpr ⟨.inr (.inr (.inr rfl)), fun d hd => ?_⟩⟩
    exact inIdentifier_of_isHexDigit (isHexDigit_of_mem_idDigits hd)

theorem dot_notMem_logicalId (path : String) : '.' ∉ (logicalId path).toList :=
  fun h => dot_not_inIdentifier ((isIdentifier_logicalId path).chars '.' h)

/-! ### Parts between dots -/

/-- The parts of a text between its dots. -/
def dotParts (text : String) : List String := (text.toList.splitOn '.').map String.ofList

theorem dotParts_of_notMem {text : String} (h : '.' ∉ text.toList) : dotParts text = [text] := by
  rw [dotParts, List.splitOn_eq_singleton h, List.map_singleton, String.ofList_toList]

theorem dotParts_append {left : String} (h : '.' ∉ left.toList) (right : String) :
    dotParts (left ++ "." ++ right) = left :: dotParts right := by
  have hsplit : (left ++ "." ++ right).toList = left.toList ++ '.' :: right.toList := by
    simp [String.toList_append]
  rw [dotParts, hsplit, List.splitOn_append_cons_self, List.splitOn_eq_singleton h, List.singleton_append,
    List.map_cons, String.ofList_toList, dotParts]

theorem dotParts_inj {text other : String} : dotParts text = dotParts other ↔ text = other := by
  refine ⟨fun h => ?_, congrArg dotParts⟩
  have hpieces := List.map_injective_iff.mpr (fun _ _ => String.ofList_injective) h
  have hjoined (chars : List Char) : List.intercalate ['.'] (chars.splitOn '.') = chars := List.intercalate_splitOn '.'
  rw [← String.toList_inj, ← hjoined text.toList, hpieces, hjoined]

/-! ### References -/

namespace ResourceKind

theorem ofName?_name (kind : ResourceKind) : ofName? kind.name = some kind := by
  cases kind <;> decide

theorem name_inj {kind other : ResourceKind} : kind.name = other.name ↔ kind = other := by
  constructor
  · intro h
    have hfound := ofName?_name kind
    rw [h, ofName?_name] at hfound
    exact (Option.some.inj hfound).symm
  · exact congrArg name

theorem dot_notMem_name (kind : ResourceKind) : '.' ∉ kind.name.toList := by
  cases kind <;> decide

theorem name_ne_data (kind : ResourceKind) : kind.name ≠ "data" := by
  cases kind <;> decide

/-- What an address says of the kind: its name, after a word for those that are only looked up. -/
def labels (kind : ResourceKind) : List String := (if kind.isData then ["data"] else []) ++ [kind.name]

theorem head?_labels (kind : ResourceKind) (rest : List String) :
    (kind.labels ++ rest).head? = some "data" ↔ kind.isData = true := by
  cases hdata : kind.isData <;> simp [labels, hdata, name_ne_data]

/-- No kind goes by the word itself, so it is seen where the labels of a kind end. -/
theorem labels_append_inj {kind other : ResourceKind} {rest rest' : List String} :
    kind.labels ++ rest = other.labels ++ rest' ↔ kind = other ∧ rest = rest' := by
  constructor
  · intro h
    have hdata : kind.isData = other.isData := by
      rw [Bool.eq_iff_iff, ← head?_labels kind rest, h, head?_labels]
    rw [labels, labels, hdata, List.append_assoc, List.append_assoc, List.append_cancel_left_eq] at h
    obtain ⟨hname, hrest⟩ := List.cons.inj h
    exact ⟨name_inj.mp hname, hrest⟩
  · rintro ⟨rfl, rfl⟩
    rfl

end ResourceKind

namespace Resource

/-- The labels of the kind come first, then the identifier, and then the attribute. -/
theorem dotParts_expression (resource : Resource) (name : String) : dotParts (resource.reference name).expression =
    resource.kind.labels ++ resource.logicalId :: dotParts name := by
  have hid : '.' ∉ resource.logicalId.toList := dot_notMem_logicalId resource.path
  have hnamed : dotParts (resource.kind.name ++ "." ++ (resource.logicalId ++ "." ++ name)) =
      resource.kind.name :: resource.logicalId :: dotParts name := by
    rw [dotParts_append resource.kind.dot_notMem_name, dotParts_append hid]
  rw [AttrRef.expression, reference, address, ResourceKind.labels]
  split
  · have hdata : dotParts ("data" ++ "." ++ (resource.kind.name ++ "." ++ (resource.logicalId ++ "." ++ name))) =
        "data" :: resource.kind.name :: resource.logicalId :: dotParts name := by
      rw [dotParts_append (by decide), hnamed]
    simpa [String.append_assoc] using hdata
  · simpa [String.append_assoc] using hnamed

theorem expression_eq_iff {resource other : Resource} {name otherName : String} :
    (resource.reference name).expression = (other.reference otherName).expression ↔
      resource.kind = other.kind ∧ resource.logicalId = other.logicalId ∧ name = otherName := by
  rw [← dotParts_inj, dotParts_expression, dotParts_expression, ResourceKind.labels_append_inj, List.cons.injEq,
    dotParts_inj]

end Resource

theorem AttrRef.interpolate_inj {ref other : AttrRef} :
    ref.interpolate = other.interpolate ↔ ref.expression = other.expression := by
  rw [interpolate, interpolate, String.append_left_inj, String.append_right_inj]

/-- What identifiers are made of and tell, and what references to attributes tell. -/
theorem identifiers_unambiguous :
    (∀ path : String,
      (logicalId path).toList = idStem path.toList ++ '_' :: idDigits path ∧
      (∀ stem, IsStem path.toList stem ↔ stem = idStem path.toList) ∧
      (idDigits path).length = 8 ∧ (∀ d ∈ idDigits path, Digest.Sha256.IsHexDigit d) ∧
      IsIdentifier (logicalId path).toList) ∧
    (∀ path other : String, logicalId path = logicalId other ↔
      idStem path.toList = idStem other.toList ∧
        (Digest.Sha256.digest path.toUTF8.toList).take 4 = (Digest.Sha256.digest other.toUTF8.toList).take 4) ∧
    (∀ (resource : Resource) (name : String), '.' ∉ name.toList →
      dotParts (resource.reference name).expression =
        (if resource.kind.isData then ["data"] else []) ++ [resource.kind.name, resource.logicalId, name]) ∧
    (∀ (resource : Resource) (name : String),
      (dotParts (resource.reference name).expression).head? = some "data" ↔ resource.kind.isData = true) ∧
    ∀ (resource other : Resource) (name otherName : String),
      ((resource.reference name).expression = (other.reference otherName).expression ↔
        resource.kind = other.kind ∧ resource.logicalId = other.logicalId ∧ name = otherName) ∧
      ((resource.reference name).interpolate = (other.reference otherName).interpolate ↔
        resource.kind = other.kind ∧ resource.logicalId = other.logicalId ∧ name = otherName) := by
  refine ⟨fun path => ⟨logicalId_toList path, fun stem => isStem_iff, length_idDigits path,
      fun d => isHexDigit_of_mem_idDigits, isIdentifier_logicalId path⟩,
    fun path other => logicalId_eq_iff, fun resource name hname => ?_, fun resource name => ?_,
    fun resource other name otherName => ⟨Resource.expression_eq_iff, ?_⟩⟩
  · rw [Resource.dotParts_expression, dotParts_of_notMem hname, ResourceKind.labels, List.append_assoc]
    rfl
  · rw [Resource.dotParts_expression, ResourceKind.head?_labels]
  · rw [AttrRef.interpolate_inj, Resource.expression_eq_iff]

/-- The nameservers of a zone are an attribute of a resource that is only looked up. -/
theorem identifiers_unambiguous_nameservers :
    '.' ∉ "nameservers".toList ∧
    ∃ lookup : Resource, lookup.kind = .livednsLookup ∧ lookup.path = "G-luffy.cx/LiveDNSNS" ∧
      dotParts (lookup.reference "nameservers").expression =
        ["data", "gandi_livedns_domain_ns", "G-luffy_cx_LiveDNSNS_be26ed40", "nameservers"] := by
  let lookup : Resource := { kind := .livednsLookup, path := "G-luffy.cx/LiveDNSNS", provider := "gandi.vb" }
  have hid : lookup.logicalId = "G-luffy_cx_LiveDNSNS_be26ed40" := by decide +kernel
  have hname : '.' ∉ "nameservers".toList := by decide
  obtain ⟨-, -, hparts, -⟩ := identifiers_unambiguous
  refine ⟨hname, lookup, rfl, rfl, ?_⟩
  rw [hparts lookup "nameservers" hname, hid]
  rfl

end ZoneGraph
