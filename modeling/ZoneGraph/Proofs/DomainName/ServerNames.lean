import ZoneGraph.Call
import ZoneGraph.Proofs.DomainName.Reading

/-! Names of servers below a zone. A server lies below a zone when its name reads as some
labels of its own and then those of the zone. Its text can be cut at the dot between
them, and its records belong under what is left of the dot. Where to cut is told from the
numbers of labels, in which a wildcard in front does not count, while the text is cut at
its dots, of which an escaped one ends no label. The two agree when the text left of the
zone has as many dots as it ends labels, and a wildcard stands in front of both names or
of neither. -/
namespace ZoneGraph.DomainName

variable {zone name : DomainName} {own rest labels : List (List Char)} {left right text : List Char} {host : String}

/-! ### Cutting at dots -/

theorem length_splitOn (text : List Char) : (text.splitOn '.').length = text.count '.' + 1 := by
  induction text with
  | nil => rfl
  | cons c text ih =>
    rw [List.splitOn_cons_eq_if_modifyHead]
    by_cases hdot : c = '.'
    · subst hdot
      simp [ih]
    · simp [hdot, ih]

theorem dot_notMem_splitOn {piece : List Char} (h : piece ∈ text.splitOn '.') : '.' ∉ piece := by
  induction text generalizing piece with
  | nil =>
    obtain rfl : piece = [] := by simpa using h
    exact List.not_mem_nil
  | cons c text ih =>
    rw [List.splitOn_cons_eq_if_modifyHead] at h
    split_ifs at h with hdot
    · rcases List.mem_cons.mp h with rfl | h
      · exact List.not_mem_nil
      · exact ih h
    · cases hpieces : text.splitOn '.' with
      | nil => exact absurd hpieces (List.splitOn_ne_nil _ _)
      | cons first pieces =>
        rw [hpieces] at h ih
        have hc : '.' ≠ c := fun heq => hdot (by rw [heq, BEq.rfl])
        rcases List.mem_cons.mp h with rfl | h
        · exact List.not_mem_cons_of_ne_of_not_mem hc (ih List.mem_cons_self)
        · exact ih (List.mem_cons_of_mem _ h)

/-- The first pieces of a text are what is left of one of its dots when they are as many
as there are pieces in that. -/
theorem joinDots_take_splitOn {depth : Nat} (hdepth : depth ≠ 0) :
    joinDots (((left ++ '.' :: right).splitOn '.').take depth) = left ↔ depth = left.count '.' + 1 := by
  rw [List.splitOn_append_cons_self, ← length_splitOn]
  constructor
  · intro h
    have hdots : ∀ piece ∈ (left.splitOn '.' ++ right.splitOn '.').take depth, '.' ∉ piece := by
      intro piece hpiece
      rcases List.mem_append.mp (List.mem_of_mem_take hpiece) with hmem | hmem
      · exact dot_notMem_splitOn hmem
      · exact dot_notMem_splitOn hmem
    have hsome : (left.splitOn '.' ++ right.splitOn '.').take depth ≠ [] := by
      rw [Ne, List.take_eq_nil_iff, List.append_eq_nil_iff]
      exact not_or.mpr ⟨hdepth, fun hnil => List.splitOn_ne_nil '.' left hnil.1⟩
    have hpieces := congrArg (List.splitOn '.') h
    rw [joinDots, List.splitOn_intercalate '.' hdots hsome] at hpieces
    have hlength := congrArg List.length hpieces
    have hright := List.length_pos_iff.mpr (List.splitOn_ne_nil '.' right)
    rw [List.length_take, List.length_append] at hlength
    omega
  · rintro rfl
    rw [List.take_left, joinDots, List.intercalate_splitOn]

/-! ### Counting labels -/

/-- The number of wildcards in front: one or none. -/
def wildcards (labels : List (List Char)) : Nat := if labels.head? = some ['*'] then 1 else 0

theorem numLabels_add_wildcards (name : DomainName) : name.numLabels + wildcards name.labels = name.labels.length := by
  unfold numLabels wildcards
  split
  · simp_all
  · rename_i hother
    cases hlabels : name.labels with
    | nil => rfl
    | cons first rest =>
      have hfirst : first ≠ ['*'] := by
        rintro rfl
        exact hother rest hlabels
      simp [hfirst]

theorem toLower_eq_star {c : Char} : c.toLower = '*' ↔ c = '*' := by
  constructor
  · intro h
    unfold Char.toLower at h
    split_ifs at h with hupper
    · -- A letter is still a letter in lower case.
      obtain ⟨hlow, hhigh⟩ := hupper
      simp only [ge_iff_le, UInt32.le_iff_toNat_le] at hlow hhigh
      have hval := congrArg UInt32.toNat (congrArg Char.val h)
      simp at hval hlow hhigh
      omega
    · exact h
  · rintro rfl
    rfl

theorem wildcards_map_toLower (labels : List (List Char)) :
    wildcards (labels.map (List.map Char.toLower)) = wildcards labels := by
  have hstar : ∀ label : List Char, label.map Char.toLower = ['*'] ↔ label = ['*'] := by
    intro label
    cases label with
    | nil => simp
    | cons c rest => simp [toLower_eq_star]
  cases labels with
  | nil => rfl
  | cons first rest => simp [wildcards, hstar]

/-! ### Hosts below a zone -/

/-- Whether a host lies below a zone: its name reads as some labels of its own and then
those of the zone, up to the case of ASCII letters. -/
structure LiesBelow (zone : DomainName) (own rest : List (List Char)) (host : String) : Prop where
  parse : parse (trimDots host.toList) = .ok ⟨own ++ rest⟩
  own_ne_nil : own ≠ []
  rest_eq : rest.map (List.map Char.toLower) = zone.lowerLabels

theorem trimDots_ne_dot (text : List Char) : trimDots text ≠ ['.'] := by
  intro h
  rw [trimDots, List.reverse_eq_iff] at h
  have hhead := List.head?_dropWhile_not (fun c => decide (c = '.')) text.reverse
  rw [h] at hhead
  simp at hhead

theorem LiesBelow.counts (h : zone.LiesBelow own rest host) :
    rest.length = zone.labels.length ∧ wildcards rest = wildcards zone.labels := by
  constructor
  · have hlength := congrArg List.length h.rest_eq
    simpa [lowerLabels] using hlength
  · rw [← wildcards_map_toLower rest, h.rest_eq, lowerLabels, wildcards_map_toLower]

theorem LiesBelow.isZoneOf (h : zone.LiesBelow own rest host) : zone.isZoneOf ⟨own ++ rest⟩ = true := by
  rw [DomainName.isZoneOf, List.isSuffixOf_iff_suffix, ← h.rest_eq, lowerLabels, List.map_append]
  exact List.suffix_append _ _

theorem relativeName?_of_parse (h : parse (trimDots host.toList) = .ok name) :
    zone.relativeName? host =
      if zone.isZoneOf name && zone.numLabels < name.numLabels then
        some (String.ofList (joinDots
          (((trimDots host.toList).splitOn '.').take (name.numLabels - zone.numLabels))))
      else none := by
  unfold relativeName?
  simp only [h]

theorem relativeName?_eq_none (h : ∀ own rest, ¬ zone.LiesBelow own rest host) : zone.relativeName? host = none := by
  cases hparse : parse (trimDots host.toList) with
  | error fault =>
    unfold relativeName?
    simp only [hparse]
  | ok name =>
    rw [relativeName?_of_parse hparse, if_neg]
    rw [Bool.and_eq_true, decide_eq_true_eq]
    rintro ⟨hzone, hmore⟩
    obtain ⟨before, hbefore⟩ := List.isSuffixOf_iff_suffix.mp hzone
    obtain ⟨own, rest, hlabels, -, hrest⟩ := List.map_eq_append_iff.mp hbefore.symm
    have hown : own = [] := by
      by_contra hown
      exact h own rest ⟨by rw [hparse, ← hlabels], hown, hrest⟩
    -- A name with the zone's labels alone has as many as the zone.
    have hsame : name.lowerLabels = zone.lowerLabels := by rw [lowerLabels, hlabels, hown, List.nil_append, hrest]
    have hwildcards : wildcards name.labels = wildcards zone.labels := by
      rw [← wildcards_map_toLower name.labels, ← wildcards_map_toLower zone.labels]
      exact congrArg wildcards hsame
    have hlength : name.labels.length = zone.labels.length := by
      simpa [lowerLabels] using congrArg List.length hsame
    have hname := numLabels_add_wildcards name
    have hzone := numLabels_add_wildcards zone
    omega

/-- Whether the dots left of a zone and the wildcards in front of the host and of the zone
come out even with the labels that the host has of its own. -/
def ComesOutEven (zone : DomainName) (own rest : List (List Char)) (left : List Char) : Prop :=
  left.count '.' + 1 + wildcards (own ++ rest) = own.length + wildcards zone.labels

/-- The name of a host below a zone is what its text has left of the zone exactly when dots
and wildcards come out even. -/
theorem relativeName?_eq_left_iff (h : zone.LiesBelow own rest host)
    (hsplit : trimDots host.toList = left ++ '.' :: right) :
    zone.relativeName? host = some (String.ofList left) ↔ zone.ComesOutEven own rest left := by
  obtain ⟨hlength, hwildcards⟩ := h.counts
  have hname : (⟨own ++ rest⟩ : DomainName).numLabels + wildcards (own ++ rest) = own.length + rest.length := by
    rw [← List.length_append]
    exact numLabels_add_wildcards ⟨own ++ rest⟩
  have hzone := numLabels_add_wildcards zone
  rw [relativeName?_of_parse h.parse, h.isZoneOf, Bool.true_and, ComesOutEven]
  split_ifs with hmore
  · rw [decide_eq_true_eq] at hmore
    have hdepth : (⟨own ++ rest⟩ : DomainName).numLabels - zone.numLabels ≠ 0 := by omega
    rw [Option.some_inj, String.ofList_inj, hsplit, joinDots_take_splitOn hdepth]
    omega
  · rw [decide_eq_true_eq] at hmore
    refine iff_of_false nofun ?_
    omega

/-- The text of a host below a zone can be cut at the dot before the zone. -/
theorem LiesBelow.exists_split (h : zone.LiesBelow own rest host) (hzone : zone.labels ≠ []) :
    ∃ left right, trimDots host.toList = left ++ '.' :: right ∧ DomainName.parse left = .ok ⟨own⟩ ∧
      DomainName.parse right = .ok ⟨rest⟩ ∧ ('\\' ∉ left → left.count '.' + 1 = own.length) := by
  have hrest : rest ≠ [] := by
    rintro rfl
    exact hzone (List.length_eq_zero_iff.mp h.counts.1.symm)
  obtain ⟨left, right, hsplit, hleft, hwith, hright⟩ :=
    readFrom_split h.own_ne_nil hrest ((parse_eq_ok (trimDots_ne_dot _)).mp h.parse)
  have hright : readFrom (own ++ []) [] .label right = .ok (own ++ rest) := by simpa using hright
  refine ⟨left, right, hsplit, parse_of_readFrom hleft, parse_of_readFrom (readFrom_of_append hright), ?_⟩
  · intro hplain
    simpa using (length_of_readFrom_plain hplain hwith).symm

theorem labels_ne_nil_of_parseZone {text : String} (h : parseZone text = .ok zone) : zone.labels ≠ [] := by
  intro hnil
  have hnone : zone.numLabels = 0 := by
    rw [numLabels, hnil]
    rfl
  unfold parseZone at h
  split_ifs at h
  cases hparse : parse text.toList with
  | error fault => simp [hparse] at h
  | ok name =>
    simp only [hparse] at h
    split_ifs at h
    obtain rfl := Except.ok.inj h
    omega

/-! ### Records under server names -/

def serverRecords (zone : DomainName) (options : RecordOptions) (server : Server) : List Record :=
  match zone.relativeName? server.name with
  | some name => Bundle.addresses name [server] options
  | none => []

/-- A server whose name lies below the zone has its addresses under what its name has left
of the zone when dots and wildcards come out even, which dots do without escapes. Else it
has none, or they lie under another name. Every other server has none. -/
theorem serverNames_plan {origin : Origin} (hzone : parseZone origin.name = .ok zone) (servers : List Server)
    (options : RecordOptions) (answering : Answering) :
    (Call.serverNames servers options).plan answering origin = .ok (servers.flatMap (zone.serverRecords options)) ∧
    ∀ server, ((∀ own rest, ¬ zone.LiesBelow own rest server.name) → zone.serverRecords options server = []) ∧
      ∀ own rest, zone.LiesBelow own rest server.name →
        ∃ left right, trimDots server.name.toList = left ++ '.' :: right ∧
          DomainName.parse left = .ok ⟨own⟩ ∧ DomainName.parse right = .ok ⟨rest⟩ ∧
          ('\\' ∉ left → left.count '.' + 1 = own.length) ∧
          (zone.ComesOutEven own rest left →
            zone.serverRecords options server = Bundle.addresses (String.ofList left) [server] options) ∧
          (¬ zone.ComesOutEven own rest left → zone.serverRecords options server = [] ∨
            ∃ name ≠ String.ofList left,
              zone.serverRecords options server = Bundle.addresses name [server] options) := by
  constructor
  · rw [Call.plan, hzone]
    rfl
  intro server
  constructor
  · intro hnone
    rw [serverRecords, relativeName?_eq_none hnone]
  · intro own rest hbelow
    obtain ⟨left, right, hsplit, hleft, hright, hplain⟩ := hbelow.exists_split (labels_ne_nil_of_parseZone hzone)
    have heven := relativeName?_eq_left_iff hbelow hsplit
    refine ⟨left, right, hsplit, hleft, hright, hplain, ?_, ?_⟩
    · intro h
      rw [serverRecords, heven.mpr h]
    · intro h
      unfold serverRecords
      cases hname : zone.relativeName? server.name with
      | none => exact Or.inl rfl
      | some name =>
        refine Or.inr ⟨name, ?_, rfl⟩
        rintro rfl
        exact h (heven.mp hname)

def sampleServer (name : String) : Server := { name, ipv4 := some "192.0.2.3" }

/-- The labels of a zone in other letters, and a dot at the end. -/
theorem serverNames_plan_web03 :
    ∃ left, parse left = .ok ⟨["Web03".toList]⟩ ∧
      (Call.serverNames [sampleServer "Web03.LUFFY.cx."] {}).plan .alike ⟨"luffy.cx", { acmeRoot := "luffy.cx" }⟩ =
        .ok (Bundle.addresses (String.ofList left) [sampleServer "Web03.LUFFY.cx."] {}) := by
  have hzone : parseZone (⟨"luffy.cx", { acmeRoot := "luffy.cx" }⟩ : Origin).name =
      .ok ⟨["luffy".toList, "cx".toList]⟩ := by decide +kernel
  obtain ⟨hplan, hserver⟩ := serverNames_plan hzone
    [sampleServer "Web03.LUFFY.cx."] {} .alike
  have hbelow : LiesBelow ⟨["luffy".toList, "cx".toList]⟩ ["Web03".toList] ["LUFFY".toList, "cx".toList]
      (sampleServer "Web03.LUFFY.cx.").name := ⟨by decide +kernel, by decide, by decide⟩
  obtain ⟨left, right, hsplit, hleft, -, hplain, heven, -⟩ := (hserver _).2 _ _ hbelow
  have hescapes : '\\' ∉ left := by
    intro hmem
    have hhost : '\\' ∈ trimDots "Web03.LUFFY.cx.".toList := hsplit ▸ List.mem_append_left _ hmem
    exact absurd hhost (by decide)
  refine ⟨left, hleft, ?_⟩
  rw [hplan, List.flatMap_singleton, heven]
  exact congrArg (· + 0) (hplain hescapes)

/-- Left of the zone stand two labels, and the addresses lie under the first of them alone. -/
theorem serverNames_wildcard :
    LiesBelow ⟨["luffy".toList, "cx".toList]⟩ ["*".toList, "a".toList] ["luffy".toList, "cx".toList] "*.a.luffy.cx" ∧
      parseZone "luffy.cx" = .ok ⟨["luffy".toList, "cx".toList]⟩ ∧
      (Call.serverNames [sampleServer "*.a.luffy.cx"] {}).plan .alike ⟨"luffy.cx", { acmeRoot := "luffy.cx" }⟩ =
        .ok [⟨"*", .a, .list ["192.0.2.3"], {}⟩] ∧
      parse ['*'] = .ok ⟨["*".toList]⟩ := by
  refine ⟨⟨?_, ?_, ?_⟩, ?_, ?_, ?_⟩
  · decide +kernel
  · decide
  · decide
  · decide +kernel
  · decide +kernel
  · decide +kernel

end ZoneGraph.DomainName
