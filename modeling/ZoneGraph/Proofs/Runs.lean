import ZoneGraph.Step
import Mathlib.Data.List.Forall2

/-! Runs of operations. An operation is accepted by a state when it is not refused
there. A sequence is accepted when each of its operations is accepted in turn, and
it is refused by the first one that is not. The same holds for one operation made on
every item of a list, and the two ways of running commute: making operations one
after the other on all items is making them on each item by itself. -/
namespace ZoneGraph.Step

variable {σ τ α β ι : Type}

/-- Whether the operation is not refused in a state. -/
def Accepts (step : Step σ α) (state : σ) : Prop := ∃ value next, step state = .ok value next

theorem after_of_ok {step : Step σ α} {state next : σ} {value : α} (h : step state = .ok value next) :
    after step state = next := by
  simp [after, h]

theorem after_of_error {step : Step σ α} {state next : σ} {fault : Fault}
    (h : step state = .error fault next) : after step state = next := by
  simp [after, h]

/-- Operations that do the same in a state leave the same behind. -/
theorem after_congr {first second : Step σ α} {state : σ} (h : first state = second state) :
    after first state = after second state := by
  rw [after, after, h]

theorem answer_of_ok {step : Step σ α} {state next : σ} {value : α} (h : step state = .ok value next) :
    answer step state = .ok value := by
  simp [answer, h]

theorem answer_of_error {step : Step σ α} {state next : σ} {fault : Fault}
    (h : step state = .error fault next) : answer step state = .error fault := by
  simp [answer, h]

theorem eq_error_of_answer {step : Step σ α} {state : σ} {fault : Fault}
    (h : answer step state = .error fault) : step state = .error fault (after step state) := by
  unfold answer at h
  unfold after
  cases hs : step state with
  | ok value next => simp [hs] at h
  | error found next => simpa [hs] using h

/-- An operation without an answer is accepted exactly when it finishes in the state
that it leaves behind. -/
theorem accepts_iff {step : Step σ Unit} {state : σ} :
    Accepts step state ↔ step state = .ok () (after step state) := by
  constructor
  · rintro ⟨value, next, h⟩
    rw [after_of_ok h, h]
  · intro h
    exact ⟨_, _, h⟩

theorem not_accepts_of_error {step : Step σ α} {state next : σ} {fault : Fault}
    (h : step state = .error fault next) : ¬ Accepts step state := by
  rintro ⟨value, other, hok⟩
  rw [h] at hok
  cases hok

theorem accepts_congr {first second : Step σ α} {state : σ} (h : first state = second state) :
    Accepts first state ↔ Accepts second state := by
  rw [Accepts, Accepts, h]

theorem accepts_of_answer {step : Step σ α} {state : σ} (h : (answer step state).toBool = true) :
    Accepts step state := by
  cases hs : step state with
  | ok value next => exact ⟨value, next, hs⟩
  | error fault next =>
    rw [answer_of_error hs] at h
    cases h

/-! ### One operation after another -/

theorem pure_eq_ok {state next : σ} {value other : α} :
    (pure value : Step σ α) state = .ok other next ↔ value = other ∧ state = next := by
  constructor
  · intro h
    cases h
    exact ⟨rfl, rfl⟩
  · rintro ⟨rfl, rfl⟩
    rfl

theorem bind_of_ok {first : Step σ α} {second : α → Step σ β} {state between : σ} {middle : α}
    (h : first state = .ok middle between) : (first >>= second) state = second middle between := by
  change EStateM.bind first second state = _
  rw [EStateM.bind, h]

theorem bind_of_error {first : Step σ α} {second : α → Step σ β} {state between : σ} {fault : Fault}
    (h : first state = .error fault between) : (first >>= second) state = .error fault between := by
  change EStateM.bind first second state = _
  rw [EStateM.bind, h]

theorem bind_eq_ok {first : Step σ α} {second : α → Step σ β} {state next : σ} {value : β} :
    (first >>= second) state = .ok value next ↔
      ∃ middle between, first state = .ok middle between ∧ second middle between = .ok value next := by
  cases h : first state with
  | ok middle between => simp [bind_of_ok h]
  | error fault between => simp [bind_of_error h]

theorem bind_eq_error {first : Step σ α} {second : α → Step σ β} {state next : σ} {fault : Fault} :
    (first >>= second) state = .error fault next ↔
      first state = .error fault next ∨
        ∃ middle between, first state = .ok middle between ∧ second middle between = .error fault next := by
  cases h : first state with
  | ok middle between => simp [bind_of_ok h]
  | error other between => simp [bind_of_error h]

theorem bind_of_accepts {first : Step σ Unit} {second : Unit → Step σ α} {state : σ}
    (h : Accepts first state) : (first >>= second) state = second () (after first state) :=
  bind_of_ok (accepts_iff.mp h)

theorem accepts_bind {first : Step σ Unit} {second : Unit → Step σ Unit} {state : σ} :
    Accepts (first >>= second) state ↔ Accepts first state ∧ Accepts (second ()) (after first state) := by
  constructor
  · rintro ⟨value, next, h⟩
    obtain ⟨middle, between, hf, hs⟩ := bind_eq_ok.mp h
    rw [after_of_ok hf]
    exact ⟨⟨_, _, hf⟩, ⟨_, _, hs⟩⟩
  · rintro ⟨hf, value, next, hs⟩
    exact ⟨value, next, bind_eq_ok.mpr ⟨(), _, accepts_iff.mp hf, hs⟩⟩

theorem after_bind {first : Step σ Unit} {second : Unit → Step σ Unit} {state : σ}
    (h : Accepts first state) : after (first >>= second) state = after (second ()) (after first state) := by
  unfold after
  rw [bind_of_accepts h]
  rfl

theorem after_bind_of_ok {first : Step σ α} {second : α → Step σ β} {state between : σ} {middle : α}
    (h : first state = .ok middle between) : after (first >>= second) state = after (second middle) between := by
  rw [after, after, bind_of_ok h]

/-! ### Results without a state -/

theorem except_bind_eq_ok {first : Except Fault α} {second : α → Except Fault β} {value : β} :
    (first >>= second) = .ok value ↔ ∃ middle, first = .ok middle ∧ second middle = .ok value := by
  cases first <;> simp [bind, Except.bind]

theorem exists_ok_of_toOption {result : Except Fault α} {view : α → β} {seen : β}
    (h : result.toOption.map view = some seen) : ∃ value, result = .ok value ∧ view value = seen := by
  cases result with
  | ok value => exact ⟨value, rfl, Option.some.inj h⟩
  | error fault => cases h

theorem mapM_ok {f : α → Except Fault β} {items : List α} {values : List β} (h : items.mapM f = .ok values) :
    List.Forall₂ (fun item value => f item = .ok value) items values := by
  induction items generalizing values with
  | nil =>
    cases h
    exact .nil
  | cons item rest ih =>
    rw [List.mapM_cons] at h
    obtain ⟨value, hvalue, h⟩ := except_bind_eq_ok.mp h
    obtain ⟨others, hothers, h⟩ := except_bind_eq_ok.mp h
    cases h
    exact .cons hvalue (ih hothers)

/-- What holds of every value that is paired with an item holds of every value of a pairing. -/
theorem forall_of_forall₂ {R : α → β → Prop} {P : β → Prop} (hR : ∀ item value, R item value → P value)
    {items : List α} {values : List β} (h : List.Forall₂ R items values) : ∀ value ∈ values, P value := by
  induction h with
  | nil => simp
  | cons hfirst _ ih => exact List.forall_mem_cons.mpr ⟨hR _ _ hfirst, ih⟩

theorem lift_eq_ok {result : Except Fault α} {state next : σ} {value : α} :
    lift result state = .ok value next ↔ result = .ok value ∧ state = next := by
  cases result with
  | ok found =>
    constructor
    · intro h
      cases h
      exact ⟨rfl, rfl⟩
    · rintro ⟨h, rfl⟩
      cases h
      rfl
  | error fault =>
    constructor
    · intro h
      cases h
    · rintro ⟨h, -⟩
      cases h

theorem lift_bind_eq_ok {result : Except Fault α} {second : α → Step σ β} {state next : σ} {value : β} :
    (lift result >>= second) state = .ok value next ↔
      ∃ middle, result = .ok middle ∧ second middle state = .ok value next := by
  rw [bind_eq_ok]
  constructor
  · rintro ⟨middle, between, hlift, h⟩
    obtain ⟨hresult, rfl⟩ := lift_eq_ok.mp hlift
    exact ⟨middle, hresult, h⟩
  · rintro ⟨middle, hresult, h⟩
    exact ⟨middle, state, lift_eq_ok.mpr ⟨hresult, rfl⟩, h⟩

theorem get_bind (second : σ → Step σ β) (state : σ) :
    ((get : Step σ σ) >>= second) state = second state state := rfl

/-- The state that an operation finishes in, or the fault it is refused with. -/
def final (step : Step σ α) (state : σ) : Except Fault σ :=
  match step state with
  | .ok _ next => .ok next
  | .error fault _ => .error fault

theorem final_eq_ok {step : Step σ α} {state next : σ} :
    final step state = .ok next ↔ ∃ value, step state = .ok value next := by
  unfold final
  cases step state <;> simp

theorem final_unit_eq_ok {step : Step σ Unit} {state next : σ} :
    final step state = .ok next ↔ step state = .ok () next := by
  rw [final_eq_ok]
  exact ⟨fun ⟨⟨⟩, h⟩ => h, fun h => ⟨(), h⟩⟩

theorem final_bind {first : Step σ Unit} {second : Unit → Step σ α} :
    final (first >>= second) = fun state => final first state >>= final (second ()) := by
  funext state
  unfold final
  cases h : first state with
  | ok value next =>
    rw [bind_of_ok h]
    rfl
  | error fault next =>
    rw [bind_of_error h]
    rfl

/-! ### Parts of a state -/

theorem within_of_ok {get : τ → σ} {put : σ → τ → τ} {step : Step σ α} {state : τ} {part : σ} {value : α}
    (h : step (get state) = .ok value part) : within get put step state = .ok value (put part state) := by
  rw [within, h]

theorem within_of_error {get : τ → σ} {put : σ → τ → τ} {step : Step σ α} {state : τ} {part : σ} {fault : Fault}
    (h : step (get state) = .error fault part) : within get put step state = .error fault (put part state) := by
  rw [within, h]

theorem within_eq_ok {get : τ → σ} {put : σ → τ → τ} {step : Step σ α} {state next : τ} {value : α} :
    within get put step state = .ok value next ↔
      ∃ part, step (get state) = .ok value part ∧ next = put part state := by
  cases h : step (get state) with
  | ok found part => simp [within_of_ok h, eq_comm]
  | error fault part => simp [within_of_error h]

theorem within_eq_error {get : τ → σ} {put : σ → τ → τ} {step : Step σ α} {state next : τ} {fault : Fault} :
    within get put step state = .error fault next ↔
      ∃ part, step (get state) = .error fault part ∧ next = put part state := by
  cases h : step (get state) with
  | ok value part => simp [within_of_ok h]
  | error found part => simp [within_of_error h, eq_comm]

/-! ### Sequences -/

variable {step : ι → Step σ Unit}

theorem each_nil : each step [] = pure () := rfl

theorem each_cons (item : ι) (rest : List ι) :
    each step (item :: rest) = (step item >>= fun _ => each step rest) := rfl

theorem accepts_each_cons {item : ι} {rest : List ι} {state : σ} :
    Accepts (each step (item :: rest)) state ↔
      Accepts (step item) state ∧ Accepts (each step rest) (after (step item) state) :=
  accepts_bind

theorem after_each_cons {item : ι} {rest : List ι} {state : σ} (h : Accepts (step item) state) :
    after (each step (item :: rest)) state = after (each step rest) (after (step item) state) :=
  after_bind h

theorem each_append (items more : List ι) :
    each step (items ++ more) = (each step items >>= fun _ => each step more) := by
  induction items with
  | nil => rfl
  | cons item rest ih =>
    funext state
    rw [List.cons_append, each_cons, each_cons, ih]
    cases h : step item state with
    | ok value next =>
      rw [bind_of_ok h]
      change _ = EStateM.bind _ _ state
      rw [EStateM.bind, bind_of_ok h]
      rfl
    | error fault next => rw [bind_of_error h, bind_of_error (bind_of_error h)]

theorem each_map {κ : Type} (f : κ → ι) (items : List κ) :
    each step (items.map f) = each (fun item => step (f item)) items := by
  induction items with
  | nil => rfl
  | cons item rest ih => rw [List.map_cons, each_cons, each_cons, ih]

theorem each_flatMap {κ : Type} (f : κ → List ι) (items : List κ) :
    each step (items.flatMap f) = each (fun item => each step (f item)) items := by
  induction items with
  | nil => rfl
  | cons item rest ih => rw [List.flatMap_cons, each_append, each_cons, ih]

theorem accepts_each_append {items more : List ι} {state : σ} :
    Accepts (each step (items ++ more)) state ↔
      Accepts (each step items) state ∧ Accepts (each step more) (after (each step items) state) := by
  rw [each_append]
  exact accepts_bind

/-- An operation of a run that is accepted was made, and the run went on from there. -/
theorem each_ok_of_mem {items : List ι} {item : ι} {state next : σ} (h : each step items state = .ok () next)
    (hitem : item ∈ items) :
    ∃ before after more, step item before = .ok () after ∧ each step more after = .ok () next := by
  obtain ⟨earlier, more, rfl⟩ := List.append_of_mem hitem
  rw [each_append] at h
  obtain ⟨⟨⟩, before, -, h⟩ := bind_eq_ok.mp h
  obtain ⟨⟨⟩, after, hstep, h⟩ := bind_eq_ok.mp h
  exact ⟨before, after, more, hstep, h⟩

theorem each_singleton (item : ι) : each step [item] = step item := by
  funext state
  rw [each_cons]
  cases h : step item state with
  | ok value next => exact bind_of_ok h
  | error fault next => exact bind_of_error h

/-- After a run that is accepted, one more operation does what it does by itself. -/
theorem each_concat {items : List ι} {item : ι} {state : σ} (h : Accepts (each step items) state) :
    each step (items ++ [item]) state = step item (after (each step items) state) := by
  rw [each_append, each_singleton, bind_of_accepts h]

theorem after_each_concat {items : List ι} {item : ι} {state : σ} (h : Accepts (each step items) state) :
    after (each step (items ++ [item])) state = after (step item) (after (each step items) state) := by
  unfold after
  rw [each_concat h]
  rfl

theorem accepts_each_concat {items : List ι} {item : ι} {state : σ} :
    Accepts (each step (items ++ [item])) state ↔
      Accepts (each step items) state ∧ Accepts (step item) (after (each step items) state) := by
  rw [accepts_each_append]
  constructor
  · rintro ⟨h, hi⟩
    exact ⟨h, (accepts_each_cons.mp hi).1⟩
  · rintro ⟨h, hi⟩
    exact ⟨h, accepts_each_cons.mpr ⟨hi, _, _, rfl⟩⟩

/-- A sequence is refused by its first operation that is. -/
theorem each_eq_error {items : List ι} {state next : σ} {fault : Fault} :
    each step items state = .error fault next ↔
      ∃ before item rest between, items = before ++ item :: rest ∧
        each step before state = .ok () between ∧ step item between = .error fault next := by
  induction items generalizing state with
  | nil =>
    constructor
    · intro h
      cases h
    · rintro ⟨before, item, rest, between, h, -⟩
      simp at h
  | cons first others ih =>
    rw [each_cons, bind_eq_error]
    constructor
    · rintro (h | ⟨_, middle, hf, h⟩)
      · exact ⟨[], first, others, state, rfl, rfl, h⟩
      · obtain ⟨before, item, rest, between, rfl, hb, hi⟩ := ih.mp h
        refine ⟨first :: before, item, rest, between, rfl, ?_, hi⟩
        rw [each_cons, bind_eq_ok]
        exact ⟨(), middle, hf, hb⟩
    · rintro ⟨before, item, rest, between, heq, hb, hi⟩
      cases before with
      | nil =>
        obtain ⟨rfl, rfl⟩ := List.cons.inj heq
        obtain ⟨-, rfl⟩ := pure_eq_ok.mp hb
        exact Or.inl hi
      | cons head before =>
        obtain ⟨rfl, rfl⟩ := List.cons.inj heq
        rw [each_cons, bind_eq_ok] at hb
        obtain ⟨_, middle, hf, hb⟩ := hb
        exact Or.inr ⟨(), middle, hf, ih.mpr ⟨before, item, rest, between, rfl, hb, hi⟩⟩

/-- Whether every accepted run leads to a state that is related to the one it starts in. -/
def Respects (R : σ → σ → Prop) (step : Step σ α) : Prop :=
  ∀ state value next, step state = .ok value next → R state next

theorem respects_each {R : σ → σ → Prop} (hrefl : ∀ state, R state state)
    (htrans : ∀ first second third, R first second → R second third → R first third)
    (hstep : ∀ item, Respects R (step item)) (items : List ι) : Respects R (each step items) := by
  induction items with
  | nil =>
    intro state value next h
    obtain ⟨-, rfl⟩ := pure_eq_ok.mp h
    exact hrefl state
  | cons item rest ih =>
    intro state value next h
    obtain ⟨middle, between, hitem, hrest⟩ := bind_eq_ok.mp h
    exact htrans _ _ _ (hstep item _ _ _ hitem) (ih _ _ _ hrest)

/-- What each operation keeps true, a run of them does. -/
theorem each_keeps {P : σ → Prop} (hstep : ∀ item, Respects (fun state next => P state → P next) (step item))
    (items : List ι) : Respects (fun state next => P state → P next) (each step items) :=
  respects_each (R := fun state next => P state → P next) (fun _ => id) (fun _ _ _ h h' => h' ∘ h) hstep items

/-! ### All items of a list -/

/-- One operation on every item, from left to right, up to the first refusal. -/
def onAll (step : Step σ Unit) : Step (List σ) Unit
  | [] => .ok () []
  | item :: rest =>
    match step item with
    | .error fault item => .error fault (item :: rest)
    | .ok _ item =>
      match onAll step rest with
      | .ok _ rest => .ok () (item :: rest)
      | .error fault rest => .error fault (item :: rest)

theorem onAll_cons (step : Step σ Unit) (item : σ) (rest : List σ) :
    onAll step (item :: rest) =
      match step item with
      | .error fault item => .error fault (item :: rest)
      | .ok _ item =>
        match onAll step rest with
        | .ok _ rest => .ok () (item :: rest)
        | .error fault rest => .error fault (item :: rest) := rfl

theorem onAll_cons_eq_ok {step : Step σ Unit} {item : σ} {rest next : List σ} :
    onAll step (item :: rest) = .ok () next ↔
      Accepts step item ∧ ∃ others, onAll step rest = .ok () others ∧ next = after step item :: others := by
  rw [onAll_cons]
  cases h : step item with
  | error fault state => simp [not_accepts_of_error h]
  | ok value state =>
    have ha : Accepts step item := ⟨_, _, h⟩
    cases onAll step rest <;> simp [ha, after_of_ok h, eq_comm]

theorem onAll_cons_eq_error {step : Step σ Unit} {item : σ} {rest next : List σ} {fault : Fault} :
    onAll step (item :: rest) = .error fault next ↔
      (∃ state, step item = .error fault state ∧ next = state :: rest) ∨
        (Accepts step item ∧
          ∃ others, onAll step rest = .error fault others ∧ next = after step item :: others) := by
  rw [onAll_cons]
  cases h : step item with
  | error found state => simp [not_accepts_of_error h, eq_comm]
  | ok value state =>
    have ha : Accepts step item := ⟨_, _, h⟩
    cases onAll step rest <;> simp [ha, after_of_ok h, eq_comm]

theorem onAll_eq_ok {step : Step σ Unit} {items next : List σ} :
    onAll step items = .ok () next ↔ (∀ item ∈ items, Accepts step item) ∧ next = items.map (after step) := by
  induction items generalizing next with
  | nil => simp [onAll, eq_comm]
  | cons item rest ih =>
    rw [onAll_cons_eq_ok, List.forall_mem_cons, List.map_cons]
    constructor
    · rintro ⟨ha, others, hr, rfl⟩
      obtain ⟨hall, rfl⟩ := ih.mp hr
      exact ⟨⟨ha, hall⟩, rfl⟩
    · rintro ⟨⟨ha, hall⟩, rfl⟩
      exact ⟨ha, _, ih.mpr ⟨hall, rfl⟩, rfl⟩

theorem forall₂_eq_ok_iff {step : Step σ Unit} {items next : List σ} :
    List.Forall₂ (fun item item' => step item = .ok () item') items next ↔
      (∀ item ∈ items, Accepts step item) ∧ next = items.map (after step) := by
  constructor
  · intro h
    induction h with
    | nil => simp
    | cons hfirst _ ih =>
      obtain ⟨hall, rfl⟩ := ih
      exact ⟨List.forall_mem_cons.mpr ⟨⟨_, _, hfirst⟩, hall⟩, by rw [List.map_cons, after_of_ok hfirst]⟩
  · rintro ⟨hall, rfl⟩
    rw [List.forall₂_map_right_iff, List.forall₂_same]
    exact fun item hi => accepts_iff.mp (hall item hi)

/-- A refusal comes from the first item that refuses: the operation was made on the
items before it and on none after it. -/
theorem onAll_eq_error {step : Step σ Unit} {items next : List σ} {fault : Fault} :
    onAll step items = .error fault next ↔
      ∃ left item right state, items = left ++ item :: right ∧ (∀ other ∈ left, Accepts step other) ∧
        step item = .error fault state ∧ next = left.map (after step) ++ state :: right := by
  induction items generalizing next with
  | nil => simp [onAll]
  | cons first others ih =>
    rw [onAll_cons_eq_error]
    constructor
    · rintro (⟨state, h, rfl⟩ | ⟨ha, rest, hr, rfl⟩)
      · exact ⟨[], first, others, state, rfl, by simp, h, rfl⟩
      · obtain ⟨left, item, right, state, rfl, hleft, hi, rfl⟩ := ih.mp hr
        exact ⟨first :: left, item, right, state, rfl, List.forall_mem_cons.mpr ⟨ha, hleft⟩, hi, rfl⟩
    · rintro ⟨left, item, right, state, heq, hleft, hi, rfl⟩
      cases left with
      | nil =>
        obtain ⟨rfl, rfl⟩ := List.cons.inj heq
        exact Or.inl ⟨state, hi, rfl⟩
      | cons head left =>
        obtain ⟨rfl, rfl⟩ := List.cons.inj heq
        obtain ⟨ha, hleft⟩ := List.forall_mem_cons.mp hleft
        exact Or.inr ⟨ha, _, ih.mpr ⟨left, item, right, state, rfl, hleft, hi, rfl⟩, rfl⟩

/-- Making operations one after the other on all items is accepted when each item
accepts them all by itself, and it leaves each item as its own run does. -/
theorem each_onAll_eq_ok {operations : List ι} {items next : List σ} :
    each (fun operation => onAll (step operation)) operations items = .ok () next ↔
      (∀ item ∈ items, Accepts (each step operations) item) ∧
        next = items.map (after (each step operations)) := by
  induction operations generalizing items with
  | nil =>
    have hid : after (each step []) = id := rfl
    have hall : ∀ item, Accepts (each step []) item := fun item => ⟨(), item, rfl⟩
    rw [each_nil, pure_eq_ok, hid, List.map_id]
    simp [hall, eq_comm]
  | cons operation rest ih =>
    rw [each_cons, bind_eq_ok]
    simp only [accepts_each_cons]
    constructor
    · rintro ⟨⟨⟩, between, ho, hr⟩
      obtain ⟨hall, rfl⟩ := onAll_eq_ok.mp ho
      obtain ⟨hrest, rfl⟩ := ih.mp hr
      refine ⟨fun item hi => ⟨hall item hi, hrest _ (List.mem_map_of_mem hi)⟩, ?_⟩
      rw [List.map_map]
      exact List.map_congr_left fun item hi => (after_each_cons (hall item hi)).symm
    · rintro ⟨hall, rfl⟩
      refine ⟨(), _, onAll_eq_ok.mpr ⟨fun item hi => (hall item hi).1, rfl⟩, ih.mpr ⟨?_, ?_⟩⟩
      · rw [List.forall_mem_map]
        exact fun item hi => (hall item hi).2
      · rw [List.map_map]
        exact List.map_congr_left fun item hi => after_each_cons (hall item hi).1

/-- Where making operations one after the other on all items breaks off: at the first
operation that any item refuses, and there at the first item that refuses it. -/
structure BreakOff (step : ι → Step σ Unit) (operations : List ι) (items : List σ) (fault : Fault) where
  before : List ι
  operation : ι
  rest : List ι
  left : List σ
  item : σ
  right : List σ
  operations_eq : operations = before ++ operation :: rest
  items_eq : items = left ++ item :: right
  before_accepted : ∀ other ∈ items, Accepts (each step before) other
  left_accepts : ∀ other ∈ left, Accepts (each step (before ++ [operation])) other
  refused : answer (each step (before ++ [operation])) item = .error fault

/-- The items when the run has broken off. Those up to the refusing one have run the
operation, and those after it have not. -/
def BreakOff.next {operations : List ι} {items : List σ} {fault : Fault}
    (b : BreakOff step operations items fault) : List σ :=
  b.left.map (after (each step (b.before ++ [b.operation]))) ++
    after (each step (b.before ++ [b.operation])) b.item :: b.right.map (after (each step b.before))

theorem BreakOff.next_ne_nil {operations : List ι} {items : List σ} {fault : Fault}
    (b : BreakOff step operations items fault) : b.next ≠ [] := by
  simp [BreakOff.next]

theorem each_onAll_eq_error {operations : List ι} {items next : List σ} {fault : Fault} :
    each (fun operation => onAll (step operation)) operations items = .error fault next ↔
      ∃ b : BreakOff step operations items fault, next = b.next := by
  rw [each_eq_error]
  constructor
  · rintro ⟨before, operation, rest, between, rfl, hb, hr⟩
    obtain ⟨hall, rfl⟩ := each_onAll_eq_ok.mp hb
    obtain ⟨left', item', right', state, hsplit, hleft, hi, rfl⟩ := onAll_eq_error.mp hr
    obtain ⟨left, others, rfl, rfl, hothers⟩ := List.map_eq_append_iff.mp hsplit
    obtain ⟨item, right, rfl, rfl, rfl⟩ := List.map_eq_cons_iff.mp hothers
    have hlefts : ∀ other ∈ left, Accepts (each step before) other := fun other ho => hall other (by simp [ho])
    have hrun := (each_concat (hall item (by simp))).trans hi
    refine ⟨⟨before, operation, rest, left, item, right, rfl, rfl, hall, ?_, answer_of_error hrun⟩, ?_⟩
    · intro other ho
      exact accepts_each_concat.mpr ⟨hlefts other ho, hleft _ (List.mem_map_of_mem ho)⟩
    · rw [BreakOff.next, after_of_error hrun, List.map_map]
      congr 1
      exact List.map_congr_left fun other ho => (after_each_concat (hlefts other ho)).symm
  · rintro ⟨⟨before, operation, rest, left, item, right, rfl, rfl, hall, hleft, hrefused⟩, rfl⟩
    have hlefts : ∀ other ∈ left, Accepts (each step before) other := fun other ho => hall other (by simp [ho])
    have hrun := (each_concat (hall item (by simp))).symm.trans (eq_error_of_answer hrefused)
    refine ⟨before, operation, rest, _, rfl, each_onAll_eq_ok.mpr ⟨hall, rfl⟩,
      onAll_eq_error.mpr ⟨left.map (after (each step before)), after (each step before) item,
        right.map (after (each step before)), _, by simp, ?_, hrun, ?_⟩⟩
    · rw [List.forall_mem_map]
      exact fun other ho => (accepts_each_concat.mp (hleft other ho)).2
    · rw [BreakOff.next, List.map_map]
      congr 1
      exact List.map_congr_left fun other ho => after_each_concat (hlefts other ho)

end ZoneGraph.Step
