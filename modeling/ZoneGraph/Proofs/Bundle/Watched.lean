import ZoneGraph.Draft
import ZoneGraph.Proofs.Runs

/-! Plain hosts and what is presented to them. A plain host takes records one by one, and
it may refuse any record in any state, as long as its name and its settings stay the same.
A watched host keeps every record that it was presented, the refused ones as well, and is
otherwise the host itself. A list of records is presented to it up to the first one that
is refused. -/
namespace ZoneGraph

/-! ### Plain hosts -/

/-- A host that answers alike for everybody and whose name and settings are not changed by
the records that it is given, accepted or not. -/
class PlainHost (ζ : Type) [RecordHost ζ] : Prop where
  answering_eq : ∀ host : ζ, RecordHost.answering host = .alike
  origin_after : ∀ (record : Record) (host : ζ),
    RecordHost.origin (Step.after (RecordHost.declare record) host) = RecordHost.origin host

instance : PlainHost Draft where
  answering_eq _ := rfl
  origin_after record draft := by
    change (Step.after (Draft.declare record) draft).origin = draft.origin
    unfold Step.after Draft.declare
    split <;> rename_i h <;> split at h <;> cases h <;> rfl

/-- A host and the records that were presented to it, with the refused ones. -/
structure Watched (ζ : Type) where
  host : ζ
  presented : List Record := []

namespace Watched

variable {ζ : Type} [RecordHost ζ]

/-- Presents a record to the host, and keeps it whether it is accepted or not. -/
def declare (record : Record) : Step (Watched ζ) Unit := fun watched =>
  match RecordHost.declare record watched.host with
  | .ok _ host => .ok () ⟨host, watched.presented ++ [record]⟩
  | .error fault host => .error fault ⟨host, watched.presented ++ [record]⟩

instance : RecordHost (Watched ζ) where
  origin watched := RecordHost.origin watched.host
  answering watched := RecordHost.answering watched.host
  declare := declare

theorem declare_of_ok {record : Record} {watched : Watched ζ} {host : ζ}
    (h : RecordHost.declare record watched.host = .ok () host) :
    RecordHost.declare record watched = .ok () ⟨host, watched.presented ++ [record]⟩ := by
  change declare record watched = _
  rw [declare, h]

theorem declare_of_error {record : Record} {watched : Watched ζ} {host : ζ} {fault : Fault}
    (h : RecordHost.declare record watched.host = .error fault host) :
    RecordHost.declare record watched = .error fault ⟨host, watched.presented ++ [record]⟩ := by
  change declare record watched = _
  rw [declare, h]

instance [PlainHost ζ] : PlainHost (Watched ζ) where
  answering_eq watched := PlainHost.answering_eq watched.host
  origin_after record watched := by
    have horigin := PlainHost.origin_after record watched.host
    change RecordHost.origin (Step.after (RecordHost.declare record) watched).host = _
    cases h : RecordHost.declare record watched.host with
    | ok value host =>
      rw [Step.after_of_ok h] at horigin
      rw [Step.after_of_ok (declare_of_ok h), horigin]
      rfl
    | error fault host =>
      rw [Step.after_of_error h] at horigin
      rw [Step.after_of_error (declare_of_error h), horigin]
      rfl

/-- What happened to the host itself. -/
def unwatched : EStateM.Result Fault (Watched ζ) Unit → EStateM.Result Fault ζ Unit
  | .ok value watched => .ok value watched.host
  | .error fault watched => .error fault watched.host

end Watched

/-- Whether a list of records was presented up to the first one refused: all of them when
none is, and else the accepted ones before it and it itself. -/
inductive CutAtRefusal {ζ : Type} [RecordHost ζ] (records : List Record) (start : Watched ζ) :
    EStateM.Result Fault (Watched ζ) Unit → Prop where
  | accepted (next : Watched ζ) (hrun : Step.each RecordHost.declare records start.host = .ok () next.host)
      (hpresented : next.presented = start.presented ++ records) : CutAtRefusal records start (.ok () next)
  | refused (before : List Record) (record : Record) (rest : List Record) (between : ζ) (fault : Fault)
      (next : Watched ζ) (hrecords : records = before ++ record :: rest)
      (hrun : Step.each RecordHost.declare before start.host = .ok () between)
      (hrefused : RecordHost.declare record between = .error fault next.host)
      (hpresented : next.presented = start.presented ++ before ++ [record]) :
      CutAtRefusal records start (.error fault next)

section Watching

variable {ζ : Type} [RecordHost ζ]

theorem cutAtRefusal_each (records : List Record) (watched : Watched ζ) :
    CutAtRefusal records watched (Step.each RecordHost.declare records watched) := by
  induction records generalizing watched with
  | nil => exact .accepted watched rfl (List.append_nil _).symm
  | cons record rest ih =>
    rw [Step.each_cons]
    cases h : RecordHost.declare record watched.host with
    | error fault host =>
      rw [Step.bind_of_error (Watched.declare_of_error h)]
      exact .refused [] record rest watched.host fault _ rfl rfl h (by simp)
    | ok value host =>
      rw [Step.bind_of_ok (Watched.declare_of_ok h)]
      have hrest := ih ⟨host, watched.presented ++ [record]⟩
      generalize Step.each RecordHost.declare rest (⟨host, watched.presented ++ [record]⟩ : Watched ζ) = result at hrest
      cases hrest with
      | accepted next hrun hpresented =>
        refine .accepted next ?_ (by simpa using hpresented)
        rw [Step.each_cons, Step.bind_of_ok h, hrun]
      | refused before other more between fault next hrecords hrun hrefused hpresented =>
        refine .refused (record :: before) other more between fault next ?_ ?_ hrefused (by simpa using hpresented)
        · rw [hrecords, List.cons_append]
        · rw [Step.each_cons, Step.bind_of_ok h, hrun]

theorem unwatched_each (records : List Record) (watched : Watched ζ) :
    Watched.unwatched (Step.each RecordHost.declare records watched) =
      Step.each RecordHost.declare records watched.host := by
  induction records generalizing watched with
  | nil => rfl
  | cons record rest ih =>
    rw [Step.each_cons, Step.each_cons]
    cases h : RecordHost.declare record watched.host with
    | error fault host => rw [Step.bind_of_error (Watched.declare_of_error h), Step.bind_of_error h]; rfl
    | ok value host => rw [Step.bind_of_ok (Watched.declare_of_ok h), Step.bind_of_ok h, ih]

end Watching

end ZoneGraph
