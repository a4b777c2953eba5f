import Authenticode.Proofs.Steps
import Authenticode.Session.Workflows

/-!
# Sets of actions

Each action has a bit of its own, so a set that was put together from actions has those
actions and no other, in whatever order and however often they were put in. A workflow is
selected by one of the sets in a table, and by nothing but that whole set.
-/
namespace Authenticode

theorem Action.bit_and_bit_ne_zero_iff (a b : Action) : a.bit &&& b.bit ≠ 0 ↔ a = b := by
  cases a <;> cases b <;> decide

namespace ActionSet

variable {actions : List Action} {a : Action}

theorem contains_eq_true_iff {s : ActionSet} : s.contains a = true ↔ s.bits &&& a.bit ≠ 0 := by
  simp [contains]

theorem contains_insert_iff {s : ActionSet} {b : Action} :
    (s.insert b).contains a = true ↔ s.contains a = true ∨ a = b := by
  have hdistribute : (s.bits ||| b.bit) &&& a.bit = (s.bits &&& a.bit) ||| (b.bit &&& a.bit) :=
    UInt32.toBitVec_inj.1 BitVec.and_or_distrib_right
  rw [contains_eq_true_iff, contains_eq_true_iff, insert, hdistribute, Ne, UInt32.or_eq_zero_iff,
    not_and_or, ← Ne, ← Ne, Action.bit_and_bit_ne_zero_iff, eq_comm (a := b)]

theorem contains_foldl_insert_iff {s : ActionSet} :
    (actions.foldl insert s).contains a = true ↔ s.contains a = true ∨ a ∈ actions := by
  induction actions generalizing s with
  | nil => simp
  | cons b rest ih => rw [List.foldl_cons, ih, contains_insert_iff, List.mem_cons, or_assoc]

theorem contains_ofList_iff : (ofList actions).contains a = true ↔ a ∈ actions := by
  have hempty : empty.contains a = false := by simp [contains, empty]
  rw [ofList, contains_foldl_insert_iff, hempty]
  exact or_iff_right Bool.false_ne_true

end ActionSet

namespace Session

variable {actions : ActionSet} {w : Workflow}

/-- The table decides, and each of its sets is selected as the table says. -/
theorem selectWorkflow_eq_ok_iff :
    selectWorkflow actions = .ok w ↔ (actions, w) ∈ Workflow.selections := by
  constructor
  · intro h
    unfold selectWorkflow at h
    split_ifs at h
    split at h
    · next hselect =>
      cases h
      obtain ⟨⟨found, _⟩, hfound, rfl⟩ := Option.map_eq_some_iff.1 hselect
      obtain rfl : found = actions := by simpa using List.find?_some hfound
      exact List.mem_of_find?_eq_some hfound
    · cases h
  · have hall : ∀ p ∈ Workflow.selections, selectWorkflow p.1 = .ok p.2 := by decide +kernel
    exact hall (actions, w)

end Session

end Authenticode
