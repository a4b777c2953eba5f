import Authenticode.CommandLine.Run
import Authenticode.Proofs.Action

/-!
# What a command line asks for

Some arguments ask for something to be done, and the others say how. The arguments of the
first kind become a set of actions, which selects a workflow. Here the sets of arguments
that select one are listed. No two of these arguments become the same set but in one case:
a new signature is embedded by the bit that also stands for a signature from a file, so
asking for both is not told apart from asking for a new one.
-/
namespace Authenticode.CommandLine

variable {a b : Arguments} {p : Parameter} {w : Workflow}

/-- The action that an argument always asks for, if it asks for one. -/
def Parameter.action? : Parameter → Option Action
  | .flag .hash => some .printDigest
  | .flag .omitVendorCertificate => some .omitVendorCertificate
  | .flag .sign => some .generateSignature
  | .flag .removeSignature => some .removeSignature
  | .flag .listSignatures => some .listSignatures
  | .setting .exportSignature => some .exportSignature
  | .setting .importSignature => some .importSignature
  | .setting .importRawSignature => some .importRawSignature
  | .setting .importSignedAttributes => some .importSignedAttributes
  | .setting .exportSignedAttributes => some .exportSignedAttributes
  | .setting .exportPublicKey => some .exportPublicKey
  | .setting .exportCertificate => some .exportCertificate
  | _ => none

def actionParameters : List Parameter :=
  (parameters.map fun p => p.2.2.1).filter fun p => p.action?.isSome

/-- Whether an argument was given, with or without a value. -/
def Arguments.gives (a : Arguments) : Parameter → Bool
  | .flag f => a.has f
  | .setting s => (a.value? s).isSome

/-- The arguments given that ask for an action. -/
def Arguments.requests (a : Arguments) : List Parameter := actionParameters.filter a.gives

/-- The sets of arguments that select a workflow. -/
def combinations : List (List Parameter × Workflow) :=
  [([.flag .hash], .printDigest false),
    ([.flag .hash, .flag .omitVendorCertificate], .printDigest true),
    ([.flag .sign], .generateAndEmbedSignature),
    ([.flag .sign, .setting .importSignature], .generateAndEmbedSignature),
    ([.flag .sign, .setting .exportSignature], .generateAndExportSignature),
    ([.setting .exportSignature], .exportSignature),
    ([.setting .importSignature], .importSignature),
    ([.setting .importRawSignature, .setting .importSignedAttributes], .importRawSignature),
    ([.setting .exportSignedAttributes], .exportSignedAttributes),
    ([.setting .exportPublicKey], .exportPublicKey),
    ([.setting .exportCertificate], .exportCertificate),
    ([.flag .removeSignature], .removeSignature),
    ([.flag .listSignatures], .listSignatures)]

theorem Arguments.mem_requests : p ∈ a.requests ↔ p ∈ actionParameters ∧ a.gives p = true :=
  List.mem_filter

theorem Parameter.action?_eq_importSignature_iff :
    p.action? = some .importSignature ↔ p = .setting .importSignature := by
  cases p with
  | flag f => cases f <;> simp [action?]
  | setting s => cases s <;> simp [action?]

/-- An argument asks for its action. A new signature asks for an import as well, unless it is
exported. -/
theorem Arguments.contains_actions_iff {x : Action} (h : p.action? = some x) :
    a.actions.contains x = true ↔ a.gives p = true ∨
      x = .importSignature ∧ a.has .sign = true ∧ a.value? .exportSignature = none := by
  rw [actions, ActionSet.contains_ofList_iff]
  cases p with
  | flag f => cases f <;> cases h <;> simp [gives]
  | setting s => cases s <;> cases h <;> simp [gives, or_comm]

/-- Whether an argument was given, as far as the actions tell. They do not tell for a signature from
a file. -/
def Parameter.isAsked (actions : ActionSet) (imported : Bool) (p : Parameter) : Bool :=
  if p = .setting .importSignature then imported else p.action?.any actions.contains

theorem Arguments.requests_eq (a : Arguments) : a.requests = actionParameters.filter
    (Parameter.isAsked a.actions (a.gives (.setting .importSignature))) := by
  refine List.filter_congr fun p hp => ?_
  unfold Parameter.isAsked
  split_ifs with himport
  · rw [himport]
  · obtain ⟨x, hx⟩ := Option.isSome_iff_exists.1 (List.mem_filter.1 hp).2
    have hother : x ≠ .importSignature := by
      rintro rfl
      exact himport (Parameter.action?_eq_importSignature_iff.1 hx)
    rw [hx, Option.any_some, Bool.eq_iff_iff, contains_actions_iff hx]
    exact (or_iff_left fun h => hother h.1).symm

theorem Arguments.actions_congr (h : a.requests = b.requests) : a.actions = b.actions := by
  have hgives : ∀ p ∈ actionParameters, a.gives p = b.gives p := by
    intro p hp
    have hmem : p ∈ a.requests ↔ p ∈ b.requests := by rw [h]
    rw [mem_requests, mem_requests, and_iff_right hp, and_iff_right hp] at hmem
    exact Bool.eq_iff_iff.2 hmem
  have hlist : actionParameters = [.flag .hash, .flag .omitVendorCertificate, .flag .sign,
      .setting .exportSignature, .setting .importSignature, .setting .importRawSignature,
      .setting .importSignedAttributes, .setting .exportSignedAttributes, .setting .exportPublicKey,
      .setting .exportCertificate, .flag .removeSignature, .flag .listSignatures] := by decide
  simp only [hlist, List.forall_mem_cons, gives] at hgives
  simp only [actions, hgives, ← Option.not_isSome]

def Arguments.asking (ps : List Parameter) : Arguments where
  flags := ps.filterMap fun | .flag f => some f | .setting _ => none
  values := ps.filterMap fun | .flag _ => none | .setting s => some (s, "")

theorem selectWorkflow_actions_eq_ok_iff :
    Session.selectWorkflow a.actions = .ok w ↔ (a.requests, w) ∈ combinations := by
  constructor
  · intro h
    have hall : ∀ q ∈ Workflow.selections, ∀ imported,
        (q.1.contains .importSignature = true ↔ imported = true ∨
          q.1.contains .generateSignature = true ∧ q.1.contains .exportSignature = false) →
        (actionParameters.filter (Parameter.isAsked q.1 imported), q.2) ∈ combinations := by
      decide +kernel
    rw [a.requests_eq]
    refine hall _ (Session.selectWorkflow_eq_ok_iff.1 h) _ ?_
    have himport := a.contains_actions_iff (p := .setting .importSignature) rfl
    have hsign := a.contains_actions_iff (p := .flag .sign) rfl
    have hexport := a.contains_actions_iff (p := .setting .exportSignature) rfl
    simp only [reduceCtorEq, false_and, or_false, true_and] at himport hsign hexport
    rw [himport, hsign, Bool.eq_false_iff, Ne, hexport]
    simp [Arguments.gives]
  · intro h
    have hall : ∀ q ∈ combinations, (Arguments.asking q.1).requests = q.1 ∧
        Session.selectWorkflow (Arguments.asking q.1).actions = .ok q.2 := by decide +kernel
    obtain ⟨hrequests, hselect⟩ := hall _ h
    rwa [Arguments.actions_congr hrequests.symm]

/-- To ask for a signature from a file beside a new one is not told apart from asking for the new one
alone. -/
theorem Arguments.actions_eq_of_requests
    (ha : a.requests = [.flag .sign, .setting .importSignature]) (hb : b.requests = [.flag .sign]) :
    a.actions = b.actions := by
  have hboth : a.actions = (asking [.flag .sign, .setting .importSignature]).actions :=
    actions_congr (ha.trans (by decide +kernel))
  have hone : b.actions = (asking [.flag .sign]).actions :=
    actions_congr (hb.trans (by decide +kernel))
  rw [hboth, hone]
  decide +kernel

end Authenticode.CommandLine
