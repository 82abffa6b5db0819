import PlanScribe.Proofs.Document.OnFile
import PlanScribe.Proofs.Storage.Writing

/-!
# Writing under a rule

What a call to write a file does, by its answer, and what a plan does with it. The rule for missing
files keeps what the path leads to when the call is made. A path that leads nowhere yet, because it
goes into a missing directory and out again, is given its directories first and may then lead to a
file, which is written over.
-/
namespace PlanScribe

open FileTree

theorem Plan.clashing_iff_render (plan : Plan) : plan.Clashing ↔ ∃ e, plan.render = .error e := by
  simp only [plan.render_eq_error_iff]
  rw [← Option.ne_none_iff_exists', ne_eq, plan.firstClash_eq_none_iff, not_not]

end PlanScribe
