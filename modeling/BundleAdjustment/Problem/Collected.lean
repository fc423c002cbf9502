import BundleAdjustment.Collection.Basic
import BundleAdjustment.Problem.Basic

/-! # Collections in problems

A collection of costs over a caller's arrays becomes the residual blocks of a problem.
-/

namespace BundleAdjustment.Problem

/-- Adds the entries of a collection in order, up to the first that is refused. -/
def addCollection (c : CostCollection Float ParameterArray) : Stateful Problem Unit :=
  c.entries.forM fun e => addResidualBlock e.cost e.parameters none

end BundleAdjustment.Problem
