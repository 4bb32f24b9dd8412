import Mathlib.Logic.Relation

/-!
# Paio.Library.Reachability

Reaching a goal by steps that lower a rank.
-/

namespace Reachability

variable {S : Type} {R : S → S → Prop} {I G : S → Prop}

end Reachability
