import Mathlib.Tactic
import Woodland.Scene.InstanceBatch

/-! Reading packed instances back from their bytes. -/

namespace Woodland

namespace Binary

end Binary

namespace Instance

end Instance

end Woodland
