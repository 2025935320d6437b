/-
  Runtime gateway: the ledgers that the handler reads, sums over the `invocations` table.
-/
import Valor.RuntimeGateway.Repository

namespace Valor.RuntimeGateway

open Python Postgres

/-- `started_at` is in the window. -/
def InvocationRow.startedIn (row : InvocationRow) (start «end» : Utc) : Bool :=
  start.instant ≤ row.startedAt.instant && row.startedAt.instant < «end».instant

/-- `consumed_total_units`. -/
def consumedTotalUnits (rows : List InvocationRow) (runtimePrincipalId : String)
    (windowStart windowEnd : Utc) : Int :=
  ((rows.filter fun row => row.runtimePrincipalId = some runtimePrincipalId &&
    row.startedIn windowStart windowEnd).filterMap (·.totalUnits)).sum

/-- `attributed_cost`; a zero becomes `Decimal(0)`. -/
def attributedCost (rows : List InvocationRow) (tenantId : Uuid) (windowStart windowEnd : Utc) :
    Decimal :=
  let cost := ((rows.filter fun row => row.tenantId = tenantId &&
    row.startedIn windowStart windowEnd).filterMap (·.costTotal)).sum
  if cost = 0 then 0 else numericValue 12 cost

end Valor.RuntimeGateway
