import StakeLedger.Http.Parameters
import StakeLedger.Query.Basic

/-!
# Endpoints

Each operation has an endpoint of its own, and there are two more for the state
and the metrics of the server.  Paths are told apart by case; a line break after
a path is ignored.

Main definitions:

- {lit}`Http.Endpoint`: an endpoint.
- {lit}`Http.Endpoint.ofPath?`: the endpoint at a path.
- {lit}`Http.queryOf`: the query that the parameters of a request ask for.
-/

namespace StakeLedger.Http

/-- An endpoint. -/
inductive Endpoint where
  | health
  | metrics
  | operation (op : Operation)
deriving DecidableEq, Repr

namespace Endpoint

/-- The path of an endpoint. -/
def path : Endpoint → String
  | .health => "/healthcheck"
  | .metrics => "/metrics"
  | .operation .listDelegations => "/v1/staker/delegations"
  | .operation .countStakers => "/v1/finality-provider/staker-count"
  | .operation .countProviderDelegations => "/v1/finality-provider/delegations-count"
  | .operation .countStakerDelegations => "/v1/staker/count"
  | .operation .checkActivity => "/v1/staker/delegation/check"
  | .operation .findDelegation => "/v1/delegation"

/-- All endpoints. -/
def all : List Endpoint :=
  .health :: .metrics :: Operation.all.map .operation

/-- The endpoint at a path. -/
def ofPath? (path : String) : Option Endpoint :=
  all.find? fun e => e.path == path || e.path ++ "\n" == path

end Endpoint

/-- The first text unless it is empty, and then the second one. -/
def orElse (first second : String) : String :=
  if first = "" then second else first

/-- The query that the parameters of a request ask for.  Older clients send the
key of a staker under the name of a provider's key. -/
def queryOf (op : Operation) (ps : Parameters) : Query :=
  let staker := ps.value "staker_btc_pk"
  let provider := ps.value "finality_provider_pk_hex"
  match op with
  | .listDelegations => .listDelegations staker (ps.value "pagination_key")
  | .countStakers => .countStakers provider
  | .countProviderDelegations => .countProviderDelegations provider
  | .countStakerDelegations => .countStakerDelegations (orElse staker provider)
  | .checkActivity => .checkActivity (ps.value "address") (ps.value "timeframe")
  | .findDelegation => .findDelegation (ps.value "staking_tx_hash_hex")

end StakeLedger.Http
