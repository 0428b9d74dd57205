import MetaFed.Catalog

/-!
The catalog as a service that answers calls, slowly or not at all. A call can fail before the
catalog does anything; what the catalog then does can fail as well. A bounded backend gives up
calls that take too long and reports every fault as a failed call.
-/

namespace MetaFed

inductive Endpoint where
  | search
  | record
  | stringProperties
  | version
  deriving DecidableEq, Repr

def Endpoint.name : Endpoint → String
  | .search => "search"
  | .record => "get_record_by_id"
  | .stringProperties => "get_all_string_properties"
  | .version => "get_version"

/-- A call that the catalog does not serve. It may be given up before the catalog notices it. -/
structure Outage where
  failure : Failure
  noticed : Bool := true
  deriving Repr

/-- What answers the calls. Every call that has no outage is served. -/
structure Backend where
  outage : Endpoint → Option Outage
  search : NativeSearch → Attempt (List Record)
  record : String → List String → Option Record
  stringProperties : String → List String
  version : String

namespace Backend

/-- Kinds of faults that end the program and are not the backend's. -/
def fatalKinds : List String :=
  ["BaseException", "KeyboardInterrupt", "SystemExit", "GeneratorExit"]

/-- A failure of a call, as a bounded backend reports it; a refusal is passed on. -/
def report (e : Endpoint) : Failure → Failure
  | .refused r => .refused r
  | .fault (.external kind m) =>
    if fatalKinds.contains kind then .fault (.external kind m)
    else Failure.ofCause (.backend e.name (some (.external kind m)))
  | .fault f => Failure.ofCause (.backend e.name (some f))

def timedOut (e : Endpoint) : Failure :=
  Failure.ofCause (.backend e.name (some (.external "TimeoutError" none)))

/-- The backend with faults reported as failed calls. -/
def reporting (b : Backend) : Backend :=
  { b with
    outage := fun e => (b.outage e).map fun o => { o with failure := report e o.failure }
    search := fun s =>
      match b.search s with
      | .ok rs => .ok rs
      | .error f => .error (report .search f) }

end Backend

/-- A catalog as a service: how long every call takes, and the calls that fail. -/
structure Service where
  catalog : Catalog
  delay : Value := .int 0
  failures : Assoc String Failure := []
  deriving Repr

namespace Service

/-- What a call ends with: a fault that would be taken for the end of an iteration, at a search
that of its hits, turns into another one. -/
def raised (e : Endpoint) : Failure → Failure
  | .refused r => .refused r
  | .fault f =>
    match f with
    | .external kind m =>
      if kind = "StopIteration" then turned "coroutine" kind
      else if kind = "StopAsyncIteration" ∧ e = .search then turned "async generator" kind
      else .fault (.external kind m)
    | f => .fault f
where
  turned (place kind : String) : Failure :=
    .fault (.external "RuntimeError" (some (place ++ " raised " ++ kind)))

def failure? (s : Service) (e : Endpoint) : Option Outage :=
  (Assoc.find? e.name s.failures).map fun f => ⟨raised e f, true⟩

def backend (s : Service) : Backend where
  outage := s.failure?
  search := s.catalog.search
  record := s.catalog.fetch
  stringProperties := s.catalog.reported
  version := s.catalog.version

def isSlower (s : Service) (limit : Value) : Bool :=
  s.delay.compare? limit == some .gt

/-- The outage of a call with a limit on its time; without time to spend it is not begun. -/
def outageWithin (s : Service) (limit : Value) (e : Endpoint) : Option Outage :=
  if limit.compare? (.int 0) != some .gt then some ⟨Backend.timedOut e, false⟩
  else if s.isSlower limit then some ⟨Backend.timedOut e, true⟩
  else s.failure? e

/-- The service with a bound on calls; without a limit they take as long as they do. -/
def bounded (s : Service) (limit : Option Value) : Backend :=
  match limit with
  | some t => { s.backend with outage := s.outageWithin t }.reporting
  | none => s.backend.reporting

end Service

/-- What a collection can be opened on: with a bound on calls it is a backend. -/
class Provider (σ : Type) where
  bounded : σ → Option Value → Backend

instance : Provider Service := ⟨Service.bounded⟩

/-- A backend answers at once, so that a bound on calls is met. -/
instance : Provider Backend := ⟨fun b _ => b.reporting⟩

end MetaFed
