import MetaFed.Mapping.Standard
import MetaFed.Outcome
import MetaFed.Plan
import MetaFed.Session.Run

/-!
A metadata collection over one catalog service. It has settings of its own, a mapping table and a
planner made of the two. Every operation runs in a session of its own and answers an outcome.
-/

namespace MetaFed

/-- Settings of a collection; without a timeout calls to the catalog have no bound. -/
structure Settings where
  home : String
  repositoryName : String := "catalog"
  timeout : Option Value := some (.real (Binary64.ofFraction false 30 1))
  baseType : String := Hierarchy.Standard.baseType
  defaultAssetType : String := MappingTable.Standard.defaultAssetType
  foreignMark : Option String := some Planner.standardForeignMark
  exclusions : Assoc String (List String) := Planner.standardExclusions
  deriving Repr

namespace Settings

def checked (s : Settings) : Attempt Settings :=
  if s.home = "" then refuse (.configuration .missingHome)
  else
    match s.timeout with
    | none => .ok s
    | some t =>
      match t.compare? (.int 0) with
      | none => stop .incomparable
      | some .gt => .ok s
      | some _ => refuse (.configuration (.timeoutNotPositive t))

end Settings

/-- A collection of the entities and relationships that a mapping table finds in a catalog. -/
structure Collection where
  settings : Settings
  table : MappingTable
  deriving Repr

namespace Collection

/-- The collection with some settings, whose base type has to be that of the table. -/
def of (settings : Settings) (table : MappingTable) : Attempt Collection :=
  if table.baseType ≠ settings.baseType then
    refuse (.configuration (.baseTypeMismatch table.baseType settings.baseType))
  else .ok ⟨settings, table⟩

variable (c : Collection) {α : Type}

def home : String := c.settings.home

def planner : Planner := ⟨c.table, c.settings.foreignMark, c.settings.exclusions⟩

def scope {σ : Type} [Provider σ] (s : σ) : Scope :=
  ⟨Provider.bounded s c.settings.timeout, c.table, c.home⟩

/-- The outcome of an operation, and what it did at the backend. -/
def run (operation : String) (work : Session α) : Attempt (Outcome α) × List Event :=
  let (a, s) := Session.runFrom {} work
  (Outcome.ofAttempt operation c.home a, s.events)

/-- The result of a session; instead of some refusals there is none. -/
def ifKnown (missing : Cause → Bool) (work : Session α) : Session (Option α) :=
  tryCatch (do pure (some (← work))) fun f =>
    match f with
    | .refused r => if missing r.cause then pure none else throw f
    | .fault _ => throw f

def checkPresent (historical : Bool) : Session Unit :=
  Session.ofAttempt (Planner.checkPresent historical)

end Collection

end MetaFed
