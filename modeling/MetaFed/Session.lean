import MetaFed.Backend

/-!
Sessions of calls to a backend. A session keeps a log of its calls and the records it has fetched.
A record is fetched once, unless a property is asked for that it was fetched without; then it is
fetched again with all properties asked for so far. That a record does not exist is kept too.
-/

namespace MetaFed

/-- What a session does at its backend: begin a call, run a search, look a record up. -/
inductive Event where
  | called (e : Endpoint)
  | searched (s : NativeSearch)
  | fetched (recordId : String)
  deriving Repr

/-- A record that was fetched, if it exists, and the properties it was fetched with. -/
structure CacheEntry where
  record : Option Record
  properties : List String
  deriving Repr

/-- A fetched record answers for properties if it was fetched with them or does not exist. -/
def CacheEntry.covers (e : CacheEntry) (wanted : List String) : Bool :=
  e.record.isNone || wanted.all e.properties.contains

/-- Fetched records by id, and how often a look-up needed no fetch or one. -/
structure ObjectCache where
  entries : Assoc String CacheEntry := []
  hits : Nat := 0
  misses : Nat := 0
  deriving Repr

namespace ObjectCache

/-- The entry that answers for the properties of a record. -/
def answer? (c : ObjectCache) (id : String) (wanted : List String) : Option CacheEntry :=
  (Assoc.find? id c.entries).filter fun e => e.covers wanted

/-- The properties to fetch a record with, those it was fetched with first. -/
def projection (c : ObjectCache) (id : String) (wanted : List String) : List String :=
  firsts (((Assoc.find? id c.entries).map CacheEntry.properties).getD [] ++ wanted)

def hit (c : ObjectCache) : ObjectCache :=
  { c with hits := c.hits + 1 }

def miss (c : ObjectCache) : ObjectCache :=
  { c with misses := c.misses + 1 }

def keep (c : ObjectCache) (id : String) (e : CacheEntry) : ObjectCache :=
  { c with entries := Assoc.put id e c.entries }

def size (c : ObjectCache) : Nat := c.entries.length

end ObjectCache

/-- The log of a session and what it has fetched. -/
structure SessionState where
  events : List Event := []
  cache : ObjectCache := {}
  deriving Repr

/-- A part of a session; the log and the fetched records outlive a failure. -/
abbrev Session (α : Type) := ExceptT Failure (StateM SessionState) α

namespace Session

variable {α : Type}

def ofAttempt (a : Attempt α) : Session α :=
  match a with
  | .ok x => pure x
  | .error f => throw f

def note (e : Event) : Session Unit :=
  modify fun s => { s with events := s.events ++ [e] }

def updateCache (f : ObjectCache → ObjectCache) : Session Unit :=
  modify fun s => { s with cache := f s.cache }

def runFrom (s : SessionState) (m : Session α) : Attempt α × SessionState :=
  (ExceptT.run m).run s

end Session

namespace Backend

open Session

variable (b : Backend)

def enter (e : Endpoint) : Session Unit := do
  match b.outage e with
  | none => note (.called e)
  | some o =>
    if o.noticed then note (.called e)
    throw o.failure

def runSearch (s : NativeSearch) : Session (List Record) := do
  b.enter .search
  note (.searched s)
  ofAttempt (b.search s)

def fetch (id : String) (properties : List String) : Session (Option Record) := do
  b.enter .record
  note (.fetched id)
  pure (b.record id properties)

def askStringProperties (assetType : String) : Session (List String) := do
  b.enter .stringProperties
  pure (b.stringProperties assetType)

def askVersion : Session String := do
  b.enter .version
  pure b.version

/-- The record of an id with at least some properties, fetched if that is needed. -/
def lookUp (id : String) (properties : List String) : Session (Option Record) := do
  let cache := (← get).cache
  match cache.answer? id properties with
  | some e =>
    updateCache ObjectCache.hit
    pure e.record
  | none =>
    -- The miss counts before the call, which may fail.
    updateCache ObjectCache.miss
    -- What was asked for before is asked for again, so that the record kept only grows.
    let wanted := cache.projection id properties
    let r ← b.fetch id wanted
    updateCache fun c => c.keep id ⟨r, wanted⟩
    pure r

end Backend

end MetaFed
