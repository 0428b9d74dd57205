import MetaFed.Failure

/-!
Catalog records. A record has system fields (id, type, name, ancestry, audit marks) and
properties. A property that points to other records holds a reference, the fields of one in a
dictionary, or a list of either.
-/

namespace MetaFed

/-- A record of the catalog; `context` holds its ancestors, the root first. -/
structure Record where
  ref : Reference
  properties : Assoc String Value := []
  context : List Reference := []
  createdOn : Option Moment := none
  createdBy : Option String := none
  modifiedOn : Option Moment := none
  modifiedBy : Option String := none
  deriving Repr, Inhabited

namespace Field

/-- A field under its system name, or else under its plain one. -/
def find? (name : String) (es : Assoc String Value) : Option Value :=
  match Assoc.find? ("_" ++ name) es with
  | some v => some v
  | none => Assoc.find? name es

def text (v : Option Value) : Attempt String :=
  match v with
  | some (.text s) => .ok s
  | _ => stop .illFormed

def text? (v : Option Value) : Attempt (Option String) :=
  match v with
  | some (.text s) => .ok (some s)
  | some .null => .ok none
  | none => .ok none
  | _ => stop .illFormed

def moment? (v : Option Value) : Attempt (Option Moment) :=
  match v with
  | some (.text s) => found (Moment.ofIso? s <|> Moment.ofDecimal? s)
  | some (.int n) => found (Moment.ofCount? n 0)
  | some (.real x) => found (Moment.ofReal? x)
  | some (.moment t) => .ok (some t)
  | some .null => .ok none
  | none => .ok none
  | _ => stop .illFormed
where
  found (t : Option Moment) : Attempt (Option Moment) :=
    match t with
    | some t => .ok (some t)
    | none => stop .illFormed

end Field

namespace Reference

def ofFields (es : Assoc String Value) : Attempt Reference := do
  let id ← Field.text (Field.find? "id" es)
  let type ← Field.text (Field.find? "type" es)
  let name ← Field.text? (Field.find? "name" es)
  .ok ⟨id, type, name⟩

/-- A reference, or a dictionary with the fields of one. -/
def ofValue : Value → Attempt Reference
  | .reference r => .ok r
  | .dict es => ofFields es
  | _ => stop .illFormed

/-- The references a property value holds; what is none is passed over. -/
def allOf (v : Value) : Attempt (List Reference) :=
  match v with
  | .list xs => collect xs
  | v => collect [v]
where
  collect : List Value → Attempt (List Reference)
    | [] => .ok []
    | .reference r :: vs => do .ok (r :: (← collect vs))
    | .dict es :: vs =>
      if Assoc.has "_id" es ∧ Assoc.has "_type" es then do
        let r ← ofFields es
        .ok (r :: (← collect vs))
      else collect vs
    | _ :: vs => collect vs

end Reference

namespace Record

def id (r : Record) : String := r.ref.id

def type (r : Record) : String := r.ref.type

def nameProperty : String := "name"

def idProperty : String := "_id"

def createdProperty : String := "created_on"

def modifiedProperty : String := "modified_on"

def momentValue (t : Option Moment) : Value :=
  match t with
  | some t => .moment t
  | none => .null

/-- Value of a property; the system fields are properties too, and the name falls back to the
record's own. -/
def value (r : Record) (property : String) : Value :=
  if property = idProperty then .text r.id
  else if property = "_type" then .text r.type
  else if property = createdProperty then momentValue r.createdOn
  else if property = modifiedProperty then momentValue r.modifiedOn
  else if property = nameProperty then
    (Assoc.find? nameProperty r.properties).getD (.ofText? r.ref.name)
  else (Assoc.find? property r.properties).getD .null

def references (r : Record) (property : String) : Attempt (List Reference) :=
  Reference.allOf ((Assoc.find? property r.properties).getD .null)

def contextNames (r : Record) : List String :=
  r.context.map fun c => c.name.getD ""

/-- The record with some of its properties; all of them where none are named. -/
def project (r : Record) (wanted : List String) : Record :=
  if wanted.isEmpty then r
  else { r with properties := r.properties.filter fun e => wanted.contains e.1 }

def ofFields (es : Assoc String Value) : Attempt Record := do
  let ref ← Reference.ofFields es
  let properties ← match Assoc.find? "properties" es with
    | some (.dict ps) => .ok ps
    | none => .ok []
    | some _ => stop .illFormed
  let context ← match Field.find? "context" es with
    | some (.list xs) => xs.mapM Reference.ofValue
    | none => .ok []
    | some _ => stop .illFormed
  let createdOn ← Field.moment? (Assoc.find? "created_on" es)
  let createdBy ← Field.text? (Assoc.find? "created_by" es)
  let modifiedOn ← Field.moment? (Assoc.find? "modified_on" es)
  let modifiedBy ← Field.text? (Assoc.find? "modified_by" es)
  .ok { ref, properties, context, createdOn, createdBy, modifiedOn, modifiedBy }

def ofValue : Value → Attempt Record
  | .dict es => ofFields es
  | _ => stop .illFormed

end Record

end MetaFed
