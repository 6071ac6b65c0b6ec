import Intake.Wire.Format

/-!
# Records

A record is written as an object with its fields in their order. It is read from an object with the
members in any order, or from an array with the fields in their order.

In an object each known field may stand once; it is read where it stands, so that the first fault
in the text is the one reported. A field that is not there takes its value for this case or is
reported missing after all members were read, the first one in the order of the fields. Members
that are no fields are passed over; only their form counts. In an array a field that has a default
may be missing at the end.
-/

namespace Intake

open Intake.Json (Tree Draft)

/-- A field of a record. -/
structure Field (α : Type) where
  name : String
  wire : Wire α
  /-- The value if an object does not have the field. -/
  absent : Option α := none
  /-- The value if an array ends before the field. -/
  short : Option α := none
  /-- Whether the field is not written at this value. -/
  omits : α → Bool := fun _ => false

namespace Field

/-- A field that must be there. -/
def required (name : String) (wire : Wire α) : Field α := { name, wire }

/-- A field with a value or without; in an array it must be there, if only as `null`. -/
def optional (name : String) (wire : Wire α) : Field (Option α) :=
  { name, wire := wire.optional, absent := some none }

/-- A field with a value for the case that it is not there. -/
def defaulted (name : String) (wire : Wire α) (default : α) : Field α :=
  { name, wire, absent := some default, short := some default }

/-- A field that is written only if it has a value. -/
def omittable (name : String) (wire : Wire α) : Field (Option α) :=
  { name, wire := wire.optional, absent := some none, short := some none, omits := Option.isNone }

end Field

/-- The fields of a record in their order; the record is the tuple of their values. -/
inductive Fields : Type → Type 1 where
  | last {α : Type} (field : Field α) : Fields α
  | cons {α β : Type} (field : Field α) (rest : Fields β) : Fields (α × β)

namespace Fields

/-- The names in their order. -/
def names : Fields α → List String
  | .last f => [f.name]
  | .cons f rest => f.name :: rest.names

/-! ## Writing -/

/-- The member that a field is written as, if any. -/
def writeField (f : Field α) (a : α) : List (String × Tree) :=
  if f.omits a then [] else [(f.name, f.wire.write a)]

/-- The members that a record is written as. -/
def write : Fields α → α → List (String × Tree)
  | .last f, a => writeField f a
  | .cons f rest, (a, b) => writeField f a ++ rest.write b

/-! ## Reading an object -/

/-- Reads the value of the member with a key, for its faults only. -/
def check (room : Nat) (key : String) (d : Draft) : Fields α → Except DecodeError Unit
  | .last f => if f.name = key then (f.wire.read room d).map fun _ => () else .ok ()
  | .cons f rest =>
    if f.name = key then (f.wire.read room d).map fun _ => () else rest.check room key d

/-- Goes through the members of an object in the order of the text and meets the first fault. What
is to be done with a member that is no field is given by `other`. -/
def walk (fields : Fields α) (other : Draft → Except DecodeError Unit) (room : Nat) (closed : Bool)
    (seen : List String) : List (Option String × Draft) → Except DecodeError Unit
  | [] => if closed then .ok () else .error .malformed
  | (none, _) :: _ => .error .malformed
  | (some key, d) :: rest =>
    if key ∈ fields.names then
      if key ∈ seen then .error (.duplicateField key)
      else do
        fields.check room key d
        fields.walk other room closed (key :: seen) rest
    else do
      other d
      fields.walk other room closed seen rest

/-- The value of the first member with a key. -/
def member? (key : String) : List (Option String × Draft) → Option Draft
  | [] => none
  | (k, d) :: rest => if k = some key then some d else member? key rest

/-- The value of a field among the members. -/
def gatherField (room : Nat) (members : List (Option String × Draft)) (f : Field α) :
    Except DecodeError α :=
  match member? f.name members with
  | some d => f.wire.read room d
  | none => f.absent.elim (.error (.missingField f.name)) .ok

/-- The record that the members hold; the first missing field is reported. -/
def gather (room : Nat) (members : List (Option String × Draft)) :
    Fields α → Except DecodeError α
  | .last f => gatherField room members f
  | .cons f rest => do
    let a ← gatherField room members f
    let b ← rest.gather room members
    return (a, b)

/-! ## Reading an array -/

/-- The value of a field from the rest of an array, and what is left of it. `given` is how many
items came before, `record` and `size` are the record's name and its number of fields. -/
def takeField (record : String) (size given room : Nat) (closed : Bool) (f : Field α) :
    List Draft → Except DecodeError (α × List Draft)
  | d :: rest => (f.wire.read room d).map (·, rest)
  | [] =>
    if closed then f.short.elim (.error (.tooShort given record size)) fun a => .ok (a, [])
    else .error .malformed

/-- The record that the items of an array hold. -/
def takeAll (record : String) (size given room : Nat) (closed : Bool) (items : List Draft) :
    Fields α → Except DecodeError α
  | .last f => do
    let (a, rest) ← takeField record size given room closed f items
    -- what comes after the last field is a fault of the form
    if rest.isEmpty && closed then return a else throw .malformed
  | .cons f rest => do
    let (a, items) ← takeField record size given room closed f items
    let b ← rest.takeAll record size (given + 1) room closed items
    return (a, b)

/-! ## Records -/

/-- Passes over a value of which only the form counts. -/
def pass (d : Draft) : Except DecodeError Unit :=
  if d.isWhole then .ok () else .error .malformed

/-- The format of a record with a name and fields. -/
def record (name : String) (fields : Fields α) : Wire α where
  write a := .object (fields.write a)
  read room
    | .object members closed => do
      let room ← Wire.enter room
      -- once the walk has met no fault, `gather` can only miss a field
      fields.walk pass room closed [] members
      fields.gather room members
    | .array items closed => do
      let room ← Wire.enter room
      fields.takeAll name fields.names.length 0 room closed items
    | d => Wire.refuse (.record name) d

end Fields

end Intake
