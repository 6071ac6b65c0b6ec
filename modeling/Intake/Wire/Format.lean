import Intake.Json.Written
import Intake.Wire.Error

/-!
# Wire formats

A `Wire α` says how values of type `α` are written as documents and how they are read back. Reading
goes over a draft, and is told how many arrays and objects may still open (`room`); it stops at the
first fault.

This module has the formats of texts, numbers and the like, and of whole JSON values. Records are
built from them in `Intake.Wire.Record`.
-/

namespace Intake

open Intake.Json (Tree Draft Number)

-- one meaning of powers, whatever is imported beside
attribute [local instance (high)] instPowNat

/-- How values of a type are written and read. -/
structure Wire (α : Type) where
  write : α → Tree
  read : Nat → Draft → Except DecodeError α

namespace Wire

/-- What a draft is found to be, for a reader that wants something else. Only the front of an
array or object is looked at. -/
def found : Draft → Except DecodeError Found
  | .null => .ok .null
  | .bool b => .ok (.bool b)
  | .number (some n) => .ok (.number n)
  | .text (some s) => .ok (.text s)
  | .array _ _ => .ok .array
  | .object _ _ => .ok .object
  | .number none | .text none | .broken => .error .malformed

/-- Refuses a draft because something else was wanted. -/
def refuse (wanted : Wanted) (d : Draft) : Except DecodeError α := do
  throw (.mistyped (← found d) wanted)

/-- Goes into an array or object, if there is room. -/
def enter : Nat → Except DecodeError Nat
  | 0 => .error .malformed
  | room + 1 => .ok room

/-! ## Texts and numbers -/

/-- A string that means something: its reader gives the meaning or a fault. -/
def ofText (wanted : Wanted) (write : α → String) (read : String → Except DecodeError α) :
    Wire α where
  write a := .text (write a)
  read _
    | .text (some s) => read s
    | d => refuse wanted d

/-- A string. -/
def text : Wire String := ofText .text id .ok

/-- A truth value. -/
def boolean : Wire Bool where
  write b := .bool b
  read _
    | .bool b => .ok b
    | d => refuse .boolean d

/-- A double, which may also be written as a whole number; one that is not finite is written as
`null`. -/
def float : Wire Float where
  write x := (Number.ofFloat? x).elim .null .number
  read _
    | .number (some n) => .ok n.toFloat
    | d => refuse .float d

/-- A whole number with sign. -/
def int64 : Wire Int64 where
  write n := .number (.ofInt64 n)
  read _
    | .number (some (.int n _ _)) =>
      if n < 2 ^ (63 : Nat) then .ok (Int64.ofInt n) else .error (.outOfRange n .int64)
    | d => refuse .int64 d

/-- A whole number without sign. -/
def uint64 : Wire UInt64 where
  write n := .number (.ofUInt64 n)
  read _
    | .number (some (.int n _ _)) =>
      if 0 ≤ n then .ok (UInt64.ofNat n.toNat) else .error (.outOfRange n .uint64)
    | d => refuse .uint64 d

/-- A UUID in its written form; every spelling is read. -/
def uuid : Wire Uuid :=
  ofText .uuid Uuid.text fun s => (Uuid.parse s).mapError .badUuid

/-- An instant in its written form. -/
def instant : Wire Instant :=
  ofText .instant Instant.text fun s => (Instant.parse? s).elim (.error .badInstant) .ok

/-! ## Values and options -/

/-- Any value. -/
def json : Wire Json where
  write j := j.tree
  read room d := (d.toTree? room).elim (.error .malformed) fun t => .ok (Json.ofTree t)

/-- The object that has the values of the given members; of two with one key the later one
counts. -/
def objectOf (members : List (String × Tree)) : Keyed Json :=
  Json.keyedOf (Tree.normalizeMembers members) (Tree.normalizeMembers_sorted members)

/-- An object of any values. -/
def object : Wire (Keyed Json) where
  write o := (Json.object o).tree
  read room
    | .object ms closed => do
      let room ← enter room
      if closed then
        (Draft.membersToTree? room ms).elim (.error .malformed) fun ts => .ok (objectOf ts)
      else .error .malformed
    | d => refuse .object d

/-- A value or `null`. -/
def optional (w : Wire α) : Wire (Option α) where
  write
    | none => .null
    | some a => w.write a
  read room
    | .null => .ok none
    | d => (w.read room d).map some

/-- The format of a type whose values stand for those of another one. -/
def via (w : Wire α) (read : α → β) (write : β → α) : Wire β where
  write b := w.write (write b)
  read room d := (w.read room d).map read

/-! ## Whole texts -/

/-- The compact text of a value. -/
def encode (w : Wire α) (a : α) : String := (w.write a).compact

/-- The octets of the compact text of a value. -/
def toBytes (w : Wire α) (a : α) : ByteArray := (w.encode a).toUTF8

/-- The value that the octets of a text hold; nothing but blanks may follow it. -/
def ofBytes (w : Wire α) (bytes : ByteArray) : Except DecodeError α := do
  let r := Draft.read bytes
  let a ← w.read Json.maxDepth r.draft
  if r.ended then return a else throw .malformed

/-- The value that a text holds. -/
def ofString (w : Wire α) (s : String) : Except DecodeError α := w.ofBytes s.toUTF8

end Wire

end Intake
