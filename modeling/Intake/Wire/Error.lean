import Intake.Instant.Text
import Intake.Json.Draft
import Intake.Text.Quoted
import Intake.Uuid

/-!
# Why a document is refused

The faults that a reader of values can meet in a document. A fault of the form (a text that is no
JSON, a number beyond the doubles, too many levels) is `malformed`; the others say what stood where
something else was wanted.
-/

namespace Intake.Wire

open Intake.Json (Number)

/-- What a reader wants. -/
inductive Wanted where
  | text
  | boolean
  | object
  | float
  | int64
  | uint64
  | uuid
  | instant
  /-- A record with this name. -/
  | record (name : String)
deriving DecidableEq

/-- The wanted thing in words. -/
def Wanted.describe : Wanted → String
  | .text => "a string"
  | .boolean => "a boolean"
  | .object => "a map"
  | .float => "f64"
  | .int64 => "i64"
  | .uint64 => "u64"
  | .uuid => "a formatted UUID string"
  | .instant => "an RFC 3339 formatted date and time string"
  | .record name => "struct " ++ name

/-- What a reader finds. -/
inductive Found where
  | null
  | bool (value : Bool)
  | number (value : Number)
  | text (value : String)
  | array
  | object

/-- The found thing in words. -/
def Found.describe : Found → String
  | .null => "null"
  | .bool b => s!"boolean `{b}`"
  | .number (.int n _ _) => s!"integer `{n}`"
  | .number (.float x _) => "floating point `" ++ Number.floatText x ++ "`"
  | .text s => "string " ++ Text.quoted s
  | .array => "sequence"
  | .object => "map"

end Intake.Wire

namespace Intake

/-- Why a document is refused. -/
inductive DecodeError where
  /-- The text is no JSON, or not of the size and depth that are read. -/
  | malformed
  /-- Something of another kind was wanted. -/
  | mistyped (found : Wire.Found) (wanted : Wire.Wanted)
  /-- A whole number that is too large, or negative where it must not be. -/
  | outOfRange (value : Int) (wanted : Wire.Wanted)
  | missingField (name : String)
  | duplicateField (name : String)
  /-- An array that stands for a record and ends before all of its fields are there. -/
  | tooShort (given : Nat) (record : String) (size : Nat)
  | badUuid (cause : UuidError)
  | badInstant

/-- The reason in words. -/
def DecodeError.message : DecodeError → String
  | .malformed => "invalid JSON"
  | .mistyped found wanted => "invalid type: " ++ found.describe ++ ", expected " ++ wanted.describe
  | .outOfRange n wanted => s!"invalid value: integer `{n}`, expected " ++ wanted.describe
  | .missingField name => "missing field `" ++ name ++ "`"
  | .duplicateField name => "duplicate field `" ++ name ++ "`"
  | .tooShort given record size =>
    s!"invalid length {given}, expected struct {record} with {size} elements"
  | .badUuid cause => "UUID parsing failed: " ++ cause.message
  | .badInstant => "invalid date-time"

end Intake
