import Failover.Json.Number
import Failover.Text.Quoted

/-! # Why a JSON text was not read

A text that is not JSON, or holds a literal without a value, is `malformed`; the other causes say
in which way well-formed JSON is not the value that was asked for. `ReadError.message` is the one
place where they are worded. -/

namespace Failover

/-- What stands in a text where a `Reader` expected something else. -/
inductive Found where
  | null
  | bool (b : Bool)
  | number (n : Number)
  | string (s : String)
  | sequence
  | map
  /-- The bare name of an alternative that carries a value (`Scan.readVariant`). -/
  | unitVariant
deriving DecidableEq, Repr

/-- A `ReadError` is why a JSON text was not read. -/
inductive ReadError where
  /-- It is not JSON, nests too deep, or holds a number or text without a value. -/
  | malformed
  | missingField (name : String)
  | duplicateField (name : String)
  | unknownVariant (name : String) (expected : List String)
  | invalidType (found : Found) (expected : String)
  /-- The integer is outside the range that was asked for. -/
  | invalidValue (n : Int) (expected : String)
  | invalidLength (n : Nat) (expected : String)
deriving DecidableEq, Repr

/-- How `ReadError.message` calls what was found. -/
def Found.description : Found → String
  | .null => "null"
  | .bool true => "boolean \x60true\x60"
  | .bool false => "boolean \x60false\x60"
  | .number (.int n) => "integer \x60" ++ String.ofList (Number.intText n) ++ "\x60"
  | .number (.double x) => "floating point \x60" ++ String.ofList (Number.doubleText x) ++ "\x60"
  | .string s => "string " ++ Text.quoted s
  | .sequence => "sequence"
  | .map => "map"
  | .unitVariant => "unit variant"

/-- A list of names, each in grave accents, as `ReadError.message` shows it. -/
def ReadError.names (ns : List String) : String :=
  ", ".intercalate (ns.map fun n => "\x60" ++ n ++ "\x60")

/-- The text of a `ReadError`. -/
def ReadError.message : ReadError → String
  | .malformed => "malformed"
  | .missingField name => "missing field \x60" ++ name ++ "\x60"
  | .duplicateField name => "duplicate field \x60" ++ name ++ "\x60"
  | .unknownVariant name expected =>
    "unknown variant \x60" ++ name ++ "\x60, expected one of " ++ names expected
  | .invalidType found expected => "invalid type: " ++ found.description ++ ", expected " ++ expected
  | .invalidValue n expected =>
    "invalid value: " ++ (Found.number (.int n)).description ++ ", expected " ++ expected
  | .invalidLength n expected =>
    "invalid length " ++ String.ofList (Number.intText n) ++ ", expected " ++ expected

end Failover
