import ShelterServer.Foundations.ByteString
import ShelterServer.Foundations.CInt

/-!
# JSON trees as cJSON builds them

The part of cJSON that the server reads: the item types, the member lookup
that ignores letter case, the string of a string item, and the integer that
accompanies a number.  Objects keep their members in order and may repeat a
key.
-/

namespace ShelterServer

open Foundations

/-- A number is represented by the integer part of its value; no modelled
function reads the fraction. -/
inductive Json where
  | null
  | bool (value : Bool)
  | number (integerPart : Int)
  | string (value : Bytes)
  | array (items : List Json)
  | object (members : List (Bytes × Json))

/-- `tolower` in the C locale. -/
def toLower (byte : UInt8) : UInt8 :=
  if 65 ≤ byte ∧ byte ≤ 90 then byte + 32 else byte

/-- `case_insensitive_strcmp(left, right) == 0` for non-NULL strings. -/
def sameIgnoringCase (left right : Bytes) : Bool :=
  left.map toLower == right.map toLower

namespace Json

def isObject : Json → Bool
  | .object _ => true
  | _ => false

def isNumber : Json → Bool
  | .number _ => true
  | _ => false

/-- `cJSON_GetObjectItem`: the first member whose key matches.  The elements
of an array have no key, and scalars have no children. -/
def getObjectItem : Json → Bytes → Option Json
  | .object members, name =>
      (members.find? fun member => sameIgnoringCase name member.1).map Prod.snd
  | _, _ => none

/-- `item->valuestring`, where `none` is NULL. -/
def valuestring : Json → Option Bytes
  | .string value => some value
  | _ => none

/-- `item->valueint`. -/
def valueint : Json → Int
  | .number integerPart => saturateInt integerPart
  | .bool true => 1
  | _ => 0

/-- A parser that knows finitely many texts. -/
def parseTable (table : List (Bytes × Json)) (text : Bytes) : Option Json :=
  table.lookup text

/-- A parser that knows one text and ignores what follows it. -/
def parseFirst (known : Bytes) (value : Json) (text : Bytes) : Option Json :=
  if known <+: text then some value else none

theorem inInt_valueint (item : Json) : InInt item.valueint := by
  unfold valueint
  split
  · exact inInt_saturateInt _
  · decide
  · decide

theorem getObjectItem_of_not_isObject {json : Json}
    (scalar : json.isObject = false) (name : Bytes) :
    json.getObjectItem name = none := by
  cases json with
  | object members => simp [isObject] at scalar
  | null => rfl
  | bool value => rfl
  | number integerPart => rfl
  | string value => rfl
  | array items => rfl

end Json

end ShelterServer
