import ShelterServer.Foundations.Ownership
import ShelterServer.Json

/-!
# Trees in memory

The `struct cJSON` items that stand for a tree, linked to each other, and the
functions of cJSON that build, search and free them.  Requests for memory may
be refused at any point.
-/

namespace ShelterServer

open Foundations

/-- The values of `type`; no function that is used here makes raw items. -/
inductive ItemType where
  | invalid
  | false
  | true
  | null
  | number
  | string
  | array
  | object
deriving DecidableEq

/-- What an item says about its value.  As in `Json`, the integer part stands
for `valuedouble`. -/
structure ItemValue where
  type : ItemType
  /-- `type & cJSON_IsReference` -/
  isReference : Bool
  child : Option Address
  valuestring : Option Address
  valueint : Int
  valuedouble : Int

/-- `struct cJSON`. -/
structure Item extends ItemValue where
  next : Option Address
  prev : Option Address
  string : Option Address
  /-- `type & cJSON_StringIsConst` -/
  stringIsConst : Bool

/-- What `memset` leaves. -/
def Item.zero : Item where
  type := .invalid
  isReference := false
  child := none
  valuestring := none
  valueint := 0
  valuedouble := 0
  next := none
  prev := none
  string := none
  stringIsConst := false

/-- What `malloc` is asked for: an item, or a C string without its NUL. -/
inductive Block where
  | item (item : Item)
  | text (bytes : Bytes)

abbrev Trees := Allocating Block

def loadItem (pointer : Option Address) : Trees Item := do
  match ← loadBlock pointer with
  | .item item => pure item
  | .text _ => throw .stuck

def loadText (pointer : Option Address) : Trees Bytes := do
  match ← loadBlock pointer with
  | .item _ => throw .stuck
  | .text bytes => pure bytes

/-- Assignments to members of an item. -/
def updateItem (change : Item → Item) (pointer : Option Address) :
    Trees PUnit := do
  let item ← loadItem pointer
  storeBlock (.item (change item)) pointer

/-! ## Items -/

/-- The part of `cJSON_Delete` that frees what an item refers to as its value;
NULL is not passed on, which would do nothing. -/
def releaseValue (delete : Option Address → Trees PUnit)
    (value : ItemValue) : Trees PUnit := do
  delete value.child
  freeBlock value.valuestring

/-- The two kinds of strings that an item can have without owning them are left
alone. -/
def releaseItem (delete : Option Address → Trees PUnit) (item : Item) :
    Trees PUnit := do
  if item.isReference = false then
    releaseValue delete item.toItemValue
  if item.stringIsConst = false then
    freeBlock item.string

/-- `cJSON_Delete`: an item and those behind it, in so many turns and nested
calls. -/
def cJSONDelete : Nat → Option Address → Trees PUnit
  | _, none => pure ⟨⟩
  | 0, some _ => throw .stuck
  | turns + 1, some address => do
      let item ← loadItem (some address)
      releaseItem (cJSONDelete turns) item
      freeBlock (some address)
      cJSONDelete turns item.next

section Creation

variable (allocator : Allocator Block)

def cJSONNewItem : Trees (Option Address) :=
  allocateBlock allocator (.item .zero)

def cJSONStrdup (string : Bytes) : Trees (Option Address) :=
  allocateBlock allocator (.text (untilNul string))

def cJSONCreateNumber (number : Int) : Trees (Option Address) := do
  match ← cJSONNewItem allocator with
  | none => pure none
  | some address =>
      updateItem (fun item =>
        { item with
          type := .number
          valuedouble := number
          valueint := saturateInt number }) (some address)
      pure (some address)

def cJSONCreateString (string : Bytes) : Trees (Option Address) := do
  match ← cJSONNewItem allocator with
  | none => pure none
  | some address =>
      updateItem (fun item => { item with type := .string }) (some address)
      let valuestring ← cJSONStrdup allocator string
      updateItem (fun item => { item with valuestring }) (some address)
      match valuestring with
      | none =>
          cJSONDelete 1 (some address)
          pure none
      | some _ => pure (some address)

def cJSONCreateObject : Trees (Option Address) := do
  match ← cJSONNewItem allocator with
  | none => pure none
  | some address =>
      updateItem (fun item => { item with type := .object }) (some address)
      pure (some address)

/-! ## Members -/

/-- `suffix_object(prev, item)`. -/
def suffixObject (prev item : Option Address) : Trees PUnit := do
  updateItem (fun found => { found with next := item }) prev
  updateItem (fun found => { found with prev }) item

def addItemToArray (array item : Option Address) : Trees Bool := do
  if item = none ∨ array = none ∨ array = item then pure false
  else
    match (← loadItem array).child with
    | none =>
        updateItem (fun found => { found with child := item }) array
        updateItem (fun found => { found with prev := item, next := none })
          item
        pure true
    | some child =>
        match (← loadItem (some child)).prev with
        | none => pure true
        | some last =>
            suffixObject (some last) item
            updateItem (fun found => { found with prev := item })
              (← loadItem array).child
            pure true

/-- `add_item_to_object` with a name that is copied. -/
def addItemToObject (object : Option Address) (string : Bytes)
    (item : Option Address) : Trees Bool := do
  if object = none ∨ item = none ∨ object = item then pure false
  else
    match ← cJSONStrdup allocator string with
    | none => pure false
    | some newKey =>
        let found ← loadItem item
        if found.stringIsConst = false then
          freeBlock found.string
        updateItem (fun found =>
          { found with string := some newKey, stringIsConst := false }) item
        addItemToArray object item

/-- `cJSON_AddNumberToObject` and its siblings, which differ in what they
create. -/
def addToObject (create : Trees (Option Address)) (object : Option Address)
    (name : Bytes) : Trees (Option Address) := do
  let item ← create
  if (← addItemToObject allocator object name item) = true then pure item
  else
    cJSONDelete 1 item
    pure none

def cJSONAddNumberToObject (object : Option Address) (name : Bytes)
    (number : Int) : Trees (Option Address) :=
  addToObject allocator (cJSONCreateNumber allocator number) object name

def cJSONAddStringToObject (object : Option Address) (name string : Bytes) :
    Trees (Option Address) :=
  addToObject allocator (cJSONCreateString allocator string) object name

def cJSONAddObjectToObject (object : Option Address) (name : Bytes) :
    Trees (Option Address) :=
  addToObject allocator (cJSONCreateObject allocator) object name

end Creation

/-- `case_insensitive_strcmp(name, current->string) == 0`. -/
def namesItem (name : Bytes) (item : Item) : Trees Bool := do
  match item.string with
  | none => pure false
  | some string =>
      let bytes ← loadText (some string)
      pure (sameIgnoringCase name bytes)

/-- The loop of `get_object_item`. -/
def findItem (name : Bytes) : Nat → Option Address → Trees (Option Address)
  | _, none => pure none
  | 0, some _ => throw .stuck
  | turns + 1, some address => do
      let item ← loadItem (some address)
      if (← namesItem name item) = true then pure (some address)
      else findItem name turns item.next

/-- `cJSON_GetObjectItem` of an object that is not NULL, with so many turns of
its loop. -/
def cJSONGetObjectItem (turns : Nat) (object : Option Address)
    (name : Bytes) : Trees (Option Address) := do
  let item ← loadItem object
  findItem name turns item.child

end ShelterServer
