import Gateway.Json.Document

/-!
# Gateway.Config.Fields — declarations in documents

A declaration has named fields. It is written as an object, in which no field may be unknown or
come twice, or as an array of the fields in their order, which may end early. Readers give
nothing for what is no declaration of their kind.
-/

set_option autoImplicit false

namespace Gateway

namespace Document

def text? : Document → Option String
  | .string s => some s
  | _ => none

/-- An integer below a bound. -/
def nat? (bound : Nat) : Document → Option Nat
  | .number n => n.toNat?.filter (· < bound)
  | _ => none

def list? {α : Type} (item : Document → Option α) : Document → Option (List α)
  | .array items => items.mapM item
  | _ => none

/-- Something that null leaves out. -/
def optional? {α : Type} (item : Document → Option α) : Document → Option (Option α)
  | .null => some none
  | d => (item d).map some

/-- Puts an item under a key into a list that is sorted by key; an item already there is
replaced. -/
def putSorted {α : Type} (key : String) (item : α) : List (String × α) → List (String × α)
  | [] => [(key, item)]
  | (k, v) :: rest =>
    if key < k then (key, item) :: (k, v) :: rest
    else if key = k then (key, item) :: rest
    else (k, v) :: putSorted key item rest

/-- Items of one kind by key, sorted by key; of items with one key the last counts. -/
def table? {α : Type} (item : Document → Option α) : Document → Option (List (String × α))
  | .object members => members.foldlM (fun table (key, d) => do
      let a ← item d
      return putSorted key a table) []
  | _ => none

/-- The given fields of a declaration. -/
abbrev Fields := List (String × Document)

/-- The fields of a declaration with these names. -/
def fields? (names : List String) : Document → Option Fields
  | .object members =>
    let keys := members.map (·.1)
    if keys.all names.contains && keys.eraseDups.length == keys.length then some members else none
  | .array items => if items.length ≤ names.length then some (names.zip items) else none
  | _ => none

namespace Fields

/-- A field that must be given. -/
def required? {α : Type} (fields : Fields) (name : String) (item : Document → Option α) :
    Option α :=
  (fields.lookup name).bind item

/-- A field that has a default. -/
def default? {α : Type} (fields : Fields) (name : String) (value : α)
    (item : Document → Option α) : Option α :=
  ((fields.lookup name).map item).getD (some value)

/-- A field that may be left out. -/
def optional? {α : Type} (fields : Fields) (name : String) (item : Document → Option α) :
    Option (Option α) :=
  fields.default? name none (Document.optional? item)

end Fields

end Document

end Gateway
