import Flowgraph.Json.Codec
/-!
# Records

A record is described once, as a row of fields, and the description both reads and writes it. A
record is read from an object, whose members come in any order and may be strange to it, or from an
array, which gives the fields in their order.
-/
namespace Flowgraph.Json

structure Field (α : Type) where
  name : String
  aliases : List String := []
  /-- The value of a field that is not given. A field that has none is required. -/
  absent : Option α := none
  read : Doc → Except Fault α
  /-- A value that is not written gives nothing. -/
  write : α → Option Doc

namespace Field
variable {α : Type}

def required (name : String) (c : Codec α) (aliases : List String := []) : Field α where
  name := name
  aliases := aliases
  read := c.read
  write a := some (c.write a)

def defaulted (name : String) (c : Codec α) (absent : α) : Field α where
  name := name
  absent := some absent
  read := c.read
  write a := some (c.write a)

/-- A field that may be null or left out. Nothing is written for nothing. -/
def optional (name : String) (c : Codec α) (aliases : List String := []) : Field (Option α) where
  name := name
  aliases := aliases
  absent := some none
  read := c.nullable.read
  write a := a.map c.write

def readOnly (f : Field α) : Field α := { f with write := fun _ => none }

def goesBy (f : Field α) (n : String) : Bool := n == f.name || f.aliases.contains n

end Field

abbrev Tuple : List Type → Type
  | [] => Unit
  | α :: τ => α × Tuple τ

/-- What is known of a row of fields while a record is being read. -/
abbrev Slots : List Type → Type
  | [] => Unit
  | α :: τ => Option α × Slots τ

inductive Fields : List Type → Type 1 where
  | nil : Fields []
  | cons {α : Type} {τ : List Type} (first : Field α) (rest : Fields τ) : Fields (α :: τ)

namespace Fields
variable {τ : List Type}

def count : {τ : List Type} → Fields τ → Nat
  | _, nil => 0
  | _, cons _ rest => rest.count + 1

def blank : {τ : List Type} → Fields τ → Slots τ
  | _, nil => ()
  | _, cons _ rest => (none, rest.blank)

/-- Puts the value of a member into its field. `none` when no field goes by the name. A field that
has a value already is not read again. -/
def place : {τ : List Type} → Fields τ → Slots τ → String → Doc → Option (Except Fault (Slots τ))
  | _, nil, _, _, _ => none
  | _, cons f rest, (slot, slots), n, d =>
    if f.goesBy n then
      match slot with
      | some _ => some (.error (.duplicateField f.name))
      | none => some ((f.read d).map fun a => (some a, slots))
    else (rest.place slots n d).map fun r => r.map fun slots => (slot, slots)

/-- The values of all fields. The first field that lacks one is missing. -/
def values : {τ : List Type} → Fields τ → Slots τ → Except Fault (Tuple τ)
  | _, nil, _ => .ok ()
  | _, cons f rest, (slot, slots) =>
    match slot.or f.absent with
    | some a => (rest.values slots).map fun b => (a, b)
    | none => .error (.missingField f.name)

/-- Goes through the members of an object. A member that no field goes by need only be whole. -/
def readMembers (fs : Fields τ) : Slots τ → List (Name × Doc) → Except Fault (Slots τ)
  | slots, [] => .ok slots
  | _, (none, _) :: _ => .error .malformed
  | slots, (some n, d) :: ms =>
    match fs.place slots n d with
    | none => if d.isWhole then readMembers fs slots ms else .error .malformed
    | some (.error f) => .error f
    | some (.ok slots) => readMembers fs slots ms

/-- Goes through the items of an array, a field for each. `index` counts the fields before. -/
def readItems (expected : String) :
    {τ : List Type} → Fields τ → (index : Nat) → List Doc → Ending → Except Fault (Tuple τ)
  | _, nil, _, [], .closed => .ok ()
  | _, nil, _, _, _ => .error .malformed
  | _, cons f rest, index, d :: ds, ending =>
    match f.read d with
    | .error e => .error e
    | .ok a => (readItems expected rest (index + 1) ds ending).map fun b => (a, b)
  | _, cons _ _, _, [], .cut => .error .malformed
  | _, cons f rest, index, [], .closed =>
    match f.absent with
    | some a => (readItems expected rest (index + 1) [] .closed).map fun b => (a, b)
    | none => .error (.invalidLength index expected)

def write : {τ : List Type} → Fields τ → Tuple τ → List (String × Doc)
  | _, nil, _ => []
  | _, cons f rest, (a, b) =>
    match f.write a with
    | some d => (f.name, d) :: rest.write b
    | none => rest.write b

/-- The codec of a record that goes by a title in complaints. -/
def codec (fs : Fields τ) (title : String) : Codec (Tuple τ) where
  read
    | .object ms ending =>
      match fs.readMembers fs.blank ms with
      | .error f => .error f
      | .ok slots => if ending = .closed then fs.values slots else .error .malformed
    | .misnamed _ => .error .malformed
    | .array ds ending => readItems s!"struct {title} with {fs.count} elements" fs 0 ds ending
    | d => .error (d.mismatch s!"struct {title}")
  write a := .record (fs.write a)

end Fields
end Flowgraph.Json
