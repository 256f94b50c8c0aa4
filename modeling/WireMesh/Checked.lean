import WireMesh.ConnectionId
import WireMesh.Decimal

/-!
This module contains the outcome of reading a value from outside: either the thing that was read, or
everything that is wrong with the value. Parts that are read side by side all report their faults;
none of them stops at the first.
-/

namespace WireMesh

inductive Model where
  | override
  | hooks
  | connectionId
  | peer
  | connection
  | network
  | changeSet
  | verdict
deriving DecidableEq, Repr

namespace Model

def all : List Model :=
  [.override, .hooks, .connectionId, .peer, .connection, .network, .changeSet, .verdict]

def name : Model → String
  | .override => "EnabledValue"
  | .hooks => "Scripts"
  | .connectionId => "ConnectionId"
  | .peer => "Peer"
  | .connection => "Connection"
  | .network => "Network"
  | .changeSet => "ChangeSet"
  | .verdict => "ValidationResult"

def ofName? (name : String) : Option Model :=
  all.find? fun model => model.name == name

end Model

inductive Cause where
  | missing
  | notText
  | emptyText
  | notBool
  | unreadableBool
  | notInteger
  | fractional
  | oversized
  | notMobility
  | notObject
  | notModel (model : Model)
  | tooLong (error : Decimal.TooLong)
  | badConnectionId (error : ConnectionId.Error)
  | duplicateConnection (id : ConnectionId)
deriving DecidableEq

namespace Cause

def code : Cause → String
  | .missing => "missing"
  | .notText => "string_type"
  | .emptyText => "string_too_short"
  | .notBool => "bool_type"
  | .unreadableBool => "bool_parsing"
  | .notInteger => "int_type"
  | .fractional => "int_from_float"
  | .oversized => "int_parsing_size"
  | .notMobility => "enum"
  | .notObject => "dict_type"
  | .notModel _ => "model_type"
  | .tooLong _ | .badConnectionId _ | .duplicateConnection _ => "value_error"

def message : Cause → String
  | .missing => "Field required"
  | .notText => "Input should be a valid string"
  | .emptyText => "String should have at least 1 character"
  | .notBool => "Input should be a valid boolean"
  | .unreadableBool => "Input should be a valid boolean, unable to interpret input"
  | .notInteger => "Input should be a valid integer"
  | .fractional => "Input should be a valid integer, got a number with a fractional part"
  | .oversized => "Unable to parse input string as an integer, exceeded maximum size"
  | .notMobility => "Input should be 'static' or 'roaming'"
  | .notObject => "Input should be a valid dictionary"
  | .notModel model => "Input should be a valid dictionary or instance of " ++ model.name
  | .tooLong error => "Value error, " ++ error.message
  | .badConnectionId error => "Value error, " ++ error.message
  | .duplicateConnection id => "Value error, duplicate connection " ++ id.wire

end Cause

structure Fault where
  path : List String
  cause : Cause
deriving DecidableEq

inductive Checked (α : Type) where
  | ok (a : α)
  | faulty (faults : List Fault)
deriving DecidableEq

structure Rejection where
  model : Model
  faults : List Fault
deriving DecidableEq

namespace Checked

variable {α β : Type}

def map (f : α → β) : Checked α → Checked β
  | .ok a => .ok (f a)
  | .faulty faults => .faulty faults

def seq (f : Checked (α → β)) (x : Checked α) : Checked β :=
  match f, x with
  | .ok f, .ok a => .ok (f a)
  | .ok _, .faulty faults => .faulty faults
  | .faulty faults, .ok _ => .faulty faults
  | .faulty faults, .faulty more => .faulty (faults ++ more)

instance : Applicative Checked where
  map := map
  pure := .ok
  seq f x := seq f (x ())

def fault (cause : Cause) : Checked α :=
  .faulty [⟨[], cause⟩]

def under (name : String) : Checked α → Checked α
  | .ok a => .ok a
  | .faulty faults => .faulty (faults.map fun fault => ⟨name :: fault.path, fault.cause⟩)

def toExcept (model : Model) : Checked α → Except Rejection α
  | .ok a => .ok a
  | .faulty faults => .error ⟨model, faults⟩

@[simp]
theorem map_ok (f : α → β) (a : α) : f <$> Checked.ok a = .ok (f a) := rfl

@[simp]
theorem map_faulty (f : α → β) (faults : List Fault)
    : f <$> (Checked.faulty faults : Checked α) = .faulty faults := rfl

@[simp]
theorem seq_ok (f : α → β) (a : α) : (Checked.ok f <*> Checked.ok a) = .ok (f a) := rfl

theorem map_eq_ok_iff {f : α → β} {x : Checked α} {b : β}
    : f <$> x = .ok b ↔ ∃ a, x = .ok a ∧ f a = b := by
  cases x <;> simp

theorem seq_eq_ok_iff {f : Checked (α → β)} {x : Checked α} {b : β}
    : (f <*> x) = .ok b ↔ ∃ g a, f = .ok g ∧ x = .ok a ∧ g a = b := by
  change seq f x = .ok b ↔ _
  cases f <;> cases x <;> simp [seq]

@[simp]
theorem under_eq_ok_iff {name : String} {x : Checked α} {a : α}
    : x.under name = .ok a ↔ x = .ok a := by
  cases x <;> simp [under]

end Checked

end WireMesh
