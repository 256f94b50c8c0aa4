import WireMesh.Binary
import WireMesh.ConnectionId
import WireMesh.Mesh
import WireMesh.OrderedMap

/-!
This module contains the values that are handed in from outside: trees of texts, numbers, lists and
objects, in which parts that have been read already may stand as they are. Settings, hooks,
mobilities, peers and connections are such parts, and so are field values that carry their own tag.
-/

namespace WireMesh

inductive Value where
  | null
  | bool (b : Bool)
  | int (n : Int)
  | real (x : Binary)
  | text (s : String)
  | list (items : List Value)
  | object (members : List (String × Value))
  /--
  An object whose keys are connection ids.
  -/
  | links (members : List (ConnectionId × Value))
  | mobility (m : Mobility)
  | override (o : Override)
  | hooks (h : Hooks)
  | peer (p : Peer)
  | connection (c : Connection)
  | textField (s : String)
  | toggleField (flag value : Value)
  | groupField (members : List (String × Value))

namespace Value

instance : Inhabited Value := ⟨.null⟩

def ofMembers (members : List (String × Value)) : Value :=
  .object (OrderedMap.ofList members).entries

def text? : Value → Option String
  | .text s => some s
  | .mobility m => some m.name
  | _ => none

def members? : Value → Option (List (String × Value))
  | .object members => some members
  | .links _ => some []
  | _ => none

def isNull : Value → Bool
  | .null => true
  | _ => false

/--
The number that a value is; true counts as one and false as zero.
-/
def number? : Value → Option Rat
  | .bool b => some (if b then 1 else 0)
  | .int n => some n
  | .real x => some x.toRat
  | _ => none

/--
Whether the value counts as yes where a yes or no is wanted: null, false, zero and everything empty
do not.
-/
def isTruthy : Value → Bool
  | .null => false
  | .bool b => b
  | .int n => n != 0
  | .real x => x.significand != 0
  | .text s => !s.isEmpty
  | .list items => !items.isEmpty
  | .object members => !members.isEmpty
  | .links members => !members.isEmpty
  | _ => true

mutual

def isPlain : Value → Bool
  | .null | .bool _ | .int _ | .real _ | .text _ => true
  | .list items => arePlain items
  | .object members => decide (Entries.keys members).Nodup && haveMembersPlain members
  | _ => false
termination_by structural v => v

def arePlain : List Value → Bool
  | [] => true
  | v :: rest => isPlain v && arePlain rest
termination_by structural items => items

def haveMembersPlain : List (String × Value) → Bool
  | [] => true
  | (_, v) :: rest => isPlain v && haveMembersPlain rest
termination_by structural members => members

end

theorem haveMembersPlain_iff {members : List (String × Value)}
    : haveMembersPlain members = true ↔ ∀ entry ∈ members, entry.2.isPlain = true := by
  induction members with
  | nil => simp [haveMembersPlain]
  | cons entry rest ih =>
    obtain ⟨key, v⟩ := entry
    rw [haveMembersPlain, Bool.and_eq_true]
    rw [ih]
    rw [List.forall_mem_cons]

theorem isPlain_object_iff {members : List (String × Value)}
    : (object members).isPlain = true
        ↔
      (Entries.keys members).Nodup ∧ ∀ entry ∈ members, entry.2.isPlain = true := by
  rw [isPlain, Bool.and_eq_true, decide_eq_true_eq]
  rw [haveMembersPlain_iff]

end Value

def OverrideValue.toValue : OverrideValue → Value
  | .number n => .int n
  | .text s => .text s

def Override.members (o : Override) : List (String × Value) :=
  [("enabled", .bool o.enabled), ("value", o.value.toValue)]

def Override.toValue (o : Override) : Value :=
  .object o.members

def Hooks.members (h : Hooks) : List (String × Value) :=
  Hook.all.map fun hook => (hook.key, (h.get hook).toValue)

def Hooks.toValue (h : Hooks) : Value :=
  .object h.members

end WireMesh
