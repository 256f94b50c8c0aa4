import WireMesh.Value

/-!
This module contains the three shapes in which the value of a field is handed in: a text, a switch
with a value, and a group of fields. An object is a switch if its keys are exactly `enabled` and
`value`, and a group otherwise. The plain form of a field value is the value without any tag; it is
reached by tagging every member of a group and taking its plain form in turn.
-/

namespace WireMesh

inductive Field where
  | text (s : String)
  | toggle (flag value : Value)
  | group (members : List (String × Value))

namespace Field

def pair? (members : List (String × Value)) : Option (Value × Value) :=
  match Entries.get? members "enabled", Entries.get? members "value" with
  | some flag, some value =>
    if (Entries.keys members).all fun key => key == "enabled" || key == "value" then
      some (flag, value)
    else
      none
  | _, _ => none

/--
Tag an object. A pair whose flag is no truth value has no shape.
-/
def ofMembers? (members : List (String × Value)) : Option Field :=
  match pair? members with
  | some (.bool b, value) => some (.toggle (.bool b) value)
  | some _ => none
  | none => some (.group members)

def wireMembers (members : List (ConnectionId × Value)) : List (String × Value) :=
  members.map fun entry => (entry.1.wire, entry.2)

def ofValue? (v : Value) : Option Field :=
  match v with
  | .text s => some (.text s)
  | .mobility m => some (.text m.name)
  | .override o => some (.toggle (.bool o.enabled) o.value.toValue)
  | .hooks h => some (.group h.members)
  | .object members => ofMembers? members
  | .links members => some (.group (wireMembers members))
  | .textField s => some (.text s)
  | .toggleField flag value => some (.toggle flag value)
  | .groupField members => some (.group members)
  | _ => none

end Field

def Value.pair (flag value : Value) : Value :=
  .object [("enabled", flag), ("value", value)]

namespace Value

mutual

/--
The plain form of a value: that of the field value it is tagged as, or the value itself if it has
none of the three shapes.
-/
def toPlain : Value → Value
  | .mobility m => .text m.name
  | .override o => o.toValue
  | .hooks h => h.toValue
  | .object members =>
    match Field.ofMembers? members with
    | some (.toggle flag value) => pair flag value
    | some _ => .object (plainMembers members)
    | none => .object members
  | .links members => .object (plainLinks members)
  | .textField s => .text s
  | .toggleField flag value => pair flag value
  | .groupField members => .object (plainMembers members)
  | v => v
termination_by structural v => v

def plainMembers : List (String × Value) → List (String × Value)
  | [] => []
  | (key, v) :: rest => (key, toPlain v) :: plainMembers rest
termination_by structural members => members

def plainLinks : List (ConnectionId × Value) → List (String × Value)
  | [] => []
  | (id, v) :: rest => (id.wire, toPlain v) :: plainLinks rest
termination_by structural members => members

end

def isLineBreak (c : Char) : Bool :=
  c == '\r' || c == '\n'

def hasLineBreak (v : Value) : Bool :=
  match v.text? with
  | some s => s.toList.any isLineBreak
  | none => false

end Value

namespace Field

def toPlain : Field → Value
  | .text s => .text s
  | .toggle flag value => .pair flag value
  | .group members => .object (Value.plainMembers members)

def toValue : Field → Value
  | .text s => .textField s
  | .toggle flag value => .toggleField flag value
  | .group members => .groupField members

def content? : Field → Option Value
  | .text s => some (.text s)
  | .toggle _ value => some value
  | .group _ => none

def hasLineBreak (f : Field) : Bool :=
  match f with
  | .group members =>
    members.any fun entry => ((ofValue? entry.2).bind content?).any Value.hasLineBreak
  | f => f.content?.any Value.hasLineBreak

end Field

end WireMesh
