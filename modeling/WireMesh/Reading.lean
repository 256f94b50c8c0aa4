import WireMesh.Checked
import WireMesh.Value

/-!
This module contains the readers of the simple parts of a value and of the members of an object, and
those of the settings and hooks that peers and connections hold. Texts are never made of anything
else; yes and no may also be written as numbers or words; a setting's content stays the number or
text that it is.
-/

namespace WireMesh

namespace Value

def readText (v : Value) : Checked String :=
  match v.text? with
  | some s => .ok s
  | none => .fault .notText

def readNonemptyText (v : Value) : Checked { s : String // s ≠ "" } :=
  match v.text? with
  | some s => if h : s = "" then .fault .emptyText else .ok ⟨s, h⟩
  | none => .fault .notText

def readTextOrNull (v : Value) : Checked (Option String) :=
  match v with
  | .null => .ok none
  | v => some <$> v.readText

def readAny (v : Value) : Checked Value :=
  .ok v

def yesWords : List String := ["1", "true", "t", "yes", "y", "on"]

def noWords : List String := ["0", "false", "f", "no", "n", "off"]

def readBoolInt (n : Int) : Checked Bool :=
  if n = 1 then .ok true
  else if n = 0 then .ok false
  else .fault .unreadableBool

def readBool (v : Value) : Checked Bool :=
  match v with
  | .bool b => .ok b
  | .int n =>
    if Int64.minValue.toInt ≤ n ∧ n ≤ Int64.maxValue.toInt then readBoolInt n
    else .fault .notBool
  | .real x =>
    match x.toInt? with
    | some n =>
      if Int64.minValue.toInt < n ∧ n ≤ Int64.maxValue.toInt then readBoolInt n
      else .fault .notBool
    | none => .fault .notBool
  | v =>
    match v.text? with
    | some s =>
      if yesWords.contains s.toLower then .ok true
      else if noWords.contains s.toLower then .ok false
      else .fault .unreadableBool
    | none => .fault .notBool

def badContent (cause : Cause) : Checked OverrideValue :=
  .faulty [⟨["int"], cause⟩, ⟨["str"], .notText⟩]

def readContent (v : Value) : Checked OverrideValue :=
  match v with
  | .int n => .ok (.number n)
  | .bool b => .ok (.number (if b then 1 else 0))
  | .real x =>
    match x.toInt? with
    | some n =>
      if Int64.minValue.toInt < n ∧ n ≤ Int64.maxValue.toInt then .ok (.number n)
      else badContent .oversized
    | none => badContent .fractional
  | v =>
    match v.text? with
    | some s => .ok (.text s)
    | none => badContent .notInteger

def readMobility (v : Value) : Checked Mobility :=
  match v.text?.bind Mobility.ofName? with
  | some m => .ok m
  | none => .fault .notMobility

end Value

namespace Members

variable {α β γ : Type}

def required (members : List (String × Value)) (name : String) (read : Value → Checked α)
    : Checked α :=
  match Entries.get? members name with
  | some v => (read v).under name
  | none => (Checked.fault .missing).under name

def optional (members : List (String × Value)) (name : String) (read : Value → Checked α)
    (default : α) : Checked α :=
  match Entries.get? members name with
  | some v => (read v).under name
  | none => .ok default

def readEach (name : β → String) (read : Value → Checked α) (entries : List (β × Value))
    : Checked (List (β × α)) :=
  match entries with
  | [] => .ok []
  | (key, v) :: rest =>
    (fun a more => (key, a) :: more) <$> (read v).under (name key) <*> readEach name read rest

def rejectKeys (read : Value → Checked α) (entries : List (ConnectionId × Value))
    : Checked (List (String × α)) :=
  match entries with
  | [] => .ok []
  | (id, v) :: rest =>
    (fun _ a more => (id.wire, a) :: more)
      <$> ((Checked.fault .notText : Checked Unit).under "[key]").under id.wire
      <*> (read v).under id.wire
      <*> rejectKeys read rest

def readTable (read : Value → Checked α) (v : Value) : Checked (OrderedMap String α) :=
  match v with
  | .object members => OrderedMap.ofList <$> readEach id read members
  | .links members => OrderedMap.ofList <$> rejectKeys read members
  | _ => .fault .notObject

end Members

def Value.readModel {α : Type} (model : Model) (read : List (String × Value) → Checked α)
    (v : Value) : Checked α :=
  match v.members? with
  | some members => read members
  | none => .fault (.notModel model)

def Override.ofMembers (members : List (String × Value)) : Checked Override :=
  Override.mk
    <$> Members.optional members "enabled" Value.readBool false
    <*> Members.optional members "value" Value.readContent (.text "")

def Override.ofValue (v : Value) : Checked Override :=
  match v with
  | .override o => .ok o
  | v => v.readModel .override Override.ofMembers

def Hooks.ofMembers (members : List (String × Value)) : Checked Hooks :=
  Hooks.mk
    <$> Members.optional members Hook.preUp.key Override.ofValue .off
    <*> Members.optional members Hook.postUp.key Override.ofValue .off
    <*> Members.optional members Hook.preDown.key Override.ofValue .off
    <*> Members.optional members Hook.postDown.key Override.ofValue .off

def Hooks.ofValue (v : Value) : Checked Hooks :=
  match v with
  | .hooks h => .ok h
  | v => v.readModel .hooks Hooks.ofMembers

end WireMesh
