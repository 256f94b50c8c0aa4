import WireMesh.Field.Check
import WireMesh.Value.Equality

/-!
This module contains change sets: the edits of one peer or connection that are waiting to be
committed. Every edit is recorded under its field. A rejected edit leaves a message; an accepted one
clears the message and leaves the new value, or a clearing mark if that is the committed value.
-/

namespace WireMesh

structure ChangeSet where
  errors : OrderedMap String (Option String)
  /--
  The value of each field that has had an accepted edit; null marks a field that is back at its
  committed value.
  -/
  changed : OrderedMap String Value

inductive EditState where
  | unchanged
  | changed
  | invalid
deriving DecidableEq, Repr

inductive Highlight where
  | unmarked
  | added
  | modified
  | invalid
deriving DecidableEq, Repr

namespace EditState

def all : List EditState := [.unchanged, .changed, .invalid]

def name : EditState → String
  | .unchanged => "unchanged"
  | .changed => "changed"
  | .invalid => "invalid"

def highlight (state : EditState) (isNew : Bool) : Highlight :=
  match state with
  | .unchanged => if isNew then .added else .unmarked
  | .changed => if isNew then .added else .modified
  | .invalid => .invalid

end EditState

def Highlight.name : Highlight → String
  | .unmarked => "plain"
  | .added => "added"
  | .modified => "modified"
  | .invalid => "invalid"

/--
The form of a value in which it is compared with another: without a tag, and as an object if it has
been read already. Members stay as they are.
-/
def Value.untagged (v : Value) : Value :=
  match v with
  | .mobility m => .text m.name
  | .override o => o.toValue
  | .hooks h => h.toValue
  | .peer p => p.toValue
  | .connection c => c.toValue
  | .textField s => .text s
  | .toggleField flag value => .pair flag value
  | .groupField members => (Field.group members).toPlain
  | v => v

namespace ChangeSet

def empty : ChangeSet := ⟨∅, ∅⟩

instance : EmptyCollection ChangeSet := ⟨empty⟩

instance : Inhabited ChangeSet := ⟨empty⟩

def ofMembers (members : List (String × Value)) : Checked ChangeSet :=
  ChangeSet.mk
    <$> Members.optional members "errors" (Members.readTable Value.readTextOrNull) ∅
    <*> Members.optional members "changed_fields" (Members.readTable Value.readAny) ∅

def ofValue (v : Value) : Checked ChangeSet :=
  v.readModel .changeSet ofMembers

def hasErrors (cs : ChangeSet) : Bool :=
  cs.errors.values.any Option.isSome

def pending (cs : ChangeSet) : OrderedMap String Value :=
  cs.changed.filter fun _ v => !v.isNull

def failing (cs : ChangeSet) : List String :=
  (cs.errors.entries.filterMap fun entry =>
    if entry.2.any fun message => message != "" then some entry.1 else none).mergeSort
      fun a b => decide (a ≤ b)

def record (cs : ChangeSet) (field : String) (verdict : Verdict) (committed : Value)
    : EditState × ChangeSet :=
  if verdict.accepted then
    if verdict.value.untagged.same committed.untagged then
      (.unchanged, ⟨cs.errors.insert field none, cs.changed.insert field .null⟩)
    else
      (.changed, ⟨cs.errors.insert field none, cs.changed.insert field verdict.value⟩)
  else
    (.invalid, ⟨cs.errors.insert field (some verdict.message), cs.changed⟩)

def track (cs : ChangeSet) (field ruleField : String) (v committed : Value)
    (context : Option Context) : Except Decimal.TooManyDigits (EditState × ChangeSet) :=
  match validate ruleField v context with
  | .error e => .error e
  | .ok ruling => .ok (cs.record field ruling.verdict committed)

end ChangeSet

def Verdict.ofMembers (members : List (String × Value)) : Checked Verdict :=
  Verdict.mk
    <$> Members.required members "status" Value.readBool
    <*> Members.optional members "message" Value.readText ""
    <*> Members.optional members "value" Value.readAny .null

def Verdict.ofValue (v : Value) : Checked Verdict :=
  v.readModel .verdict ofMembers

end WireMesh
