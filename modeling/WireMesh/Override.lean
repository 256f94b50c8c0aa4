import WireMesh.Decimal

/-!
This module contains the parts that peers and connections are made of: optional settings, the four
hooks, and the mobility of a peer.
-/

namespace WireMesh

inductive Mobility where
  | static
  | roaming
deriving DecidableEq, Repr

def Mobility.name : Mobility → String
  | .static => "static"
  | .roaming => "roaming"

def Mobility.all : List Mobility := [.static, .roaming]

def Mobility.ofName? (name : String) : Option Mobility :=
  all.find? fun m => m.name == name

inductive OverrideValue where
  | number (n : Int)
  | text (s : String)
deriving DecidableEq, Repr

def OverrideValue.line : OverrideValue → Except Decimal.TooLong String
  | .number n => Decimal.write n
  | .text s => .ok s

/--
An optional setting: its value counts only while it is enabled.
-/
structure Override where
  enabled : Bool
  value : OverrideValue
deriving DecidableEq, Repr

def Override.off : Override := ⟨false, .text ""⟩

instance : Inhabited Override := ⟨Override.off⟩

inductive Hook where
  | preUp
  | postUp
  | preDown
  | postDown
deriving DecidableEq, Repr

namespace Hook

def all : List Hook := [.preUp, .postUp, .preDown, .postDown]

def key : Hook → String
  | .preUp => "pre_up"
  | .postUp => "post_up"
  | .preDown => "pre_down"
  | .postDown => "post_down"

def directive : Hook → String
  | .preUp => "PreUp"
  | .postUp => "PostUp"
  | .preDown => "PreDown"
  | .postDown => "PostDown"

def ofKey? (key : String) : Option Hook :=
  all.find? fun hook => hook.key == key

theorem mem_all (hook : Hook) : hook ∈ all := by
  cases hook <;> decide

theorem ofKey?_key (hook : Hook) : ofKey? hook.key = some hook := by
  cases hook <;> decide

end Hook

structure Hooks where
  preUp : Override
  postUp : Override
  preDown : Override
  postDown : Override
deriving DecidableEq, Repr

namespace Hooks

def none : Hooks := ⟨.off, .off, .off, .off⟩

def get (hooks : Hooks) : Hook → Override
  | .preUp => hooks.preUp
  | .postUp => hooks.postUp
  | .preDown => hooks.preDown
  | .postDown => hooks.postDown

end Hooks

end WireMesh
