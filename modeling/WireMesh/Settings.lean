import WireMesh.Decimal.Literal

/-!
This module contains the settings of the program and how they are read from the environment.
-/

namespace WireMesh

structure Settings where
  generatorName : String
  generatorVersion : String
  interfaceLength : Int
deriving DecidableEq, Repr

namespace Settings

def default : Settings := ⟨"wgmesh", "0.1.0", 24⟩

def ofEnvironment (lookup : String → Option String) : Except Decimal.Literal.Error Settings :=
  let generatorName := (lookup "WGMESH_GENERATOR_NAME").getD default.generatorName
  let generatorVersion := (lookup "WGMESH_VERSION").getD default.generatorVersion
  match lookup "WGMESH_INTERFACE_PREFIX" with
  | none => .ok ⟨generatorName, generatorVersion, default.interfaceLength⟩
  | some text =>
    match Decimal.Literal.read text with
    | .ok n => .ok ⟨generatorName, generatorVersion, n⟩
    | .error e => .error e

end Settings

end WireMesh
