import DryRun.Script.SyscallId
import DryRun.Table

/-!
# Registries of system calls

A registry lists the system calls a machine knows, by number.  Every call is registered under one
or both of two name spaces, with one price and one handler.
-/

set_option autoImplicit false

namespace DryRun

/-- The first part of the name of a system call. -/
inductive NameSpace where
  /-- The current names. -/
  | system
  /-- The older names. -/
  | neo
deriving DecidableEq

/-- The text of a name space. -/
def NameSpace.text : NameSpace → String
  | .system => "System"
  | .neo => "Neo"

/-- A registered name. -/
structure SyscallEntry (η : Type) where
  /-- The name space. -/
  space : NameSpace
  /-- The rest of the name. -/
  method : String
  /-- The number of the name. -/
  id : Nat
  /-- The price in base units; none if it depends on the operands. -/
  price : Option Int
  /-- What is to be done. -/
  handler : η

/-- A method's name in a name space. -/
def NameSpace.name (space : NameSpace) (method : String) : String :=
  space.text ++ "." ++ method

/-- The whole name of an entry. -/
def SyscallEntry.name {η : Type} (entry : SyscallEntry η) : String :=
  entry.space.name entry.method

/-- The system calls of a machine, in order of registration. -/
abbrev Registry (η : Type) := Table (SyscallEntry.id : SyscallEntry η → Nat)

/-- A cause for which a name cannot be registered. -/
inductive RegistryFault where
  /-- The name has characters other than ASCII. -/
  | nameNotAscii
  /-- There is an entry of the same number. -/
  | duplicate (name : String)
deriving DecidableEq

/-- The wording of each cause. -/
def RegistryFault.message : RegistryFault → String
  | .nameNotAscii => "syscall name is not ASCII"
  | .duplicate name => s!"duplicate interop id for {name}"

namespace Registry

variable {η : Type}

/-- The number of a name. -/
def idOf (name : String) : Except RegistryFault Nat :=
  match SyscallId.ascii? name with
  | some raw => .ok (SyscallId.ofName raw)
  | none => .error .nameNotAscii

/-- Register a method in one name space. -/
def registerIn (method : String) (handler : η) (price : Option Int) (space : NameSpace) :
    EStateM RegistryFault (Registry η) Unit := do
  let name := space.name method
  match idOf name with
  | .error fault => throw fault
  | .ok id =>
    if (← get).contains id then throw (.duplicate name)
    modify fun registry => Table.insert registry { space, method, id, price, handler }

/-- Register a method in name spaces, one after the other; the first failure stops. -/
def register (method : String) (handler : η) (price : Option Int) (spaces : List NameSpace) :
    EStateM RegistryFault (Registry η) Unit :=
  spaces.forM (registerIn method handler price)

/-- The registry that a registration leaves when it begins with nothing, whether it succeeds or
not. -/
def filledBy (registration : EStateM RegistryFault (Registry η) Unit) : Registry η :=
  match registration.run .empty with
  | .ok _ registry => registry
  | .error _ registry => registry

/-- The entry of a name. -/
def get (registry : Registry η) (name : String) :
    Except RegistryFault (Option (SyscallEntry η)) := do
  return registry.find? (← idOf name)

/-- The names, sorted. -/
def names (registry : Registry η) : List String :=
  (registry.rows.map SyscallEntry.name).mergeSort fun a b => a ≤ b

end Registry

end DryRun
