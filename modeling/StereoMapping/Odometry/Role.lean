import StereoMapping.Component.Registry

/-!
# `Odometry.Role` — the roles of a reconstruction

A reconstruction is set up from a registry: every module of the registry is configured, every role is checked,
and only then are components taken out. If anything fails before, nothing is taken.

## Contents
- `Role`, `Registry.checkRoles`, `Registry.prepare`: the roles of a reconstruction, checked before anything is taken.
- `Registry.Taking`: components taken one after the other.
- `Registry.assemble`: what every reconstruction does when it is set up.
-/

namespace StereoMapping

variable {S D : Type}

/-- A part to be played by a component. -/
structure Role where
  name : String
  capability : Capability
  mandatory : Bool
  deriving DecidableEq

namespace Role

/-- A role that has to be filled. -/
def required (name : String) (capability : Capability) : Role := ⟨name, capability, true⟩

/-- A role that may be left empty. -/
def optional (name : String) (capability : Capability) : Role := ⟨name, capability, false⟩

end Role

namespace Registry

/-- Every role is filled as it should be; the error is that of the first that is not. -/
def checkRoles (r : Registry S D) : List Role → Except Error Unit
  | [] => .ok ()
  | role :: rest =>
    match r.check role.name role.capability.name role.mandatory with
    | .ok () => r.checkRoles rest
    | .error e => .error e

/-- Configures every module and checks the roles. -/
def prepare (r : Registry S D) (roles : List Role) : Registry S D × Except Error Unit :=
  match r.configureAll with
  | (r, .ok ()) => (r, r.checkRoles roles)
  | (r, .error e) => (r, .error e)

/-- A taking from a registry. What was taken before a failure stays taken. -/
def Taking (S D : Type) (α : Type 1) : Type 1 := Registry S D → Registry S D × Except Error α

/-- Takings in sequence, up to the first failure. -/
instance : Monad (Taking S D) where
  pure a := fun r => (r, .ok a)
  bind t f := fun r =>
    match t r with
    | (rest, .ok a) => f a rest
    | (rest, .error e) => (rest, .error e)

/-- Takes the component of a role, which may be empty. -/
def takingOptional (name : String) (c : Capability) : Taking S D (Option (ComponentOf S D c)) :=
  fun r => r.takeOptional name c

/-- Takes the component of a role. -/
def taking (name : String) (c : Capability) : Taking S D (ComponentOf S D c) := fun r => r.take name c

/-- Sets something up from a registry: the settings are checked, the registry is prepared, the components are taken
out of it, and it is built of them. -/
def assemble {α β : Type 1} (validated : Except Error Unit) (roles : List Role) (taking : Taking S D α)
    (build : α → Except Error β) (r : Registry S D) : Registry S D × Except Error β :=
  match validated with
  | .error e => (r, .error e)
  | .ok () =>
    match r.prepare roles with
    | (r, .error e) => (r, .error e)
    | (r, .ok ()) =>
      match taking r with
      | (rest, .error e) => (rest, .error e)
      | (rest, .ok components) => (rest, build components)

end Registry

end StereoMapping
