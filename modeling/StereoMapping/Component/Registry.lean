import StereoMapping.Component.Basic

/-!
# `Component.Registry` — components by the role they play

A reconstruction takes its components out of a registry by the names of their roles. A role that is not
filled, or is filled by a component of another capability, is an error; the component then stays.

## Contents
- `Registry`: modules in the order of their roles; `register`, `find?`, `contains`, `roles`.
- `Registry.check`: what a role holds, without taking it.
- `Registry.takeOptional`, `Registry.take`.
- `Registry.attachFile`, `Registry.configureAll`.
-/

namespace StereoMapping

variable {S D : Type}

/-- Modules in increasing order of their roles. -/
structure Registry (S D : Type) : Type 1 where
  entries : List (String × Module S D)

namespace Registry

def empty : Registry S D := ⟨[]⟩

/-- The module of a role. -/
def find? (r : Registry S D) (role : String) : Option (Module S D) :=
  (r.entries.find? fun (name, _) => name == role).map Prod.snd

def contains (r : Registry S D) (role : String) : Bool := r.entries.any fun (name, _) => name == role

def roles (r : Registry S D) : List String := r.entries.map Prod.fst

/-- Entries with a module at its place, instead of the one of its role. -/
def insert {M : Type _} (role : String) (m : M) : List (String × M) → List (String × M)
  | [] => [(role, m)]
  | (name, held) :: rest =>
    if role < name then (role, m) :: (name, held) :: rest
    else if role = name then (role, m) :: rest
    else (name, held) :: insert role m rest

/-- The registry with a module in a role, instead of the one that played it. -/
def register (r : Registry S D) (role : String) (m : Module S D) : Registry S D :=
  ⟨insert role m r.entries⟩

/-- The registry without the module of a role. -/
def erase (r : Registry S D) (role : String) : Registry S D :=
  ⟨r.entries.filter fun (name, _) => name != role⟩

/-- A role holds a module of the capability of a name. An empty role is an error if it is mandatory. -/
def check (r : Registry S D) (role kind : String) (mandatory : Bool) : Except Error Unit :=
  match r.find? role with
  | none => if mandatory then throw (.missingModule role) else pure ()
  | some m => if m.capability.name = kind then pure () else throw (.wrongModuleKind role kind)

/-- Takes the component of a role out, if the role is filled. -/
def takeOptional (r : Registry S D) (role : String) (c : Capability) :
    Registry S D × Except Error (Option (ComponentOf S D c)) :=
  match r.find? role with
  | none => (r, .ok none)
  | some m =>
    match m.as? c with
    | some component => (r.erase role, .ok (some component))
    | none => (r, .error (.wrongModuleKind role c.name))

/-- Takes the component of a role out. -/
def take (r : Registry S D) (role : String) (c : Capability) :
    Registry S D × Except Error (ComponentOf S D c) :=
  match r.takeOptional role c with
  | (rest, .ok (some component)) => (rest, .ok component)
  | (rest, .ok none) => (rest, .error (.missingModule role))
  | (rest, .error e) => (rest, .error e)

/-- Sets the settings file of the module of a role. -/
def attachFile (r : Registry S D) (role : String) (file : SettingsFile) : Except Error (Registry S D) :=
  if r.contains role then
    .ok ⟨r.entries.map fun (name, m) => (name, if name = role then m.attachFile file else m)⟩
  else .error (.missingModule role)

/-- Configures modules one after the other, up to the first failure. -/
def configureEntries : List (String × Module S D) → List (String × Module S D) × Except Error Unit
  | [] => ([], .ok ())
  | (role, m) :: rest =>
    match m.configured with
    | (m, .error e) => ((role, m) :: rest, .error e)
    | (m, .ok ()) =>
      let (rest, result) := configureEntries rest
      ((role, m) :: rest, result)

/-- Configures every module in the order of the roles, up to the first failure. -/
def configureAll (r : Registry S D) : Registry S D × Except Error Unit :=
  let (entries, result) := configureEntries r.entries
  (⟨entries⟩, result)

end Registry

end StereoMapping
