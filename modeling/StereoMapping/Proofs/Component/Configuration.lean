import StereoMapping.Component.Registry
import StereoMapping.Proofs.Component.Family

/-!
# `Proofs.Component.Configuration` — configuring a registry stops cleanly

A registry is configured role by role in alphabetical order, up to the first module whose settings cannot be loaded or
are not valid. A built-in component takes all of its new settings or none of them. What configuring leaves is
described by the relation `Settles`, one rule per thing that can happen to a module; everything else is read off it by
induction, in the order in which the modules are met.

## Contents
- `Installed`: a built-in component in some state; `Installed.Accepts`, `Installed.Refuses`.
- `Settles`: the modules before and after, and the result; `exists_settles`, `Settles.again`, `Settles.stopped`.
- `Shelf`: a registry of built-in components; `Shelf.exists_of_stocked`, how it is filled.
- `Shelf.configuration_stops_cleanly`: what configuring leaves of a registry of built-in components.
-/

namespace StereoMapping

/-- A built-in component in some state, with or without a settings file. -/
structure Installed (S D : Type) where
  kind : Builtin
  worker : Worker (kind.Params S) (kind.Slots S D) (kind.capability.Output S D)

variable {S D : Type} [Scalar S] [Scalar D] [Precision S D]

/-! ## One component -/

namespace Installed

/-- The settings that are to be in force: those of the file, or the current ones if there is no file. -/
def wanted (m : Installed S D) : Except Error (m.kind.Params S) :=
  match m.worker.file with
  | some file => file.load Settings.codec
  | none => .ok m.worker.settings

/-- The settings to be in force are there and valid. -/
structure Accepts (m : Installed S D) (p : m.kind.Params S) : Prop where
  wanted : m.wanted = .ok p
  valid : Settings.validate p = .ok ()

/-- The settings to be in force cannot be loaded or are not valid. -/
inductive Refuses (m : Installed S D) (e : Error) : Prop
  | unloaded (h : m.wanted = .error e) : Refuses m e
  | invalid {p : m.kind.Params S} (hwanted : m.wanted = .ok p) (h : Settings.validate p = .error e) : Refuses m e

theorem accepts_or_refuses (m : Installed S D) : (∃ p, m.Accepts p) ∨ ∃ e, m.Refuses e := by
  cases hwanted : m.wanted with
  | error e => exact .inr ⟨e, .unloaded hwanted⟩
  | ok p =>
    cases hvalid : Settings.validate p with
    | error e => exact .inr ⟨e, .invalid hwanted hvalid⟩
    | ok _ => exact .inl ⟨p, hwanted, hvalid⟩

theorem Accepts.not_refuses {m : Installed S D} {p : m.kind.Params S} {e : Error} (h : m.Accepts p) :
    ¬ m.Refuses e := by
  intro hrefuses
  cases hrefuses with
  | unloaded herror =>
    rw [h.wanted] at herror
    cases herror
  | invalid hwanted herror =>
    rw [h.wanted] at hwanted
    obtain rfl := Except.ok.inj hwanted
    rw [h.valid] at herror
    cases herror

/-- The component with other settings. -/
def withSettings (m : Installed S D) (p : m.kind.Params S) : Installed S D :=
  { m with worker := { m.worker with settings := p } }

/-- What was accepted is accepted again. -/
theorem Accepts.again {m : Installed S D} {p : m.kind.Params S} (h : m.Accepts p) : (m.withSettings p).Accepts p := by
  refine ⟨?_, h.valid⟩
  have hwanted := h.wanted
  unfold Installed.wanted at hwanted ⊢
  show (match m.worker.file with
    | some file => file.load Settings.codec
    | none => .ok p) = .ok p
  cases hfile : m.worker.file with
  | none => rfl
  | some file =>
    rw [hfile] at hwanted
    exact hwanted

theorem reload_eq (m : Installed S D) : SettingsFile.reload m.worker.file m.worker.settings =
    m.wanted.bind fun p => (Settings.validate p).bind fun _ => .ok p := by
  unfold SettingsFile.reload wanted
  cases m.worker.file <;> rfl

variable [Decomposing D]

def toModule (m : Installed S D) : Module S D := ⟨m.kind.capability, m.kind.algorithm.component m.worker⟩

theorem configured_toModule (m : Installed S D) : m.toModule.configured =
    (⟨m.kind.capability, m.kind.algorithm.component m.worker.configure.1⟩, m.worker.configure.2) := rfl

/-- Settings that are accepted are taken as a whole … -/
theorem Accepts.configured {m : Installed S D} {p : m.kind.Params S} (h : m.Accepts p) :
    m.toModule.configured = ((m.withSettings p).toModule, .ok ()) := by
  have hreload : SettingsFile.reload m.worker.file m.worker.settings = .ok p := by
    rw [reload_eq, h.wanted]
    show (Settings.validate p).bind _ = _
    rw [h.valid]
    rfl
  rw [configured_toModule, Worker.configure, hreload]
  rfl

/-- … and others change nothing. -/
theorem Refuses.configured {m : Installed S D} {e : Error} (h : m.Refuses e) :
    m.toModule.configured = (m.toModule, .error e) := by
  have hreload : SettingsFile.reload m.worker.file m.worker.settings = .error e := by
    rw [reload_eq]
    cases h with
    | unloaded herror =>
      rw [herror]
      rfl
    | invalid hwanted herror =>
      rw [hwanted]
      show (Settings.validate _).bind _ = _
      rw [herror]
      rfl
  rw [configured_toModule, Worker.configure, hreload]
  rfl

end Installed

/-! ## Components in their order -/

/-- Configuring the first modules as long as they accept their settings. -/
inductive Settles : List (String × Installed S D) → List (String × Installed S D) → Except Error Unit → Prop
  | done : Settles [] [] (.ok ())
  | refused {role : String} {m : Installed S D} {e : Error} {rest : List (String × Installed S D)}
      (h : m.Refuses e) : Settles ((role, m) :: rest) ((role, m) :: rest) (.error e)
  | accepted {role : String} {m : Installed S D} {p : m.kind.Params S}
      {rest next : List (String × Installed S D)} {result : Except Error Unit} (h : m.Accepts p)
      (later : Settles rest next result) : Settles ((role, m) :: rest) ((role, m.withSettings p) :: next) result

theorem exists_settles (places : List (String × Installed S D)) : ∃ next result, Settles places next result := by
  induction places with
  | nil => exact ⟨_, _, .done⟩
  | cons place rest ih =>
    obtain ⟨role, m⟩ := place
    rcases m.accepts_or_refuses with ⟨p, h⟩ | ⟨e, h⟩
    · obtain ⟨next, result, hrest⟩ := ih
      exact ⟨_, _, .accepted h hrest⟩
    · exact ⟨_, _, .refused h⟩

namespace Settles

variable {places next : List (String × Installed S D)} {result : Except Error Unit}

theorem map_fst (h : Settles places next result) : next.map Prod.fst = places.map Prod.fst := by
  induction h with
  | done => rfl
  | refused _ => rfl
  | accepted _ _ ih => simp [ih]

/-- A second time, nothing changes. -/
theorem again (h : Settles places next result) : Settles next next result := by
  induction h with
  | done => exact .done
  | refused h => exact .refused h
  | accepted h _ ih => exact .accepted h.again ih

theorem ok_iff (h : Settles places next result) :
    result = .ok () ↔ ∀ place ∈ places, ∃ p, place.2.Accepts p := by
  induction h with
  | done => simp
  | refused h =>
    refine iff_of_false (fun hok => nomatch hok) fun hall => ?_
    obtain ⟨p, hp⟩ := hall _ List.mem_cons_self
    exact hp.not_refuses h
  | accepted h _ ih =>
    rw [ih, List.forall_mem_cons]
    exact ⟨fun hrest => ⟨⟨_, h⟩, hrest⟩, fun hall => hall.2⟩

/-- After a success every module holds what it accepted. -/
theorem settled (h : Settles places next result) (hok : result = .ok ()) :
    ∀ place ∈ places, ∃ p, place.2.Accepts p ∧ (place.1, place.2.withSettings p) ∈ next := by
  induction h with
  | done => simp
  | refused _ => cases hok
  | accepted h _ ih =>
    intro place hplace
    rcases List.mem_cons.mp hplace with rfl | hrest
    · exact ⟨_, h, List.mem_cons_self⟩
    · obtain ⟨p, hp, hnext⟩ := ih hok place hrest
      exact ⟨p, hp, List.mem_cons_of_mem _ hnext⟩

/-- And all of that is valid. -/
theorem valid (h : Settles places next result) (hok : result = .ok ()) :
    ∀ place ∈ next, Settings.validate place.2.worker.settings = .ok () := by
  induction h with
  | done => simp
  | refused _ => cases hok
  | accepted h _ ih =>
    intro place hplace
    rcases List.mem_cons.mp hplace with rfl | hrest
    · exact h.valid
    · exact ih hok place hrest

/-- A failure is that of the first role that refuses its settings: the roles before it hold what they accepted, and
the others are as they were. -/
theorem stopped (h : Settles places next result) (hsorted : places.Pairwise fun a b => a.1 < b.1) {e : Error}
    (herror : result = .error e) : ∃ first ∈ places, first.2.Refuses e ∧
      (∀ place ∈ places, place.1 < first.1 →
        ∃ p, place.2.Accepts p ∧ (place.1, place.2.withSettings p) ∈ next) ∧
      ∀ place ∈ places, ¬ place.1 < first.1 → place ∈ next := by
  induction h with
  | done => cases herror
  | refused h =>
    obtain rfl := Except.error.inj herror
    refine ⟨_, List.mem_cons_self, h, fun place hplace hbefore => ?_, fun place hplace _ => hplace⟩
    -- no role is before the first one
    rcases List.mem_cons.mp hplace with rfl | hrest
    · exact absurd hbefore (String.lt_irrefl _)
    · exact absurd hbefore (String.lt_asymm (List.rel_of_pairwise_cons hsorted hrest))
  | accepted h _ ih =>
    obtain ⟨first, hfirst, hrefuses, hbefore, hafter⟩ := ih hsorted.of_cons herror
    refine ⟨first, List.mem_cons_of_mem _ hfirst, hrefuses, fun place hplace hlt => ?_, fun place hplace hge => ?_⟩
    · rcases List.mem_cons.mp hplace with rfl | hrest
      · exact ⟨_, h, List.mem_cons_self⟩
      · obtain ⟨p, hp, hnext⟩ := hbefore place hrest hlt
        exact ⟨p, hp, List.mem_cons_of_mem _ hnext⟩
    · rcases List.mem_cons.mp hplace with rfl | hrest
      · exact absurd (List.rel_of_pairwise_cons hsorted hfirst) hge
      · exact List.mem_cons_of_mem _ (hafter place hrest hge)

theorem configureEntries [Decomposing D] (h : Settles places next result) :
    Registry.configureEntries (places.map fun place => (place.1, place.2.toModule))
      = (next.map fun place => (place.1, place.2.toModule), result) := by
  induction h with
  | done => rfl
  | refused h =>
    rw [List.map_cons, Registry.configureEntries, h.configured]
  | accepted h _ ih =>
    rw [List.map_cons, Registry.configureEntries, h.configured]
    simp [ih]

end Settles

/-! ## Registries of built-in components -/

namespace Registry

theorem mem_of_mem_insert {M : Type _} {role : String} {m : M} {entries : List (String × M)} {entry : String × M}
    (h : entry ∈ insert role m entries) : entry = (role, m) ∨ entry ∈ entries := by
  induction entries with
  | nil => exact .inl (List.mem_singleton.mp h)
  | cons head rest ih =>
    rw [insert] at h
    split at h
    · exact List.mem_cons.mp h
    · split at h
      · exact (List.mem_cons.mp h).imp_right (List.mem_cons_of_mem head)
      · rcases List.mem_cons.mp h with rfl | hrest
        · exact .inr List.mem_cons_self
        · exact (ih hrest).imp_right (List.mem_cons_of_mem head)

/-- The order of the roles is kept. -/
theorem sorted_insert {M : Type _} {role : String} {m : M} {entries : List (String × M)}
    (h : entries.Pairwise fun a b => a.1 < b.1) : (insert role m entries).Pairwise fun a b => a.1 < b.1 := by
  induction entries with
  | nil => exact List.pairwise_singleton _ _
  | cons head rest ih =>
    obtain ⟨hhead, hrest⟩ := List.pairwise_cons.mp h
    rw [insert]
    -- in front of the first larger role, or in the place of the equal one
    by_cases hlt : role < head.1
    · rw [if_pos hlt]
      refine List.pairwise_cons.mpr ⟨fun entry hentry => ?_, h⟩
      rcases List.mem_cons.mp hentry with rfl | hentry
      · exact hlt
      · exact String.lt_trans hlt (hhead entry hentry)
    · rw [if_neg hlt]
      by_cases heq : role = head.1
      · rw [if_pos heq]
        exact List.pairwise_cons.mpr ⟨fun entry hentry => heq ▸ hhead entry hentry, hrest⟩
      · rw [if_neg heq]
        refine List.pairwise_cons.mpr ⟨fun entry hentry => ?_, ih hrest⟩
        rcases mem_of_mem_insert hentry with rfl | hentry
        · have hle : head.1 ≤ role := String.not_lt.mp hlt
          exact String.not_le.mp fun hge => heq (String.le_antisymm hge hle)
        · exact hhead entry hentry

theorem map_insert {M N : Type _} (f : M → N) (role : String) (m : M) (entries : List (String × M)) :
    (insert role m entries).map (fun e => (e.1, f e.2)) = insert role (f m) (entries.map fun e => (e.1, f e.2)) := by
  induction entries with
  | nil => rfl
  | cons head rest ih =>
    rw [insert, List.map_cons, insert]
    split
    · rfl
    · split
      · rfl
      · rw [List.map_cons, ih]

end Registry

/-- Built-in components in increasing order of their roles. -/
structure Shelf (S D : Type) where
  places : List (String × Installed S D)
  sorted : places.Pairwise fun a b => a.1 < b.1

namespace Shelf

/-- A shelf without components. -/
def empty : Shelf S D := ⟨[], .nil⟩

/-- The shelf with a component in a role, instead of the one that played it. -/
def register (shelf : Shelf S D) (role : String) (m : Installed S D) : Shelf S D :=
  ⟨Registry.insert role m shelf.places, Registry.sorted_insert shelf.sorted⟩

/-- The shelf with a settings file for the component of a role. -/
def attachFile (shelf : Shelf S D) (role : String) (file : SettingsFile) : Shelf S D where
  places := shelf.places.map fun place =>
    (place.1, if place.1 = role then { place.2 with worker := place.2.worker.attach file } else place.2)
  sorted := List.pairwise_map.mpr shelf.sorted

variable [Decomposing D]

def registry (shelf : Shelf S D) : Registry S D := ⟨shelf.places.map fun place => (place.1, place.2.toModule)⟩

theorem registry_register (shelf : Shelf S D) (role : String) (m : Installed S D) :
    (shelf.register role m).registry = shelf.registry.register role m.toModule :=
  congrArg Registry.mk (Registry.map_insert Installed.toModule role m shelf.places)

theorem registry_attachFile {shelf : Shelf S D} {role : String} (h : shelf.registry.contains role = true)
    (file : SettingsFile) : shelf.registry.attachFile role file = .ok (shelf.attachFile role file).registry := by
  unfold Registry.attachFile
  rw [if_pos h]
  refine congrArg (fun entries => Except.ok (Registry.mk entries)) ?_
  unfold registry attachFile
  rw [List.map_map, List.map_map]
  refine List.map_congr_left fun place _ => ?_
  by_cases hrole : place.1 = role
  · simp only [Function.comp_apply, hrole, if_true]
    rfl
  · simp only [Function.comp_apply, hrole, if_false]

/-- Registries that are filled with built-in components and given files for them, in any order. -/
inductive Stocked : Registry S D → Prop
  | empty : Stocked .empty
  | register {r : Registry S D} (h : Stocked r) (role : String) (m : Installed S D) :
      Stocked (r.register role m.toModule)
  | attachFile {r next : Registry S D} (h : Stocked r) (role : String) (file : SettingsFile)
      (hnext : r.attachFile role file = .ok next) : Stocked next

/-- All of these are shelves. -/
theorem exists_of_stocked {r : Registry S D} (h : Stocked r) : ∃ shelf : Shelf S D, r = shelf.registry := by
  induction h with
  | empty => exact ⟨empty, rfl⟩
  | register _ role m ih =>
    obtain ⟨shelf, rfl⟩ := ih
    exact ⟨shelf.register role m, (registry_register shelf role m).symm⟩
  | attachFile _ role file hnext ih =>
    obtain ⟨shelf, rfl⟩ := ih
    cases hrole : shelf.registry.contains role with
    | true =>
      rw [registry_attachFile hrole] at hnext
      exact ⟨shelf.attachFile role file, (Except.ok.inj hnext).symm⟩
    | false =>
      rw [Registry.attachFile, hrole, if_neg Bool.false_ne_true] at hnext
      cases hnext

/-- What configuring a shelf leaves, and its result. -/
structure Configured (shelf next : Shelf S D) (result : Except Error Unit) : Prop where
  same_roles : next.places.map Prod.fst = shelf.places.map Prod.fst
  succeeds : result = .ok () ↔ ∀ place ∈ shelf.places, ∃ p, place.2.Accepts p
  /-- After a success every component holds the settings that were to be in force … -/
  settled : result = .ok () → ∀ place ∈ shelf.places, ∃ p, place.2.Accepts p ∧
    (place.1, place.2.withSettings p) ∈ next.places
  /-- … which are valid. -/
  valid : result = .ok () → ∀ place ∈ next.places, Settings.validate place.2.worker.settings = .ok ()
  /-- A failure is that of the first role that refuses its settings. The components before it hold the settings that
  were to be in force, itself and the others are as they were. -/
  stopped : ∀ e, result = .error e → ∃ first ∈ shelf.places, first.2.Refuses e ∧
    (∀ place ∈ shelf.places, place.1 < first.1 →
      ∃ p, place.2.Accepts p ∧ (place.1, place.2.withSettings p) ∈ next.places) ∧
    ∀ place ∈ shelf.places, ¬ place.1 < first.1 → place ∈ next.places
  /-- A second time, the result is the same and nothing changes. -/
  again : next.registry.configureAll = (next.registry, result)

/-- **Configuring stops cleanly**, for built-in components in any state, under any roles and with any files. -/
theorem configuration_stops_cleanly (shelf : Shelf S D) : ∃ next : Shelf S D,
    shelf.registry.configureAll.1 = next.registry ∧ shelf.Configured next shelf.registry.configureAll.2 := by
  obtain ⟨places, result, hsettles⟩ := exists_settles shelf.places
  have hsorted : places.Pairwise fun a b => a.1 < b.1 := by
    have hroles : (places.map Prod.fst).Pairwise (· < ·) := by
      rw [hsettles.map_fst]
      exact List.pairwise_map.mpr shelf.sorted
    exact List.pairwise_map.mp hroles
  have hconfigured : shelf.registry.configureAll = (⟨places.map fun place => (place.1, place.2.toModule)⟩, result) := by
    unfold Registry.configureAll registry
    rw [hsettles.configureEntries]
  rw [hconfigured]
  refine ⟨⟨places, hsorted⟩, rfl, ?_⟩
  exact {
    same_roles := hsettles.map_fst
    succeeds := hsettles.ok_iff
    settled := hsettles.settled
    valid := hsettles.valid
    stopped := fun e he => hsettles.stopped shelf.sorted he
    again := by
      unfold Registry.configureAll registry
      rw [hsettles.again.configureEntries] }

end Shelf

end StereoMapping
