import StereoMapping.Component.Delivery
import StereoMapping.Proofs.Component.Family

/-!
# `Proofs.Component.Memory` — built-in components keep no memory between calls

A component keeps the inputs of the last computation in its slots and its result in its output, and the next
computation writes over both. Two facts about an algorithm are enough for nothing of the old content to get through:
what is left of the slots after a whole input, as far as the computation looks at it, and what is left of an output
after it is cleared, do not depend on what was there. The slots of a registration are the only ones with a rest, the
guess of an earlier call, which is not looked at.

## Contents
- `Delivers`: a call has the outcome of a call to another component.
- `Algorithm.Call`, `Algorithm.after`: what is done to a worker from outside, call after call.
- `Algorithm.settings_after`: the settings after some calls depend on the calls about settings alone.
- `Algorithm.Forgetful`: an output depends on settings and input alone; `Builtin.forgetful`.
- `Builtin.no_memory`: a call to a used component delivers what a call to a new one does.
-/

namespace StereoMapping

/-! ## Deliveries -/

/-- What the getters of a component answer. -/
def Component.shown {In Out : Type} (c : Component In Out) : Out := c.output c.state

/-- Nothing of the storage is left after a delivery. -/
def Delivery.Overwrites {Out : Type} (d : Delivery Out) : Prop :=
  ∀ out held held', d.write out held = d.write out held'

/-- The outcome of a call is what a call to another component gives, into new storage. -/
structure Delivers {In Out : Type} (c : Component In Out) (d : Delivery Out) (input : In)
    (outcome : Component In Out × d.Stored × d.Answer) : Prop where
  stored : outcome.2.1 = (c.runNew d input).2.1
  answered : outcome.2.2 = (c.runNew d input).2.2
  /-- All that can be asked afterwards. -/
  shown : outcome.1.shown = (c.runNew d input).1.shown

theorem overwrites_delivery {S D : Type} [Scalar D] (c : Capability) :
    (c.delivery : Delivery (c.Output S D)).Overwrites := by
  intro out held held'
  cases c <;> rfl

namespace Algorithm

variable {P In Slots Out : Type} (a : Algorithm P In Slots Out)

/-! ## Calls -/

/-- What can be done to a worker from outside. -/
inductive Call where
  | attach (file : SettingsFile)
  | configure
  | set (part : a.Part)
  | process

/-- Whether a call is about the settings. -/
def Call.isSetting {a : Algorithm P In Slots Out} : a.Call → Bool
  | attach _ => true
  | configure => true
  | set _ => false
  | process => false

def call [Settings P] (w : Worker P Slots Out) : a.Call → Worker P Slots Out
  | .attach file => w.attach file
  | .configure => w.configure.1
  | .set part => { w with slots := a.set part w.slots }
  | .process => a.process w

def after [Settings P] (w : Worker P Slots Out) (calls : List a.Call) : Worker P Slots Out := calls.foldl a.call w

/-- Settings and settings file are the same. -/
structure SameSettings (w v : Worker P Slots Out) : Prop where
  settings_eq : w.settings = v.settings
  file_eq : w.file = v.file

variable {a}

theorem SameSettings.configure [Settings P] {w v : Worker P Slots Out} (h : SameSettings w v) :
    SameSettings w.configure.1 v.configure.1 := by
  have hreload : SettingsFile.reload w.file w.settings = SettingsFile.reload v.file v.settings := by
    rw [h.file_eq, h.settings_eq]
  unfold Worker.configure
  rw [hreload]
  cases SettingsFile.reload v.file v.settings with
  | ok settings => exact ⟨rfl, h.file_eq⟩
  | error e => exact h

/-- The same call keeps settings the same, and a call that is not about them need not be made. -/
theorem SameSettings.call [Settings P] {w v : Worker P Slots Out} (h : SameSettings w v) (c : a.Call) :
    SameSettings (a.call w c) (if c.isSetting then a.call v c else v) := by
  cases c with
  | attach file => exact ⟨h.settings_eq, rfl⟩
  | configure => exact h.configure
  | set part => exact ⟨h.settings_eq, h.file_eq⟩
  | process => exact ⟨h.settings_eq, h.file_eq⟩

theorem SameSettings.after [Settings P] {w v : Worker P Slots Out} (h : SameSettings w v) (calls : List a.Call) :
    SameSettings (a.after w calls) (a.after v (calls.filter Call.isSetting)) := by
  induction calls generalizing w v with
  | nil => exact h
  | cons c rest ih =>
    -- a call that is not about the settings is only made on one side
    have hstep := h.call c
    rw [List.filter_cons]
    cases hsetting : c.isSetting with
    | true =>
      rw [hsetting, if_pos rfl] at hstep
      exact ih hstep
    | false =>
      rw [hsetting, if_neg Bool.false_ne_true] at hstep
      exact ih hstep

/-- Inputs and computations change no settings. -/
theorem settings_after [Settings P] (w : Worker P Slots Out) (calls : List a.Call) :
    (a.after w calls).settings = (a.after w (calls.filter Call.isSetting)).settings :=
  (SameSettings.after ⟨rfl, rfl⟩ calls).settings_eq

/-! ## Forgetting -/

variable (a)

/-- What an algorithm computes depends on the settings and the input alone, not on what was in the slots and in the
output before. -/
def Forgetful : Prop :=
  ∀ (settings : P) (input : In) (slots slots' : Slots) (held held' : Out),
    a.fill settings (a.load input slots) (a.clear held) = a.fill settings (a.load input slots') (a.clear held')

variable {a}

/-- It is enough to overwrite all slots and to clear all of the output. -/
theorem Forgetful.of_overwriting (hload : ∀ input slots slots', a.load input slots = a.load input slots')
    (hclear : ∀ held held', a.clear held = a.clear held') : a.Forgetful := by
  intro settings input slots slots' held held'
  rw [hload input slots slots', hclear held held']

/-- Two workers of one algorithm with the same settings compute the same output. -/
theorem Forgetful.process_store (h : a.Forgetful) {w v : Worker P Slots Out} (hsame : w.settings = v.settings)
    (input : In) : (a.process (a.store input w)).output = (a.process (a.store input v)).output := by
  show a.fill w.settings (a.load input w.slots) (a.clear w.output)
    = a.fill v.settings (a.load input v.slots) (a.clear v.output)
  rw [hsame]
  exact h v.settings input w.slots v.slots w.output v.output

theorem Forgetful.runInto [Settings P] (h : a.Forgetful) {d : Delivery Out} (hd : d.Overwrites)
    {w v : Worker P Slots Out} (hsame : w.settings = v.settings) (input : In) (held : d.Stored) :
    Delivers (a.component v) d input ((a.component w).runInto d input held) := by
  have hout := h.process_store hsame input
  constructor
  · show d.write (a.process (a.store input w)).output held = d.write (a.process (a.store input v)).output d.blank
    rw [hout]
    exact hd _ held d.blank
  · exact congrArg d.answer hout
  · exact hout

end Algorithm

variable {S D : Type} [Scalar S] [Scalar D] [Precision S D]

theorem clear_nearestMatching (held : Correspondences (Vec2 S) S) : nearestMatching.clear held = #[] :=
  Array.eq_empty_of_size_eq_zero (by simp [nearestMatching])

/-- Both clouds are replaced. A guess that is stored is only looked at if it is that of the input. -/
theorem load_cloudRegistration [Decomposing D] (input : Cloud S × Cloud S × Option (Pose D))
    (slots : RegistrationSlots S D) : (cloudRegistration.load input slots).source = input.1 ∧
      (cloudRegistration.load input slots).sink = input.2.1 ∧
      (cloudRegistration.load input slots).guess? = input.2.2 := by
  obtain ⟨source, sink, guess⟩ := input
  cases guess with
  | none => exact ⟨rfl, rfl, rfl⟩
  | some guess => exact ⟨rfl, rfl, rfl⟩

theorem forgetful_cloudRegistration [Decomposing D] :
    (cloudRegistration : Algorithm (RegistrationSettings S) _ (RegistrationSlots S D) _).Forgetful := by
  intro settings input slots slots' held held'
  have hfill : ∀ (slots : RegistrationSlots S D) (held : RegistrationResult D),
      cloudRegistration.fill settings (cloudRegistration.load input slots) held.clear
        = registerClouds settings input.1 input.2.1 input.2.2 ⟨.identity, false⟩ := by
    intro slots held
    obtain ⟨hsource, hsink, hguess⟩ := load_cloudRegistration input slots
    rw [← hsource, ← hsink, ← hguess]
    rfl
  exact (hfill slots held).trans (hfill slots' held').symm

namespace Builtin

/-- Every member overwrites what it stores and clears what it shows. -/
theorem forgetful [Decomposing D] (b : Builtin) :
    (b.algorithm : Algorithm (b.Params S) (b.capability.Input S D) _ _).Forgetful := by
  cases b with
  | nearestMatching =>
    refine .of_overwriting (fun _ _ _ => rfl) fun held held' => ?_
    exact (clear_nearestMatching held).trans (clear_nearestMatching held').symm
  | cloudRegistration => exact forgetful_cloudRegistration
  | cornerDetection | patchDescription | blockMatching | matchTriangulation | windowAlignment =>
    exact .of_overwriting (fun _ _ _ => rfl) (fun _ _ => rfl)

/-- What can be done to a member from outside. -/
abbrev Call (S D : Type) [Scalar S] [Scalar D] [Precision S D] [Decomposing D] (b : Builtin) : Type :=
  (b.algorithm (S := S) (D := D)).Call

/-- The settings of a member after some calls. -/
def inForce [Decomposing D] (b : Builtin) (settings : b.Params S) (calls : List (b.Call S D)) : b.Params S :=
  (b.algorithm.after (b.algorithm.worker settings) calls).settings

/-- A member that was built with some settings, after some calls. -/
def used [Decomposing D] (b : Builtin) (settings : b.Params S) (calls : List (b.Call S D)) :
    ComponentOf S D b.capability :=
  b.algorithm.component (b.algorithm.after (b.algorithm.worker settings) calls)

/-- **A used component delivers what a new one does.** Whatever inputs were set and whatever was computed before, in
any order, and whatever is in the storage of the caller: both forms of a call store and answer what they do for a new
component with the settings in force, and so do all getters afterwards. No input and no computation changes the
settings in force. -/
theorem no_memory [Decomposing D] (b : Builtin) (settings : b.Params S) (calls : List (b.Call S D))
    (input : b.capability.Input S D)
    (held : (b.capability.delivery : Delivery (b.capability.Output S D)).Stored) :
    b.inForce settings calls = b.inForce settings (calls.filter Algorithm.Call.isSetting) ∧
    Delivers (b.algorithm.new (b.inForce settings calls)) b.capability.delivery input
      ((b.used settings calls).runInto b.capability.delivery input held) ∧
    Delivers (b.algorithm.new (b.inForce settings calls)) b.capability.delivery input
      ((b.used settings calls).runNew b.capability.delivery input) := by
  have hsettings := Algorithm.settings_after (b.algorithm.worker settings) calls
  have hsame : (b.algorithm.after (b.algorithm.worker settings) calls).settings
      = (b.algorithm.worker (b.inForce settings calls)).settings := rfl
  have hdelivers := b.forgetful.runInto (overwrites_delivery b.capability) hsame input
  exact ⟨hsettings, hdelivers held, hdelivers _⟩

end Builtin

end StereoMapping
