import StereoMapping.Component.Builtin

/-!
# `Proofs.Cloud.Registration` — a registration ends, and answers for the pairs it keeps

A registration is one of many iterative searches: a pass computes a candidate from the state that is held, and then
the state or its candidate is kept and the search goes on or stops. The loop itself has no bound. That it ends, and
what the last state is worth, depends on the three rules together: a step needs enough pairs, a candidate with too few
of them stops the search and is dropped, and the last pass that is allowed stops it in any case. So every state
that is held past a step has enough pairs, also the one that outlives its candidate.

Nothing is asked of the alignment or of the search for neighbours. The loop is therefore followed for any functions in
their place, and then found again in `Registration.solve`, which counts its passes downwards.

## Contents
- `Search`, `Search.Visits`, `Search.Ends`: searches, the states before their passes, and their outcomes.
- `Search.Ends.unique`, `Search.exists_ends`: there is one outcome, if some pass is the last one.
- `Registration.search`, `Registration.ends_solve`: a registration as a search.
- `Registration.Supported`, `Registration.registration_supported`: what the outcome says.
-/

namespace StereoMapping

/-! ## Searches -/

/-- An iterative search. -/
structure Search (State Model Fault : Type) where
  /-- The candidate after a state, if it can be computed. -/
  step : State → Except Fault Model
  eval : Model → State
  /-- In a pass of a given number, what is kept of the state and its candidate, and whether to go on. -/
  keep : Nat → State → State → State × Bool

namespace Search

variable {State Model Fault : Type} (search : Search State Model Fault) (start : State)

/-- The state that is held after a number of passes, all of which went on. -/
inductive Visits : Nat → State → Prop
  | start : Visits 0 start
  | further {count : Nat} {s kept : State} {model : Model} : Visits count s → search.step s = .ok model →
      search.keep (count + 1) s (search.eval model) = (kept, true) → Visits (count + 1) kept

/-- How the loop ends: with the first step that cannot be computed, or with the state kept by a pass that stops it and
the number of that pass. -/
inductive Ends : Except Fault (State × Nat) → Prop
  | failed {count : Nat} {s : State} {fault : Fault} : search.Visits start count s →
      search.step s = .error fault → Ends (.error fault)
  | stopped {count : Nat} {s kept : State} {model : Model} : search.Visits start count s →
      search.step s = .ok model → search.keep (count + 1) s (search.eval model) = (kept, false) →
      Ends (.ok (kept, count + 1))

variable {search start}

theorem Visits.unique {count : Nat} {s t : State} (hs : search.Visits start count s)
    (ht : search.Visits start count t) : s = t := by
  induction hs generalizing t with
  | start =>
    cases ht
    rfl
  | further _ hstep hkeep ih =>
    cases ht with
    | further hvisit hstep' hkeep' =>
      obtain rfl := ih hvisit
      obtain rfl := Except.ok.inj (hstep.symm.trans hstep')
      exact congrArg Prod.fst (hkeep.symm.trans hkeep')

/-- Every pass before a visited state went on. -/
theorem Visits.went_on {count earlier : Nat} {s t : State} (hs : search.Visits start count s)
    (ht : search.Visits start earlier t) (hlt : earlier < count) :
    ∃ model, search.step t = .ok model ∧ (search.keep (earlier + 1) t (search.eval model)).2 = true := by
  induction hs with
  | start => exact absurd hlt (Nat.not_lt_zero _)
  | @further count s kept model hvisit hstep hkeep ih =>
    rcases Nat.lt_succ_iff_lt_or_eq.mp hlt with hbefore | rfl
    · exact ih hbefore
    · obtain rfl := ht.unique hvisit
      exact ⟨model, hstep, by rw [hkeep]⟩

/-- A state whose pass does not go on is the last one. -/
theorem Visits.le_of_last {count last : Nat} {s t : State} (hs : search.Visits start count s)
    (ht : search.Visits start last t)
    (hlast : ∀ model, search.step t = .ok model → (search.keep (last + 1) t (search.eval model)).2 = false) :
    count ≤ last := by
  refine Nat.le_of_not_lt fun hlt => ?_
  obtain ⟨model, hstep, hon⟩ := hs.went_on ht hlt
  rw [hlast model hstep] at hon
  cases hon

/-- The pass in which the loop ends. -/
theorem Ends.last {outcome : Except Fault (State × Nat)} (h : search.Ends start outcome) :
    ∃ last t, search.Visits start last t ∧
      (∀ model, search.step t = .ok model → (search.keep (last + 1) t (search.eval model)).2 = false) ∧
      outcome = (search.step t).map fun model => ((search.keep (last + 1) t (search.eval model)).1, last + 1) := by
  cases h with
  | @failed count s fault hvisit hstep =>
    refine ⟨count, s, hvisit, fun model hmodel => ?_, by rw [hstep]; rfl⟩
    cases hstep.symm.trans hmodel
  | @stopped count s kept model hvisit hstep hkeep =>
    refine ⟨count, s, hvisit, fun other hother => ?_, by rw [hstep]; simp only [Except.map, hkeep]⟩
    obtain rfl := Except.ok.inj (hstep.symm.trans hother)
    rw [hkeep]

/-- **A loop has one outcome.** -/
theorem Ends.unique {a b : Except Fault (State × Nat)} (ha : search.Ends start a) (hb : search.Ends start b) :
    a = b := by
  obtain ⟨n, s, hs, hlastS, rfl⟩ := ha.last
  obtain ⟨m, t, ht, hlastT, rfl⟩ := hb.last
  obtain rfl : n = m := Nat.le_antisymm (hs.le_of_last ht hlastT) (ht.le_of_last hs hlastS)
  obtain rfl := hs.unique ht
  rfl

/-- After any number of passes the loop has ended or holds a state. -/
theorem ends_or_visits (search : Search State Model Fault) (start : State) (count : Nat) :
    (∃ outcome, search.Ends start outcome) ∨ ∃ s, search.Visits start count s := by
  induction count with
  | zero => exact .inr ⟨start, .start⟩
  | succ count ih =>
    rcases ih with hends | ⟨s, hvisit⟩
    · exact .inl hends
    · cases hstep : search.step s with
      | error fault => exact .inl ⟨_, .failed hvisit hstep⟩
      | ok model =>
        cases hkeep : search.keep (count + 1) s (search.eval model) with
        | mk kept goesOn =>
          cases goesOn with
          | true => exact .inr ⟨kept, .further hvisit hstep hkeep⟩
          | false => exact .inl ⟨_, .stopped hvisit hstep hkeep⟩

/-- No pass begins after one that never goes on. -/
theorem Visits.lt_bound {bound : Nat} (hbound : ∀ s new, (search.keep bound s new).2 = false) (hpos : 0 < bound)
    {count : Nat} {s : State} (hs : search.Visits start count s) : count < bound := by
  induction hs with
  | start => exact hpos
  | @further count s kept model _ _ hkeep ih =>
    refine Nat.lt_of_le_of_ne ih ?_
    rintro rfl
    have hstop := hbound s (search.eval model)
    rw [hkeep] at hstop
    cases hstop

/-- **A loop ends** if there is a pass that never goes on. -/
theorem exists_ends (start : State) {bound : Nat} (hbound : ∀ s new, (search.keep bound s new).2 = false)
    (hpos : 0 < bound) : ∃ outcome, search.Ends start outcome := by
  refine (search.ends_or_visits start bound).resolve_right ?_
  rintro ⟨s, hvisit⟩
  exact Nat.lt_irrefl _ (hvisit.lt_bound hbound hpos)

/-- What the first state has and every pass keeps. -/
theorem Visits.invariant {P : State → Prop} (hstart : P start)
    (hkeep : ∀ n s model, P s → P (search.keep n s (search.eval model)).1) {count : Nat} {s : State}
    (hs : search.Visits start count s) : P s := by
  induction hs with
  | start => exact hstart
  | @further count s kept model _ _ hkept ih =>
    have hnext := hkeep (count + 1) s model ih
    rwa [hkept] at hnext

end Search

/-! ## The search of a registration -/

namespace Registration

variable {S D : Type} [Scalar D] [Precision S D]

/-- The source points that a search for neighbours finds a neighbour of, each with that neighbour. -/
def pairsBy (nearest : Vec3 D → Option (Vec3 D)) (source : List (Vec3 D)) (model : Motion D) : PointPairs D :=
  source.filterMap fun p => (nearest (model.apply p)).map fun q => (p, q)

/-- A motion with its pairs. -/
def matchedBy (nearest : Vec3 D → Option (Vec3 D)) (source : List (Vec3 D)) (model : Motion D) : State D :=
  ⟨model, pairsBy nearest source model,
    Alignment.rmsError model (pairsBy nearest source model).length (pairsBy nearest source model)⟩

/-- The motion that some alignment gives for the current pairs, of which there must be enough. -/
def stepBy (align : PointPairs D → Option (Motion D)) (minPairs : Nat) (state : State D) :
    Except Fault (Motion D) :=
  if state.pairs.length < minPairs then .error (.tooFewPairs state.pairs.length)
  else
    match align state.pairs with
    | some m => .ok m
    | none => .error .degenerate

/-- A registration with any alignment and any search for neighbours. A candidate that loses too many pairs is dropped;
else it is kept, and the search goes on unless the motion has stalled or that was the last pass. -/
def search (settings : RegistrationSettings S) (align : PointPairs D → Option (Motion D))
    (nearest : Vec3 D → Option (Vec3 D)) (source : List (Vec3 D)) : Search (State D) (Motion D) Fault where
  step := stepBy align settings.minPairs
  eval := matchedBy nearest source
  keep count old new :=
    if new.pairs.length < settings.minPairs then (old, false)
    else (new, !(hasStalled settings old.model new.model || decide (settings.maxIterations ≤ count)))

/-- What is reported of the outcome of a search. -/
def reported (settings : RegistrationSettings S) (outcome : Except Fault (State D × Nat)) : RegistrationResult D :=
  match outcome with
  | .ok (state, _) => ⟨.ofMotion state.model, settings.minPairs ≤ state.pairs.length⟩
  | .error _ => ⟨.identity, false⟩

section

variable (settings : RegistrationSettings S) (align : PointPairs D → Option (Motion D))
  (nearest : Vec3 D → Option (Vec3 D)) (source : List (Vec3 D))

omit [Scalar D] in
variable {align} in
theorem pairs_of_stepBy {minPairs : Nat} {state : State D} {m : Motion D} (h : stepBy align minPairs state = .ok m) :
    minPairs ≤ state.pairs.length := by
  unfold stepBy at h
  split at h
  · cases h
  · exact Nat.le_of_not_lt ‹_›

/-- The last pass that is allowed stops the search. -/
theorem keep_last (s new : State D) :
    ((search settings align nearest source).keep (max 1 settings.maxIterations) s new).2 = false := by
  have hlast : settings.maxIterations ≤ max 1 settings.maxIterations := Nat.le_max_right _ _
  unfold search
  dsimp only
  split
  · rfl
  · simp only [hlast, decide_true, Bool.or_true, Bool.not_true]

theorem keep_of_enough (n : Nat) (s : State D) {new : State D} (h : ¬ new.pairs.length < settings.minPairs) :
    (search settings align nearest source).keep n s new
      = (new, !(hasStalled settings s.model new.model || decide (settings.maxIterations ≤ n))) :=
  if_neg h

/-- **A pass keeps a state with its own pairs**, and enough of them if the state before has enough. -/
theorem keep_supported (n : Nat) {s : State D} (model : Motion D) (hs : s = matchedBy nearest source s.model) :
    ((search settings align nearest source).keep n s (matchedBy nearest source model)).1
        = matchedBy nearest source
          ((search settings align nearest source).keep n s (matchedBy nearest source model)).1.model ∧
      (settings.minPairs ≤ s.pairs.length → settings.minPairs ≤
        ((search settings align nearest source).keep n s (matchedBy nearest source model)).1.pairs.length) := by
  unfold search
  dsimp only
  split
  · exact ⟨hs, fun h => h⟩
  · exact ⟨rfl, fun _ => Nat.le_of_not_lt ‹_›⟩

end

/-- What the outcome of a search says. It is the only one, and it takes no more passes than are allowed, or one. A last
state has exactly the pairs that its motion has and enough of them; the motion is then reported with success, else
the identity without. Success fails exactly if there was a step that could not be computed. -/
structure Supported (settings : RegistrationSettings S) (align : PointPairs D → Option (Motion D))
    (nearest : Vec3 D → Option (Vec3 D)) (source : List (Vec3 D)) (guess : Motion D)
    (outcome : Except Fault (State D × Nat)) : Prop where
  ends_iff : ∀ other, (search settings align nearest source).Ends (matchedBy nearest source guess) other ↔
    other = outcome
  passes : ∀ count s, (search settings align nearest source).Visits (matchedBy nearest source guess) count s →
    count + 1 ≤ max 1 settings.maxIterations
  of_ok : ∀ state count, outcome = .ok (state, count) →
    count ≤ max 1 settings.maxIterations ∧
      state.pairs = source.filterMap (fun p => (nearest (state.model.apply p)).map fun q => (p, q)) ∧
      settings.minPairs ≤ state.pairs.length ∧ reported settings outcome = ⟨.ofMotion state.model, true⟩
  of_error : ∀ fault, outcome = .error fault → reported settings outcome = ⟨.identity, false⟩
  failure_iff : (reported settings outcome).success = false ↔
    ∃ count s fault, (search settings align nearest source).Visits (matchedBy nearest source guess) count s ∧
      stepBy align settings.minPairs s = .error fault

theorem supported_of_ends {settings : RegistrationSettings S} {align : PointPairs D → Option (Motion D)}
    {nearest : Vec3 D → Option (Vec3 D)} {source : List (Vec3 D)} {guess : Motion D}
    {outcome : Except Fault (State D × Nat)}
    (h : (search settings align nearest source).Ends (matchedBy nearest source guess) outcome) :
    Supported settings align nearest source guess outcome := by
  have hpos : 0 < max 1 settings.maxIterations := Nat.lt_of_lt_of_le Nat.zero_lt_one (Nat.le_max_left _ _)
  have hpasses : ∀ count s, (search settings align nearest source).Visits (matchedBy nearest source guess) count s →
      count + 1 ≤ max 1 settings.maxIterations := fun _ _ hvisit =>
    hvisit.lt_bound (keep_last settings align nearest source) hpos
  -- a state that is held has the pairs of its motion, from the guess on
  have hown : ∀ {count s}, (search settings align nearest source).Visits (matchedBy nearest source guess) count s →
      s = matchedBy nearest source s.model := fun hvisit =>
    hvisit.invariant (P := fun s => s = matchedBy nearest source s.model) rfl fun n _ model hs =>
      (keep_supported settings align nearest source n model hs).1
  have hunique : ∀ other, (search settings align nearest source).Ends (matchedBy nearest source guess) other ↔
      other = outcome := fun other => ⟨fun hother => hother.unique h, fun heq => heq ▸ h⟩
  cases h with
  | @failed count s fault hvisit hstep =>
    exact {
      ends_iff := hunique
      passes := hpasses
      of_ok := fun _ _ hok => nomatch hok
      of_error := fun _ _ => rfl
      failure_iff := iff_of_true rfl ⟨count, s, fault, hvisit, hstep⟩ }
  | @stopped count s kept model hvisit hstep hkeep =>
    obtain ⟨hmodel, henough⟩ := keep_supported settings align nearest source (count + 1) model (hown hvisit)
    have hkept := congrArg Prod.fst hkeep
    rw [show ((search settings align nearest source).keep (count + 1) s (matchedBy nearest source model)).1 = kept
      from hkept] at hmodel henough
    have henough := henough (pairs_of_stepBy hstep)
    have hreported : reported settings (.ok (kept, count + 1)) = ⟨.ofMotion kept.model, true⟩ :=
      congrArg (RegistrationResult.mk _) (decide_eq_true henough)
    refine {
      ends_iff := hunique
      passes := hpasses
      of_ok := ?_
      of_error := fun _ herror => nomatch herror
      failure_iff := ?_ }
    · rintro state n heq
      obtain ⟨rfl, rfl⟩ := Prod.mk.inj (Except.ok.inj heq)
      exact ⟨hpasses count s hvisit, congrArg State.pairs hmodel, henough, hreported⟩
    · rw [hreported]
      refine iff_of_false (fun hfalse => nomatch hfalse) ?_
      rintro ⟨n, t, fault, ht, hfault⟩
      -- a loop that meets such a step ends there, and it has one outcome
      have herror := (hunique _).mp (.failed ht hfault)
      cases herror

/-! ## The search in the library -/

variable [Decomposing D]

/-- A registration with the alignment and the neighbour grid of the library. -/
abbrev gridSearch (settings : RegistrationSettings S) (source : List (Vec3 D)) (sink : NeighbourGrid D) :
    Search (State D) (Motion D) Fault :=
  search settings Alignment.align? sink.nearest? source

variable {settings : RegistrationSettings S} {source : List (Vec3 D)} {sink : NeighbourGrid D}
  {guess : Motion D}

/-- One pass of the loop, with what follows a candidate that is kept and still moves. -/
theorem ends_pass (rest : State D → Except Fault (State D × Nat)) {count : Nat} {state : State D}
    (hvisit : (gridSearch settings source sink).Visits (matched source sink guess) count state)
    (hrest : ∀ model, step settings.minPairs state = .ok model →
      (gridSearch settings source sink).keep (count + 1) state (matched source sink model)
        = (matched source sink model, !decide (settings.maxIterations ≤ count + 1)) →
      (gridSearch settings source sink).Ends (matched source sink guess)
        (rest (matched source sink model))) :
    (gridSearch settings source sink).Ends (matched source sink guess) (do
      let next := matched source sink (← step settings.minPairs state)
      if next.pairs.length < settings.minPairs then return (state, count + 1)
      else if hasStalled settings state.model next.model then return (next, count + 1)
      else rest next) := by
  cases hstep : step settings.minPairs state with
  | error fault => exact .failed hvisit hstep
  | ok model =>
    -- one case for each way out of the body of the loop
    show Search.Ends _ _ (if _ then _ else if _ then _ else _)
    by_cases hfew : (matched source sink model).pairs.length < settings.minPairs
    · rw [if_pos hfew]
      exact .stopped hvisit hstep (if_pos hfew)
    · have hkeep := keep_of_enough settings Alignment.align? sink.nearest? source (count + 1) state hfew
      rw [if_neg hfew]
      by_cases hstalled : hasStalled settings state.model (matched source sink model).model = true
      · rw [hstalled, Bool.true_or] at hkeep
        rw [if_pos hstalled]
        exact .stopped hvisit hstep hkeep
      · rw [eq_false_of_ne_true hstalled, Bool.false_or] at hkeep
        rw [if_neg hstalled]
        exact hrest model hstep hkeep

/-- **Counting the passes downwards** is the same loop. -/
theorem ends_iterate {remaining count : Nat} {state : State D}
    (hcount : count + 1 + remaining = max 1 settings.maxIterations)
    (hvisit : (gridSearch settings source sink).Visits (matched source sink guess) count state) :
    (gridSearch settings source sink).Ends (matched source sink guess)
      (iterate settings source sink remaining count state) := by
  induction remaining generalizing count state with
  | zero =>
    unfold iterate
    refine ends_pass (fun next => pure (next, count + 1)) hvisit ?_
    intro model hstep hkeep
    refine .stopped hvisit hstep (hkeep.trans ?_)
    rw [decide_eq_true (show settings.maxIterations ≤ count + 1 by omega)]
    rfl
  | succ remaining ih =>
    unfold iterate
    refine ends_pass (iterate settings source sink remaining (count + 1)) hvisit ?_
    intro model hstep hkeep
    refine ih (by omega) (.further hvisit hstep (hkeep.trans ?_))
    rw [decide_eq_false (show ¬ settings.maxIterations ≤ count + 1 by omega)]
    rfl

theorem ends_solve : (gridSearch settings source sink).Ends (matchedBy sink.nearest? source guess)
    (solve settings source sink guess) :=
  ends_iterate (by omega) .start

/-- The motion that a component starts from. -/
def guessOf (w : Worker (RegistrationSettings S) (RegistrationSlots S D) (RegistrationResult D)) : Motion D :=
  (w.slots.guess?.bind Pose.toMotion?).getD .identity

/-- The neighbours that a component looks for. -/
def sinkOf [Scalar S] (w : Worker (RegistrationSettings S) (RegistrationSlots S D) (RegistrationResult D)) : NeighbourGrid D :=
  .ofCloud w.slots.sink (widen w.settings.maxDistance)

/-- **A registration ends, and its success means supported pairs.** This holds of the loop with any alignment and any
search for neighbours in the place of its own, and of what `solve` finds with the alignment and the neighbour grid of the
library. That is what the component reports, whatever it stores and whatever it reported before. -/
theorem registration_supported [Scalar S] :
    (∀ (settings : RegistrationSettings S) (align : PointPairs D → Option (Motion D))
        (nearest : Vec3 D → Option (Vec3 D)) (source : List (Vec3 D)) (guess : Motion D),
      ∃ outcome, Supported settings align nearest source guess outcome) ∧
    ∀ w : Worker (RegistrationSettings S) (RegistrationSlots S D) (RegistrationResult D),
      Supported w.settings Alignment.align? (sinkOf w).nearest? (NeighbourGrid.validPoints w.slots.source) (guessOf w)
        (solve w.settings (NeighbourGrid.validPoints w.slots.source) (sinkOf w) (guessOf w)) ∧
      (cloudRegistration.process w).output = reported w.settings
        (solve w.settings (NeighbourGrid.validPoints w.slots.source) (sinkOf w) (guessOf w)) := by
  constructor
  · intro settings align nearest source guess
    obtain ⟨outcome, hends⟩ := Search.exists_ends (matchedBy nearest source guess)
      (keep_last settings align nearest source) (Nat.lt_of_lt_of_le Nat.zero_lt_one (Nat.le_max_left _ _))
    exact ⟨outcome, supported_of_ends hends⟩
  · intro w
    refine ⟨supported_of_ends ends_solve, ?_⟩
    show registerClouds _ _ _ _ _ = _
    unfold registerClouds guessOf sinkOf
    dsimp only
    cases solve w.settings (NeighbourGrid.validPoints w.slots.source)
        (NeighbourGrid.ofCloud w.slots.sink (widen w.settings.maxDistance))
        ((w.slots.guess?.bind Pose.toMotion?).getD .identity) with
    | ok last => rfl
    | error fault => rfl

end Registration

end StereoMapping
