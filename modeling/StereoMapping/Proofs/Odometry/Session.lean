import StereoMapping.Odometry.KeypointChain
import StereoMapping.Proofs.Correspondence.PairTable

/-!
# `Proofs.Odometry.Session` — a chain at work, and what each of its runs gave

A session is a chain as it was set up and the pairs of images it is given, one for each run. Runs are counted
from one. Components keep states of their own, so what a run gives depends on all the runs before it; it is
read here off the state in which the run begins, without looking into the history or the table that the chain
keeps. Those are compared with it in `Proofs.Odometry.Window`.

## Contents
- `KeypointChain.Fresh`: a chain before its first pair, with what its settings were checked for.
- `KeypointTrack.initial`: the track that it has then; `KeypointTrack.create_cases`: whether there is room for it.
- `Session`: `chain`, `ready`, `result`; `observation`, `earlier`, `rematches`, `linked`: the products of a run.
- `perceived`, `chain_succ_of_perceive`: a run perceives, then locates.
-/

namespace StereoMapping

variable {S D : Type} [Scalar S] [Scalar D]

/-! ## A chain before its first pair -/

/-- A chain with valid settings, any components, and the track that is created for it. -/
structure KeypointChain.Fresh (c : KeypointChain S D) : Prop where
  validated : c.settings.validate = .ok ()
  created : KeypointTrack.create c.settings = .ok c.track

/-- What is set up from a registry is fresh. -/
theorem KeypointChain.fresh_of_setup {settings : KeypointSettings S D} {registry rest : Registry S D}
    {c : KeypointChain S D} (h : KeypointChain.setup settings registry = (rest, .ok c)) :
    c.Fresh ∧ c.settings = settings := by
  unfold KeypointChain.setup Registry.assemble at h
  split at h
  · cases (Prod.mk.inj h).2
  · rename_i hvalid
    split at h
    · cases (Prod.mk.inj h).2
    · split at h
      · cases (Prod.mk.inj h).2
      · cases hcreated : KeypointTrack.create settings with
        | error e =>
          rw [hcreated] at h
          cases (Prod.mk.inj h).2
        | ok track =>
          rw [hcreated] at h
          obtain rfl := Except.ok.inj (Prod.mk.inj h).2
          exact ⟨⟨hvalid, hcreated⟩, rfl⟩

namespace KeypointSettings

/-- Valid settings pass each of their checks. -/
theorem checks_of_validate {s : KeypointSettings S D} (h : s.validate = .ok ()) :
    2 ≤ s.windowSize ∧ checkResolution s.resolution = .ok () ∧ checkRadius s.searchRadius = .ok () := by
  unfold validate at h
  by_cases hsize : s.windowSize < 2
  · rw [if_pos hsize] at h
    cases h
  · rw [if_neg hsize] at h
    cases hres : checkResolution s.resolution with
    | error e =>
      rw [hres] at h
      cases h
    | ok u =>
      rw [hres] at h
      cases hrad : checkRadius s.searchRadius with
      | error e =>
        rw [hrad] at h
        cases h
      | ok v => exact ⟨Nat.le_of_not_lt hsize, rfl, rfl⟩

end KeypointSettings

namespace KeypointTrack

/-- The track before any pair. -/
def initial (settings : KeypointSettings S D) : KeypointTrack S D where
  history := .empty settings.windowSize
  table := .filled settings.windowSize #[]
  map := ⟨settings.resolution, settings.fusionPolicy, ∅, ∅, .identity⟩
  pose := .identity
  cloud := .empty
  success := false
  seen := 0
  mapStarted := false
  stepsSincePose := 0

theorem create_map {settings : KeypointSettings S D} (h : settings.validate = .ok ()) :
    VoxelMap.create settings.resolution settings.fusionPolicy = .ok (initial settings).map := by
  obtain ⟨_, hresolution, _⟩ := KeypointSettings.checks_of_validate h
  unfold VoxelMap.create
  rw [hresolution]
  rfl

/-- **Valid settings have a track to begin with**, if a table for their window fits. Otherwise the history or the table
is refused; there are no settings for which the pairs of the window would be counted wrong. -/
theorem create_cases {settings : KeypointSettings S D} (h : settings.validate = .ok ()) :
    (PairTable.Fits settings.windowSize ∧ create settings = .ok (initial settings)) ∨
      ¬PairTable.Fits settings.windowSize ∧
        ∃ cause : Breach, cause.OfMemory ∧ create settings = .error (.breach cause) := by
  obtain ⟨hsize, _, _⟩ := KeypointSettings.checks_of_validate h
  have hpos : 0 < settings.windowSize := Nat.lt_of_lt_of_le Nat.two_pos hsize
  unfold create
  rw [create_map h]
  by_cases hfits : PairTable.Fits settings.windowSize
  · refine .inl ⟨hfits, ?_⟩
    rw [History.create_of_le hpos (le_of_pairs_lt hfits.pairs_lt), PairTable.create_of_fits hfits]
    rfl
  · refine .inr ⟨hfits, ?_⟩
    -- the history bounds the window before the table can be counted wrong
    rcases Nat.lt_or_ge History.slotLimit settings.windowSize with hmany | hheld
    · obtain ⟨cause, hcause, hhistory⟩ := History.create_of_gt (S := S) hmany
      exact ⟨cause, hcause, by rw [hhistory]; rfl⟩
    · refine ⟨.capacityOverflow, .inl rfl, ?_⟩
      rw [History.create_of_le hpos hheld, PairTable.create_of_not_fits (pairs_lt_of_le hheld) hfits]
      rfl

theorem create_eq {settings : KeypointSettings S D} (h : settings.validate = .ok ())
    (hfits : PairTable.Fits settings.windowSize) : create settings = .ok (initial settings) := by
  rcases create_cases h with ⟨_, hcreate⟩ | ⟨hnot, _⟩
  · exact hcreate
  · exact absurd hfits hnot

end KeypointTrack

/-- A component that always gives the same output. -/
def Component.constant {In Out : Type} (out : Out) : Component In Out where
  State := Unit
  state := ()
  attach _ state := state
  configure state := (state, .ok ())
  load _ state := state
  process state := state
  output _ := out

/-! ## Sessions -/

/-- A chain as it was set up, and the pairs that it is given: the images of the run of each number. -/
structure Session (S D : Type) [Scalar S] [Scalar D] : Type 1 where
  start : KeypointChain S D
  fresh : start.Fresh
  /-- Left and right image of each run. Runs are counted from one. -/
  pairs : Nat → Frame × Frame

namespace Session

def settings (s : Session S D) : KeypointSettings S D := s.start.settings

/-- Cameras in the window. -/
def size (s : Session S D) : Nat := s.settings.windowSize

theorem size_ge_two (s : Session S D) : 2 ≤ s.size :=
  (KeypointSettings.checks_of_validate s.fresh.validated).1

theorem size_pos (s : Session S D) : 0 < s.size := Nat.lt_of_lt_of_le Nat.two_pos s.size_ge_two

/-- The chain was set up with a track for its window. -/
theorem fits_and_track (s : Session S D) : PairTable.Fits s.size ∧ s.start.track = .initial s.settings := by
  have hcreated := s.fresh.created
  rcases KeypointTrack.create_cases s.fresh.validated with ⟨hfits, hcreate⟩ | ⟨_, _, _, hrefused⟩
  · exact ⟨hfits, Except.ok.inj (hcreated.symm.trans hcreate)⟩
  · rw [hrefused] at hcreated
    cases hcreated

theorem fits (s : Session S D) : PairTable.Fits s.size := s.fits_and_track.1

/-- The earlier runs that are still in the window of a run, oldest first. -/
def earlier (s : Session S D) (t : Nat) : List Nat :=
  (List.range (min (t - 1) (s.size - 1))).reverse.map fun steps => t - 1 - steps

theorem mem_earlier {s : Session S D} {t past : Nat} :
    past ∈ s.earlier t ↔ 0 < past ∧ past < t ∧ t < past + s.size := by
  have hsize := s.size_ge_two
  unfold earlier
  rw [List.mem_map]
  constructor
  · rintro ⟨steps, hsteps, rfl⟩
    rw [List.mem_reverse, List.mem_range] at hsteps
    omega
  · rintro ⟨hpos, hlt, hwindow⟩
    refine ⟨t - 1 - past, ?_, by omega⟩
    rw [List.mem_reverse, List.mem_range]
    omega

variable [Precision S D]

/-- The chain with a pair to be processed. -/
def give (c : KeypointChain S D) (pair : Frame × Frame) : KeypointChain S D :=
  { c with left := pair.1, right := pair.2 }

/-- The chain after some runs, whatever their results were. -/
def chain (s : Session S D) : Nat → KeypointChain S D
  | 0 => s.start
  | t + 1 => (give (s.chain t) (s.pairs (t + 1))).run.1

/-- The chain as a run begins. -/
def ready (s : Session S D) (t : Nat) : KeypointChain S D := give (s.chain (t - 1)) (s.pairs t)

/-- The result of a run. -/
def result (s : Session S D) (t : Nat) : Except Error Unit := (s.ready t).run.2

/-- What is kept after some runs. -/
def track (s : Session S D) (t : Nat) : KeypointTrack S D := (s.chain t).track

/-- Whether a run located its pair. -/
def success (s : Session S D) (t : Nat) : Bool := (s.track t).success

/-! ### The products of a run -/

/-- The components after they processed the pair of a run, and what they gave. -/
def observed (s : Session S D) (t : Nat) : KeypointModules S D × Observation S :=
  (s.ready t).modules.observe s.settings.rightCamera (s.pairs t).1 (s.pairs t).2

/-- The clouds, features and matches of a run. -/
def observation (s : Session S D) (t : Nat) : Observation S := (s.observed t).2

/-- Matches of the features of a pair, given by its number, with those of others, one after the other: for
each of them its number, the matches of the left features and those of the right ones. -/
def rematch (m : KeypointModules S D) (seen : Nat → Observation S) (current : Nat) :
    List Nat → List (Nat × Correspondences (Vec2 S) S × Correspondences (Vec2 S) S)
  | [] => []
  | past :: rest =>
    let (m, left) := m.matching (seen current).leftFeatures (seen past).leftFeatures
    let (m, right) := m.matching (seen current).rightFeatures (seen past).rightFeatures
    (past, left, right) :: rematch m seen current rest

/-- The temporal matches of a run, with the earlier runs of its window. -/
def rematches (s : Session S D) (t : Nat) :
    List (Nat × Correspondences (Vec2 S) S × Correspondences (Vec2 S) S) :=
  rematch (s.observed t).1 s.observation t (s.earlier t)

/-- Spatial correspondences of a run with an earlier one, from their temporal matches. -/
def links (s : Session S D) (current past : Nat) (left right : Correspondences (Vec2 S) S) :
    Correspondences (Vec3 S) S :=
  FourMatches.correspondences s.settings.pixelMatching {
    now := (s.observation current).leftRight
    left := left
    right := right
    past := (s.observation past).leftRight
    nowCloud := (s.observation current).keypoints
    pastCloud := (s.observation past).keypoints }

/-- Spatial correspondences of a run with another one, empty unless that is an earlier one of its window. -/
def linked (s : Session S D) (current past : Nat) : Correspondences (Vec3 S) S :=
  match (s.rematches current).lookup past with
  | some (left, right) => s.links current past left right
  | none => #[]

omit [Scalar S] [Scalar D] [Precision S D] in
theorem map_fst_rematch (seen : Nat → Observation S) (current : Nat) (runs : List Nat)
    (m : KeypointModules S D) : (rematch m seen current runs).map Prod.fst = runs := by
  induction runs generalizing m with
  | nil => rfl
  | cons past rest ih => exact congrArg (past :: ·) (ih _)

/-- A run has temporal matches with each earlier run of its window. -/
theorem exists_rematch {s : Session S D} {t past : Nat} (h : past ∈ s.earlier t) :
    ∃ left right, (s.rematches t).lookup past = some (left, right) := by
  have hkey : past ∈ (s.rematches t).map Prod.fst := by
    unfold rematches
    rw [map_fst_rematch]
    exact h
  obtain ⟨entry, hentry, rfl⟩ := List.mem_map.mp hkey
  have hsome : ((s.rematches t).lookup entry.1).isSome :=
    List.lookup_isSome_iff.mpr ⟨entry, hentry, beq_self_eq_true _⟩
  obtain ⟨⟨left, right⟩, hfound⟩ := Option.isSome_iff_exists.mp hsome
  exact ⟨left, right, hfound⟩

/-! ### A run perceives, then locates -/

omit [Scalar S] [Scalar D] [Precision S D] in
/-- Advancing succeeds with the table. -/
theorem advance_eq {t : KeypointTrack S D} {settings : KeypointSettings S D} {left right : Frame}
    {current : Observation S} {maps : List (Nat × Correspondences (Vec3 S) S)} {older table : WindowTable S}
    (hshift : t.table.shift settings.windowSize #[] = .ok older)
    (h : maps.foldlM (fun table (camera, map) => table.set 0 camera map) older = .ok table) :
    t.advance settings left right current maps = .ok { t with
      table := table
      history := KeypointTrack.store t.history left right current
      stepsSincePose := t.stepsSincePose + 1
      success := false } := by
  unfold KeypointTrack.advance
  rw [hshift]
  simp only [bind, Except.bind, h]
  rfl

omit [Precision S D] in
/-- Taking in a pair succeeds with the view of the past and the track. -/
theorem perceive_eq {c : KeypointChain S D} {m : KeypointModules S D} {current : Observation S}
    {past : List (PastView S)} {track : KeypointTrack S D}
    (hobs : c.modules.observe c.settings.rightCamera c.left c.right = (m, current))
    (hpast : c.track.past c.settings = .ok past)
    (hadv : c.track.advance c.settings c.left c.right current
      (m.chainMaps c.settings.pixelMatching current past).2 = .ok track) :
    c.perceive = ({ c with
      modules := (m.chainMaps c.settings.pixelMatching current past).1, track := track }, .ok ()) := by
  unfold KeypointChain.perceive
  simp only [hobs, hpast, hadv]

/-- The chain of a run between its two halves. -/
@[irreducible] def perceived (s : Session S D) (t : Nat) : KeypointChain S D := (s.ready t).perceive.1

theorem track_zero (s : Session S D) : s.track 0 = .initial s.settings := s.fits_and_track.2

theorem chain_succ_of_perceive {s : Session S D} {t : Nat} (h : (s.ready (t + 1)).perceive.2 = .ok ()) :
    s.chain (t + 1) = (s.perceived (t + 1)).locate.1 ∧ s.result (t + 1) = (s.perceived (t + 1)).locate.2 := by
  have hrun : (s.ready (t + 1)).run = (s.perceived (t + 1)).locate := by
    unfold KeypointChain.run perceived
    generalize (s.ready (t + 1)).perceive = p at h ⊢
    obtain ⟨c, r⟩ := p
    obtain rfl : r = .ok () := h
    rfl
  exact ⟨congrArg Prod.fst hrun, congrArg Prod.snd hrun⟩

end Session

end StereoMapping
