import Mathlib.Data.List.Nodup
import StereoMapping.Proofs.Correspondence.PairTable
import StereoMapping.Proofs.Odometry.Session
import StereoMapping.Proofs.Window.History

/-!
# `Proofs.Odometry.Window` — the window keeps step with the runs

A chain keeps the products of its last runs in two ways that are moved on differently: the rings of the
history, where an entry stays in its slot while the head goes round, and the table of correspondences, which
is written anew for every pair. `Windowed` says that both show the same runs, as many steps back. A run looks
only at what is shown, so a run begun in step ends in step, whatever its estimate comes to.

## Contents
- `runsBack`, `recent`: the numbers of the last runs.
- `Windowed`: a chain shows the products of the runs up to some number.
- `Shown.store`, `holds_tableAt_succ`: history and table move on by one run.
- `Windowed.perceive`: taking in a pair succeeds, and moves the window on by one run.
-/

namespace StereoMapping

variable {S D : Type} [Scalar S] [Scalar D]

/-- Entries that can all be read are read in order. -/
theorem mapM_eq_ok {α β : Type} {f : α → Except Error β} {g : α → β} {xs : List α}
    (h : ∀ x ∈ xs, f x = .ok (g x)) : xs.mapM f = .ok (xs.map g) := by
  induction xs with
  | nil => rfl
  | cons x xs ih =>
    have hrest : xs.mapM f = .ok (xs.map g) := ih fun y hy => h y (List.mem_cons_of_mem x hy)
    rw [List.mapM_cons, h x List.mem_cons_self, hrest]
    rfl

/-! ## The last runs -/

/-- The numbers of the runs there were, newest first. -/
def runsBack : Nat → List Nat
  | 0 => []
  | t + 1 => (t + 1) :: runsBack t

theorem length_runsBack (t : Nat) : (runsBack t).length = t := by
  induction t with
  | zero => rfl
  | succ t ih => exact congrArg (· + 1) ih

theorem getElem?_runsBack {t k : Nat} (h : k < t) : (runsBack t)[k]? = some (t - k) := by
  induction t generalizing k with
  | zero => exact absurd h (Nat.not_lt_zero k)
  | succ t ih =>
    cases k with
    | zero => rfl
    | succ k =>
      have hk : t + 1 - (k + 1) = t - k := by omega
      rw [hk, ← ih (Nat.lt_of_succ_lt_succ h)]
      rfl

namespace Session

/-- The numbers of the runs in the window, newest first. -/
def recent (s : Session S D) (t : Nat) : List Nat := (runsBack t).take s.size

theorem recent_succ {s : Session S D} {t : Nat} :
    s.recent (t + 1) = ((t + 1) :: s.recent t).take s.size := by
  obtain ⟨n, hn⟩ : ∃ n, s.size = n + 1 := Nat.exists_eq_succ_of_ne_zero (Nat.ne_of_gt s.size_pos)
  unfold recent
  rw [hn, List.take_succ_cons, List.take_take, Nat.min_eq_left (Nat.le_succ n)]
  rfl

theorem length_recent {s : Session S D} {t : Nat} : (s.recent t).length = min t s.size := by
  unfold recent
  rw [List.length_take, length_runsBack, Nat.min_comm]

theorem getElem?_recent {s : Session S D} {t k : Nat} (h : k < min t s.size) :
    (s.recent t)[k]? = some (t - k) := by
  unfold recent
  rw [List.getElem?_take_of_lt (Nat.lt_of_lt_of_le h (Nat.min_le_right _ _)),
    getElem?_runsBack (Nat.lt_of_lt_of_le h (Nat.min_le_left _ _))]

theorem getElem?_map_recent {β : Type} {s : Session S D} {t k : Nat} (f : Nat → β) (h : k < min t s.size) :
    ((s.recent t).map f)[k]? = some (f (t - k)) := by
  rw [List.getElem?_map, getElem?_recent h, Option.map_some]

theorem map_recent_succ {β : Type} {s : Session S D} {t : Nat} (f : Nat → β) :
    (s.recent (t + 1)).map f = (f (t + 1) :: (s.recent t).map f).take s.size := by
  rw [recent_succ, List.map_take, List.map_cons]

variable [Precision S D]

/-- What the table has for a pair of cameras after some runs. -/
def tableAt (s : Session S D) (t a b : Nat) : Correspondences (Vec3 S) S :=
  if b < t then s.linked (t - a) (t - b) else #[]

/-! ## A chain in step -/

/-- A history shows the products of the runs up to number `t`. -/
structure Shown (s : Session S D) (t : Nat) (h : History S) : Prop where
  size_eq : h.size = s.size
  images_capacity : h.images.capacity = s.size
  images : h.images.Holds ((s.recent t).map s.pairs)
  leftFeatures : h.featureRings.Holds s.size KeypointTrack.leftFeatures
    ((s.recent t).map fun j => (s.observation j).leftFeatures)
  rightFeatures : h.featureRings.Holds s.size KeypointTrack.rightFeatures
    ((s.recent t).map fun j => (s.observation j).rightFeatures)
  leftRight : h.matchRings.Holds s.size KeypointTrack.leftRight
    ((s.recent t).map fun j => (s.observation j).leftRight)
  dense : h.cloudRings.Holds s.size KeypointTrack.denseClouds
    ((s.recent t).map fun j => (s.observation j).dense)
  keypoints : h.cloudRings.Holds s.size KeypointTrack.keypointClouds
    ((s.recent t).map fun j => (s.observation j).keypoints)

/-- The window of a chain shows the runs up to number `t`. -/
structure Windowed (s : Session S D) (t : Nat) (c : KeypointChain S D) : Prop where
  settings_eq : c.settings = s.settings
  table : c.track.table.Holds s.size (s.tableAt t)
  history : s.Shown t c.track.history

/-- A new history shows that there were no runs. -/
theorem shown_initial (s : Session S D) : s.Shown 0 (KeypointTrack.initial s.settings).history := by
  have hnone : s.recent 0 = [] := List.take_nil
  refine ⟨rfl, Ring.capacity_create, ?_, ?_, ?_, ?_, ?_, ?_⟩ <;> rw [hnone]
  · exact Ring.holds_create s.size_pos
  all_goals exact Categories.holds_empty s.size_pos

/-- Storing the products of the next run moves every category on by one entry. -/
theorem Shown.store {s : Session S D} {t : Nat} {h : History S} (hs : s.Shown t h) :
    s.Shown (t + 1) (KeypointTrack.store h (s.pairs (t + 1)).1 (s.pairs (t + 1)).2
      (s.observation (t + 1))) := by
  have hsize := hs.size_eq
  -- features and clouds have two categories each, and an addition to one leaves the other
  have hfeatures : KeypointTrack.leftFeatures ≠ KeypointTrack.rightFeatures := by decide
  have hclouds : KeypointTrack.denseClouds ≠ KeypointTrack.keypointClouds := by decide
  refine ⟨hsize, ?_, ?_, ?_, ?_, ?_, ?_, ?_⟩
  · exact Ring.capacity_push.trans hs.images_capacity
  · rw [map_recent_succ, ← hs.images_capacity]
    exact hs.images.push (s.pairs (t + 1))
  · rw [map_recent_succ]
    have hpush := hs.leftFeatures.push (s.observation (t + 1)).leftFeatures
    rw [← hsize] at hpush ⊢
    exact hpush.push_ne hfeatures
  · rw [map_recent_succ]
    have hother := hs.rightFeatures
    rw [← hsize] at hother ⊢
    exact (hother.push_ne hfeatures.symm).push (s.observation (t + 1)).rightFeatures
  · rw [map_recent_succ]
    have hpush := hs.leftRight.push (s.observation (t + 1)).leftRight
    rw [← hsize] at hpush ⊢
    exact hpush
  · rw [map_recent_succ]
    have hpush := hs.dense.push (s.observation (t + 1)).dense
    rw [← hsize] at hpush ⊢
    exact hpush.push_ne hclouds
  · rw [map_recent_succ]
    have hother := hs.keypoints
    rw [← hsize] at hother ⊢
    exact (hother.push_ne hclouds.symm).push (s.observation (t + 1)).keypoints

/-! ### What a run sees of earlier ones -/

/-- The view of the run some steps back from run `t`. -/
def viewOf (s : Session S D) (t steps : Nat) : PastView S where
  steps := steps
  leftFeatures := (s.observation (t - steps)).leftFeatures
  rightFeatures := (s.observation (t - steps)).rightFeatures
  leftRight := (s.observation (t - steps)).leftRight
  keypoints := (s.observation (t - steps)).keypoints

theorem Windowed.pastView_eq {s : Session S D} {t k : Nat} {c : KeypointChain S D} (h : s.Windowed t c)
    (hk : k < min t s.size) : c.track.pastView k = .ok (s.viewOf t k) := by
  have hleft : c.track.history.features k KeypointTrack.leftFeatures = .ok _ :=
    h.history.leftFeatures.entry_eq .features (getElem?_map_recent _ hk)
  have hright : c.track.history.features k KeypointTrack.rightFeatures = .ok _ :=
    h.history.rightFeatures.entry_eq .features (getElem?_map_recent _ hk)
  have hmatches : c.track.history.matchesBack k KeypointTrack.leftRight = .ok _ :=
    h.history.leftRight.entry_eq .correspondences (getElem?_map_recent _ hk)
  have hcloud : c.track.history.cloud k KeypointTrack.keypointClouds = .ok _ :=
    h.history.keypoints.entry_eq .pointCloud (getElem?_map_recent _ hk)
  unfold KeypointTrack.pastView
  rw [hleft, hright, hmatches, hcloud]
  rfl

/-- The earlier pairs of the next run can all be read, oldest first. -/
theorem Windowed.past_eq {s : Session S D} {t : Nat} {c : KeypointChain S D} (h : s.Windowed t c) :
    c.track.past c.settings = .ok ((List.range (min t (s.size - 1))).reverse.map (s.viewOf t)) := by
  have hcount : c.track.history.featureRings.count KeypointTrack.leftFeatures = min t s.size := by
    rw [h.history.leftFeatures.count_eq, List.length_map, length_recent]
  have hwindow : c.settings.windowSize = s.size := congrArg KeypointSettings.windowSize h.settings_eq
  have hheld : min (min t s.size) (s.size - 1) = min t (s.size - 1) := by omega
  unfold KeypointTrack.past
  rw [hcount, hwindow, hheld]
  apply mapM_eq_ok
  intro k hk
  rw [List.mem_reverse, List.mem_range] at hk
  exact h.pastView_eq (by omega)

/-- The maps of a run are those of its temporal matches, each for the camera as many steps back as its pair. -/
theorem chainMaps_viewOf {s : Session S D} {t : Nat} (steps : List Nat) (hsteps : ∀ k ∈ steps, k < t)
    (m : KeypointModules S D) :
    (m.chainMaps s.settings.pixelMatching (s.observation (t + 1)) (steps.map (s.viewOf t))).2
      = (rematch m s.observation (t + 1) (steps.map fun k => t - k)).map
          fun entry => (t + 1 - entry.1, s.links (t + 1) entry.1 entry.2.1 entry.2.2) := by
  -- each pair is matched by the components as the pairs before left them, so they are general here
  induction steps generalizing m with
  | nil => rfl
  | cons k rest ih =>
    have hk : k < t := hsteps k List.mem_cons_self
    have hcamera : t + 1 - (t - k) = k + 1 := by omega
    have htail := ih fun j hj => hsteps j (List.mem_cons_of_mem k hj)
    simp only [List.map_cons, KeypointModules.chainMaps, rematch, hcamera, htail]
    rfl

omit [Scalar D] [Precision S D] in
/-- The temporal matching leaves the estimator alone. -/
theorem chainMaps_estimator (pixels : PixelMatching S) (current : Observation S) (views : List (PastView S))
    (m : KeypointModules S D) : (m.chainMaps pixels current views).1.estimator = m.estimator := by
  induction views generalizing m with
  | nil => rfl
  | cons view rest ih =>
    simp only [KeypointModules.chainMaps]
    rw [ih]
    rfl

/-! ### The table of the next run -/

/-- Entries moved to their distances from a number are looked up there. -/
theorem lookup_map_sub {β γ : Type} {entries : List (Nat × β)} {last key : Nat} (f : Nat → β → γ)
    (h : ∀ entry ∈ entries, entry.1 ≤ last) (hkey : key ≤ last) :
    (entries.map fun entry => (last - entry.1, f entry.1 entry.2)).lookup (last - key)
      = (entries.lookup key).map (f key) := by
  induction entries with
  | nil => rfl
  | cons entry rest ih =>
    have hle : entry.1 ≤ last := h entry List.mem_cons_self
    have hrest := ih fun e he => h e (List.mem_cons_of_mem entry he)
    obtain ⟨k, b⟩ := entry
    rw [List.map_cons, List.lookup_cons, List.lookup_cons]
    -- up to the last key, differences from it tell keys apart
    by_cases hk : key = k
    · subst hk
      rw [beq_self_eq_true, beq_self_eq_true]
      rfl
    · have hne : last - key ≠ last - k := by
        simp only at hle
        omega
      rw [beq_false_of_ne hk, beq_false_of_ne hne]
      exact hrest

/-- The maps that a run sets in the table. -/
def newMaps (s : Session S D) (t : Nat) : List (Nat × Correspondences (Vec3 S) S) :=
  (s.rematches t).map fun entry => (t - entry.1, s.links t entry.1 entry.2.1 entry.2.2)

theorem mem_earlier_of_mem_rematches {s : Session S D} {t : Nat}
    {entry : Nat × Correspondences (Vec2 S) S × Correspondences (Vec2 S) S}
    (h : entry ∈ s.rematches t) : entry.1 ∈ s.earlier t := by
  have hkey : entry.1 ∈ (s.rematches t).map Prod.fst := List.mem_map_of_mem h
  unfold rematches at hkey
  rw [map_fst_rematch] at hkey
  exact hkey

/-- The cameras that a run sets maps for are in the window, each once. -/
theorem newMaps_cameras {s : Session S D} {t : Nat} :
    (∀ camera ∈ (s.newMaps t).map Prod.fst, 0 < camera ∧ camera < s.size) ∧
      ((s.newMaps t).map Prod.fst).Nodup := by
  have hkeys : (s.newMaps t).map Prod.fst = (s.earlier t).map fun j => t - j := by
    have hruns : (s.rematches t).map Prod.fst = s.earlier t := map_fst_rematch _ _ _ _
    rw [← hruns]
    unfold newMaps
    rw [List.map_map, List.map_map]
    rfl
  rw [hkeys]
  constructor
  · intro camera hcamera
    obtain ⟨j, hj, rfl⟩ := List.mem_map.mp hcamera
    have := mem_earlier.mp hj
    omega
  · unfold earlier
    rw [List.map_map]
    apply List.Nodup.map_on
    · intro i hi j hj hij
      rw [List.mem_reverse, List.mem_range] at hi hj
      simp only [Function.comp] at hij
      omega
    · exact List.nodup_reverse.mpr List.nodup_range

/-- The new maps of a run, and empty ones for cameras without a pair yet. -/
theorem lookup_newMaps {s : Session S D} {t b : Nat} (hpos : 0 < b) (hb : b < s.size) :
    ((s.newMaps (t + 1)).lookup b).getD #[] = s.tableAt (t + 1) 0 b := by
  have hle : ∀ entry ∈ s.rematches (t + 1), entry.1 ≤ t + 1 := by
    intro entry hentry
    have := mem_earlier.mp (mem_earlier_of_mem_rematches hentry)
    omega
  unfold tableAt
  by_cases hbt : b < t + 1
  · have hback : b = t + 1 - (t + 1 - b) := by omega
    have hmem : t + 1 - b ∈ s.earlier (t + 1) := by
      rw [mem_earlier]
      omega
    obtain ⟨left, right, hfound⟩ := exists_rematch hmem
    have hlookup := lookup_map_sub (fun j m => s.links (t + 1) j m.1 m.2) hle (Nat.sub_le (t + 1) b)
    rw [← hback, hfound, Option.map_some] at hlookup
    have hnew : (s.newMaps (t + 1)).lookup b = some (s.links (t + 1) (t + 1 - b) left right) := hlookup
    unfold linked
    rw [if_pos hbt, hnew, Nat.sub_zero, hfound, Option.getD_some]
  · -- no run is that many steps back
    have hnone : (s.newMaps (t + 1)).lookup b = none := by
      rw [List.lookup_eq_none_iff]
      intro entry hentry
      obtain ⟨old, hold, rfl⟩ := List.mem_map.mp hentry
      have := mem_earlier.mp (mem_earlier_of_mem_rematches hold)
      rw [bne_iff_ne]
      simp only
      omega
    rw [if_neg hbt, hnone, Option.getD_none]

/-- **The table moves on with the runs**: shifted by one step and given the new maps, the table of `t` runs is
the table of `t + 1`. -/
theorem holds_tableAt_succ {s : Session S D} {t : Nat} {table : WindowTable S}
    (h : table.Holds s.size (s.tableAt t)) :
    ∃ older next, table.shift s.size #[] = .ok older ∧
      (s.newMaps (t + 1)).foldlM (fun table (camera, map) => table.set 0 camera map) older = .ok next ∧
        next.Holds s.size (s.tableAt (t + 1)) := by
  obtain ⟨hcameras, hnodup⟩ := s.newMaps_cameras (t := t + 1)
  obtain ⟨older, hshift, holder⟩ := h.shift s.fits #[]
  obtain ⟨next, hfold, hnext⟩ := holder.foldlM_set _ hcameras hnodup
  refine ⟨older, next, hshift, hfold, hnext.full, ?_⟩
  intro a b hab hb
  rw [hnext.get_eq a b hab hb]
  congr 1
  by_cases ha : a = 0
  · -- the pairs of the new camera are set
    subst ha
    rw [if_pos rfl, if_neg (fun hc => Nat.lt_irrefl 0 hc.1)]
    exact lookup_newMaps hab hb
  · -- all others were in the table, and are of the same two runs
    have hb' : b - 1 < s.size := by omega
    have hrun : t - (a - 1) = t + 1 - a ∧ t - (b - 1) = t + 1 - b := by omega
    have hthere : b - 1 < t ↔ b < t + 1 := by omega
    rw [if_neg ha, if_pos ⟨Nat.pos_of_ne_zero ha, hb'⟩]
    unfold tableAt
    rw [hrun.1, hrun.2, if_congr hthere rfl rfl]

/-! ### A run keeps step -/

/-- The track of a run between its halves: the products are stored, what is published is left alone. -/
structure Advanced (old new : KeypointTrack S D) : Prop where
  pose_eq : new.pose = old.pose
  cloud_eq : new.cloud = old.cloud
  map_eq : new.map = old.map
  mapStarted_eq : new.mapStarted = old.mapStarted
  seen_eq : new.seen = old.seen
  steps_eq : new.stepsSincePose = old.stepsSincePose + 1
  success_eq : new.success = false

/-- **Taking in a pair succeeds**, stores its products and moves the window on by one run. -/
theorem Windowed.perceive {s : Session S D} {t : Nat} (h : s.Windowed t (s.chain t)) :
    (s.ready (t + 1)).perceive.2 = .ok () ∧ s.Windowed (t + 1) (s.perceived (t + 1)) ∧
      Advanced (s.track t) (s.perceived (t + 1)).track ∧
      (s.perceived (t + 1)).modules.estimator = (s.chain t).modules.estimator := by
  obtain ⟨older, next, hshift, hfold, hnext⟩ := holds_tableAt_succ h.table
  -- the chain goes by its own settings, the products of a run by those of the session
  have hsettings : (s.chain t).settings = s.settings := h.settings_eq
  have hobs : (s.ready (t + 1)).modules.observe (s.ready (t + 1)).settings.rightCamera (s.ready (t + 1)).left
      (s.ready (t + 1)).right = ((s.observed (t + 1)).1, s.observation (t + 1)) := by
    show (s.chain t).modules.observe (s.chain t).settings.rightCamera _ _ = _
    rw [hsettings]
    rfl
  have hmaps : ((s.observed (t + 1)).1.chainMaps (s.ready (t + 1)).settings.pixelMatching
      (s.observation (t + 1)) ((List.range (min t (s.size - 1))).reverse.map (s.viewOf t))).2
      = s.newMaps (t + 1) := by
    show ((s.observed (t + 1)).1.chainMaps (s.chain t).settings.pixelMatching _ _).2 = _
    rw [hsettings]
    apply chainMaps_viewOf
    intro k hk
    rw [List.mem_reverse, List.mem_range] at hk
    omega
  have hsize : (s.ready (t + 1)).settings.windowSize = s.size := congrArg KeypointSettings.windowSize hsettings
  have hshift' : (s.ready (t + 1)).track.table.shift (s.ready (t + 1)).settings.windowSize #[] = .ok older := by
    rw [hsize]
    exact hshift
  have hall := perceive_eq hobs h.past_eq (hmaps ▸ advance_eq hshift' hfold)
  unfold perceived
  rw [congrArg Prod.fst hall]
  refine ⟨congrArg Prod.snd hall, ?_, ⟨rfl, rfl, rfl, rfl, rfl, rfl, rfl⟩, ?_⟩
  · exact ⟨hsettings, hnext, h.history.store⟩
  · exact (chainMaps_estimator _ _ _ _).trans rfl

end Session

end StereoMapping
