import StereoMapping.Proofs.Number.Shortest
import StereoMapping.Proofs.Trajectory.Lines

/-!
# `Proofs.Trajectory.Record` — the line of a trajectory point is read back

The numbers of a line are separated by one blank, which ends each of them and is skipped before the next. So a line
is read back if each of its numbers is, and blanks around it do not matter. Of the 64-bit numbers all but negative
infinity are read back.

## Contents
- `IsNumeralChar.isWhiteSpace`, `IsNumeralChar.isBlank`, `IsNumeralChar.ne`: what characters of numerals are not.
- `ReadsBack`, `readsBack_of_ne`, `readsBack_of_isFinite`: numbers, one by one.
- `joined`, `scanScalars?_joined`: numbers separated by blanks.
- `scanTrajectoryPoint?_render`, `lineContent?_render`, `isReadable_render`: the line of a point.
-/

namespace StereoMapping

/-! ## Characters -/

namespace Numeral

variable {c : Char}

theorem IsNumeralChar.ne (h : IsNumeralChar c) {d : Char} (hd : ¬ IsNumeralChar d) : c ≠ d :=
  fun heq => hd (heq ▸ h)

theorem IsNumeralChar.isWhiteSpace (h : IsNumeralChar c) : isWhiteSpace c = false := by
  obtain ⟨hlow, hhigh⟩ := h
  change 43 ≤ c.toNat at hlow
  change c.toNat ≤ 122 at hhigh
  unfold StereoMapping.isWhiteSpace
  simp only [Bool.or_eq_false_iff, Bool.and_eq_false_iff, decide_eq_false_iff_not, beq_eq_false_iff_ne]
  omega

theorem IsNumeralChar.isBlank (h : IsNumeralChar c) : isBlank c = false := by
  have hspace : c ≠ ' ' := h.ne (by decide)
  have htab : c ≠ '\t' := h.ne (by decide)
  unfold StereoMapping.isBlank
  rw [Bool.or_eq_false_iff, beq_eq_false_iff_ne, beq_eq_false_iff_ne]
  exact ⟨hspace, htab⟩

end Numeral

variable {D : Type} [Scalar D]

/-! ## Numbers -/

/-- A number that is read back from its text, in front of anything that does not go on with it. -/
def ReadsBack (x : D) : Prop := ∀ rest, Numeral.Ends rest →
  ∃ n, Numeral.scan? ((Scalar.numeral x).chars ++ rest) = some (n, rest) ∧ Scalar.ofNumeral n = x

/-- **All numbers but one** are read back from their text. -/
theorem readsBack_of_ne {x : Float} (h : x ≠ float64 true Format.double.infinity) : ReadsBack x := by
  intro rest hrest
  have hnumeral : numeral64 x ≠ .infinite true := fun heq => h (numeral64_eq_negative_infinity_iff.mp heq)
  obtain ⟨n, hscan, hsame⟩ := Numeral.scan?_chars hnumeral hrest
  exact ⟨n, hscan, toFloat_of_same_numeral64 hsame⟩

theorem readsBack_of_isFinite {x : Float} (h : Scalar.isFinite x = true) : ReadsBack x := by
  refine readsBack_of_ne ?_
  rintro rfl
  exact absurd h (by decide +kernel)

theorem ReadsBack.exists_cons {x : D} (h : ReadsBack x) :
    ∃ c cs, (Scalar.numeral x).chars = c :: cs ∧ Numeral.IsNumeralChar c := by
  obtain ⟨n, hscan, _⟩ := h [] (fun c hc => nomatch hc)
  obtain ⟨c, cs, heq, hc⟩ := Numeral.exists_cons_of_scan? hscan
  rw [List.append_nil] at heq
  exact ⟨c, cs, heq, hc⟩

/-! ## Numbers separated by blanks -/

/-- The text of some numbers. -/
def joined (xs : List D) : List Char := [' '].intercalate (xs.map fun x => (Scalar.numeral x).chars)

theorem joined_singleton (x : D) : joined [x] = (Scalar.numeral x).chars := List.intercalate_singleton

theorem joined_cons_cons (x y : D) (ys : List D) :
    joined (x :: y :: ys) = (Scalar.numeral x).chars ++ ' ' :: joined (y :: ys) := by
  unfold joined
  rw [List.map_cons, List.map_cons, List.intercalate_cons_cons, List.append_assoc]
  rfl

/-- The text of some numbers starts with a character of the first. -/
theorem joined_cons_eq {x : D} (hx : ReadsBack x) (xs : List D) :
    ∃ c cs, joined (x :: xs) = c :: cs ∧ Numeral.IsNumeralChar c := by
  obtain ⟨c, cs, heq, hc⟩ := hx.exists_cons
  cases xs with
  | nil => exact ⟨c, cs, by rw [joined_singleton, heq], hc⟩
  | cons y ys => exact ⟨c, cs ++ ' ' :: joined (y :: ys), by rw [joined_cons_cons, heq, List.cons_append], hc⟩

theorem isNumeralChar_of_mem_joined {xs : List D} {c : Char} (h : c ∈ joined xs) :
    Numeral.IsNumeralChar c ∨ c = ' ' := by
  induction xs with
  | nil => cases h
  | cons x xs ih =>
    cases xs with
    | nil =>
      rw [joined_singleton] at h
      exact .inl (Numeral.isNumeralChar_of_mem_chars h)
    | cons y ys =>
      rw [joined_cons_cons] at h
      rcases List.mem_append.mp h with h | h
      · exact .inl (Numeral.isNumeralChar_of_mem_chars h)
      · rcases List.mem_cons.mp h with rfl | h
        · exact .inr rfl
        · exact ih h

theorem scanBlanks?_of_not_isBlank {c : Char} (hc : isBlank c = false) (cs : List Char) :
    scanBlanks? (' ' :: c :: cs) = some (c :: cs) := by
  have hdrop : (c :: cs).dropWhile isBlank = c :: cs :=
    List.dropWhile_cons_of_neg (by rw [hc]; exact Bool.false_ne_true)
  exact congrArg some hdrop

theorem ends_blank (rest : List Char) : Numeral.Ends (' ' :: rest) := by
  intro c hc
  obtain rfl := Option.mem_some_iff.mp hc
  decide

/-- The last number. -/
theorem scanScalars?_zero {cs rest : List Char} {n : Numeral} (hscan : Numeral.scan? cs = some (n, rest)) :
    scanScalars? 0 cs = some ([(Scalar.ofNumeral n : D)], rest) := by
  rw [scanScalars?, hscan]
  rfl

/-- A number, blanks and more numbers. -/
theorem scanScalars?_succ {cs rest rest' rest'' : List Char} {n : Numeral} {k : Nat} {xs : List D}
    (hscan : Numeral.scan? cs = some (n, rest)) (hblanks : scanBlanks? rest = some rest')
    (hmore : scanScalars? k rest' = some (xs, rest'')) :
    scanScalars? (k + 1) cs = some (Scalar.ofNumeral n :: xs, rest'') := by
  rw [scanScalars?, hscan]
  simp only [Option.bind_eq_bind, Option.bind_some, hblanks, hmore]
  rfl

/-- **Numbers separated by blanks** are read back in their order. -/
theorem scanScalars?_joined {x : D} {xs : List D} (h : ∀ y ∈ x :: xs, ReadsBack y) {rest : List Char}
    (hrest : Numeral.Ends rest) : scanScalars? xs.length (joined (x :: xs) ++ rest) = some (x :: xs, rest) := by
  induction xs generalizing x with
  | nil =>
    obtain ⟨n, hscan, rfl⟩ := h x List.mem_cons_self rest hrest
    rw [joined_singleton]
    exact scanScalars?_zero hscan
  | cons y ys ih =>
    obtain ⟨hx, hys⟩ := List.forall_mem_cons.mp h
    obtain ⟨n, hscan, hvalue⟩ := hx (' ' :: (joined (y :: ys) ++ rest)) (ends_blank _)
    obtain ⟨c, cs, heq, hc⟩ := joined_cons_eq (hys y List.mem_cons_self) ys
    have hblanks : scanBlanks? (' ' :: (joined (y :: ys) ++ rest)) = some (joined (y :: ys) ++ rest) := by
      rw [heq]
      exact scanBlanks?_of_not_isBlank hc.isBlank _
    have hmore := scanScalars?_succ hscan hblanks (ih hys)
    rw [hvalue] at hmore
    rw [joined_cons_cons, List.append_assoc]
    exact hmore

/-! ## The line of a point -/

theorem toList_render (p : TrajectoryPoint D) : p.render.toList = joined (p.timestamp :: p.pose.components) := by
  unfold TrajectoryPoint.render joined
  rw [String.toList_intercalate, List.map_map]
  congr 2
  funext x
  exact String.toList_ofList

variable {p : TrajectoryPoint D}

/-- **The record of a point** is read back from its line. -/
theorem scanTrajectoryPoint?_render (h : ∀ x ∈ p.timestamp :: p.pose.components, ReadsBack x) {rest : List Char}
    (hrest : Numeral.Ends rest) : scanTrajectoryPoint? (p.render.toList ++ rest) = some (p, rest) := by
  have hscan : scanScalars? 7 (p.render.toList ++ rest) = some (p.timestamp :: p.pose.components, rest) := by
    rw [toList_render]
    exact scanScalars?_joined h hrest
  unfold scanTrajectoryPoint?
  rw [hscan]
  rfl

/-- Blanks around the line of a point do not count. -/
theorem lineContent?_render (h : ∀ x ∈ p.timestamp :: p.pose.components, ReadsBack x) {indent trail : List Char}
    (hindent : ∀ c ∈ indent, isBlank c = true) (htrail : ∀ c ∈ trail, isBlank c = true) :
    lineContent? scanTrajectoryPoint? (indent ++ p.render.toList ++ trail) = some (.record p) := by
  obtain ⟨c, cs, heq, hc⟩ := joined_cons_eq (h p.timestamp List.mem_cons_self) p.pose.components
  rw [← toList_render] at heq
  have hrest : Numeral.Ends trail := by
    intro d hd
    have hblank := htrail d (List.mem_of_mem_head? hd)
    unfold isBlank at hblank
    rw [Bool.or_eq_true, beq_iff_eq, beq_iff_eq] at hblank
    rcases hblank with rfl | rfl <;> decide
  have hscan := scanTrajectoryPoint?_render h hrest
  have hdrop : (indent ++ p.render.toList ++ trail).dropWhile isBlank = c :: (cs ++ trail) := by
    rw [List.append_assoc, List.dropWhile_append_of_pos hindent, heq, List.cons_append]
    exact List.dropWhile_cons_of_neg (by rw [hc.isBlank]; exact Bool.false_ne_true)
  have hend : trail.all isBlankOrEnd = true := by
    rw [List.all_eq_true]
    intro d hd
    unfold isBlankOrEnd
    rw [htrail d hd]
    rfl
  -- a record does not start like a comment
  rw [lineContent?_of_not_comment _ (isComment_eq_false hdrop (hc.ne (by decide))), hdrop, ← List.cons_append, ← heq,
    hscan]
  exact if_pos hend

/-- A line that holds a record, and is not of white space. -/
theorem isReadable_render (h : ∀ x ∈ p.timestamp :: p.pose.components, ReadsBack x) {indent trail : List Char}
    (hindent : ∀ c ∈ indent, isBlank c = true) (htrail : ∀ c ∈ trail, isBlank c = true) :
    isReadable (scanTrajectoryPoint? : List Char → Option (TrajectoryPoint D × List Char))
        (indent ++ p.render.toList ++ trail) = true ∧
      recordsOf scanTrajectoryPoint? (indent ++ p.render.toList ++ trail) = [p] := by
  have hcontent := lineContent?_render h hindent htrail
  have hblank : isBlankLine (indent ++ p.render.toList ++ trail) = false := by
    obtain ⟨c, cs, heq, hc⟩ := joined_cons_eq (h p.timestamp List.mem_cons_self) p.pose.components
    rw [← toList_render] at heq
    unfold isBlankLine
    rw [heq, List.all_append, List.all_append, List.all_cons, hc.isWhiteSpace]
    simp
  unfold isReadable recordsOf
  rw [hcontent, hblank]
  exact ⟨rfl, rfl⟩

end StereoMapping
