import StereoMapping.Proofs.Trajectory.Record

/-!
# `Proofs.Trajectory.File` — written trajectories are read back

A trajectory file has one point a line, perhaps indented or followed by blanks, and comments and lines of white space
anywhere. Lines end with a line feed or with a carriage return and a line feed. Every such file of finite points is
read as the points that were written, in their order.

## Contents
- `WrittenLine`, `LineEnd`, `writeFile`, `filePoints`: files as they are written.
- `exists_splitLines_ended`: a line is split off with or without a carriage return of its own.
- `WrittenLine.read`, `readable_writeFile`: the lines of a file.
- `readTrajectory_writeFile`: files of finite points are read back.
-/

namespace StereoMapping

/-! ## Files as they are written -/

/-- Spaces and tabulators. -/
def Blanks : Type := {cs : List Char // ∀ c ∈ cs, isBlank c = true}

/-- Characters of one line. -/
def OneLine : Type := {cs : List Char // '\n' ∉ cs}

/-- White space within one line. -/
def WhiteSpace : Type := {cs : List Char // '\n' ∉ cs ∧ ∀ c ∈ cs, isWhiteSpace c = true}

/-- What stands on a line: a point between blanks, a comment behind blanks, or white space. -/
inductive WrittenLine (D : Type) where
  | point (indent : Blanks) (p : TrajectoryPoint D) (trail : Blanks)
  | comment (indent : Blanks) (text : OneLine)
  | white (space : WhiteSpace)

/-- What ends a line. -/
inductive LineEnd where
  | lf
  | crlf

def LineEnd.chars : LineEnd → List Char
  | lf => ['\n']
  | crlf => ['\r', '\n']

variable {D : Type} [Scalar D]

namespace WrittenLine

/-- Characters of a line, without its end. -/
def chars : WrittenLine D → List Char
  | point indent p trail => indent.val ++ p.render.toList ++ trail.val
  | comment indent text => indent.val ++ '#' :: text.val
  | white space => space.val

/-- Points of a line, at most one. -/
def points : WrittenLine D → List (TrajectoryPoint D)
  | point _ p _ => [p]
  | comment _ _ | white _ => []

end WrittenLine

/-- Text of a file. -/
def writeFile (file : List (WrittenLine D × LineEnd)) : String :=
  String.ofList (file.flatMap fun line => line.1.chars ++ line.2.chars)

/-- Points of a file, in the order of its lines. -/
def filePoints (file : List (WrittenLine D × LineEnd)) : List (TrajectoryPoint D) :=
  file.flatMap fun line => line.1.points

/-- All numbers of a point are finite. -/
def TrajectoryPoint.IsFinite (p : TrajectoryPoint D) : Prop :=
  ∀ x ∈ p.timestamp :: p.pose.components, Scalar.isFinite x = true

instance (p : TrajectoryPoint D) : Decidable p.IsFinite := inferInstanceAs (Decidable (∀ x ∈ _, _))

/-! ## Lines of a file -/

/-- A line is split off as it is, or without the last carriage return of its own. -/
theorem exists_splitLines_ended {content : List Char} (h : '\n' ∉ content) (e : LineEnd) (rest : List Char) :
    ∃ line, splitLines (content ++ e.chars ++ rest) = line :: splitLines rest ∧
      (line = content ∨ content = line ++ ['\r']) := by
  cases e with
  | lf =>
    refine ⟨_, ?_, dropReturn_reverse content⟩
    rw [List.append_assoc]
    exact splitLines_line h rest
  | crlf =>
    have hreturn : '\n' ∉ content ++ ['\r'] := by simpa using h
    refine ⟨content, ?_, .inl rfl⟩
    have hsplit := splitLines_line hreturn rest
    rw [List.reverse_append] at hsplit
    change _ = content.reverse.reverse :: splitLines rest at hsplit
    rw [List.reverse_reverse, List.append_assoc] at hsplit
    rw [List.append_assoc]
    exact hsplit

theorem Blanks.ne (blanks : Blanks) {c : Char} (hc : c ∈ blanks.val) {d : Char} (hd : isBlank d = false) :
    c ≠ d := by
  rintro rfl
  rw [blanks.property c hc] at hd
  cases hd

/-- The line of a point has no character that ends lines. -/
theorem WrittenLine.not_mem_chars_point {indent trail : Blanks} {p : TrajectoryPoint D} {d : Char}
    (hblank : isBlank d = false) (hd : ¬ Numeral.IsNumeralChar d) :
    d ∉ (WrittenLine.point indent p trail).chars := by
  intro h
  rcases List.mem_append.mp h with h | h
  · rcases List.mem_append.mp h with h | h
    · exact indent.ne h hblank rfl
    · rw [toList_render] at h
      rcases isNumeralChar_of_mem_joined h with hnumeral | rfl
      · exact hd hnumeral
      · cases hblank
  · exact trail.ne h hblank rfl

theorem WrittenLine.not_mem_chars (l : WrittenLine D) : '\n' ∉ l.chars := by
  cases l with
  | point indent p trail => exact not_mem_chars_point rfl (by decide)
  | comment indent text =>
    intro h
    rcases List.mem_append.mp h with h | h
    · exact indent.ne h rfl rfl
    · rcases List.mem_cons.mp h with h | h
      · cases h
      · exact text.property h
  | white space => exact space.property.1

/-- **A line of a file** is read as the points on it. -/
theorem WrittenLine.read {l : WrittenLine D}
    (h : ∀ p ∈ l.points, ∀ x ∈ p.timestamp :: p.pose.components, ReadsBack x) {line : List Char}
    (hline : line = l.chars ∨ l.chars = line ++ ['\r']) :
    isReadable (scanTrajectoryPoint? : List Char → Option (TrajectoryPoint D × List Char)) line = true ∧
      recordsOf scanTrajectoryPoint? line = l.points := by
  have hfiller : isFiller l.chars = true → l.points = [] →
      isReadable (scanTrajectoryPoint? : List Char → Option (TrajectoryPoint D × List Char)) line = true ∧
        recordsOf scanTrajectoryPoint? line = l.points := by
    intro hfiller hpoints
    rw [hpoints]
    rcases hline with rfl | hline
    · exact isReadable_of_isFiller _ hfiller
    · rw [hline] at hfiller
      exact isReadable_of_isFiller _ (isFiller_of_append_return hfiller)
  cases l with
  | point indent p trail =>
    rcases hline with rfl | hline
    · exact isReadable_render (h p List.mem_cons_self) indent.property trail.property
    · -- a carriage return is not among the characters of a point
      have hreturn : '\r' ∈ (WrittenLine.point indent p trail).chars := by
        rw [hline]
        exact List.mem_append_right _ List.mem_cons_self
      exact absurd hreturn (not_mem_chars_point rfl (by decide))
  | comment indent text =>
    refine hfiller ?_ rfl
    have hcomment : isComment (WrittenLine.comment indent text : WrittenLine D).chars = true := by
      unfold isComment chars
      rw [List.dropWhile_append_of_pos indent.property]
      rfl
    unfold isFiller
    rw [hcomment, Bool.or_true]
  | white space =>
    refine hfiller ?_ rfl
    have hblank : isBlankLine (WrittenLine.white space : WrittenLine D).chars = true :=
      List.all_eq_true.mpr space.property.2
    unfold isFiller
    rw [hblank, Bool.true_or]

/-- The lines of a file, one after another. -/
theorem readable_writeFile {file : List (WrittenLine D × LineEnd)}
    (h : ∀ p ∈ filePoints file, ∀ x ∈ p.timestamp :: p.pose.components, ReadsBack x) :
    (∀ line ∈ splitLines (writeFile file).toList,
        isReadable (scanTrajectoryPoint? : List Char → Option (TrajectoryPoint D × List Char)) line = true) ∧
      (splitLines (writeFile file).toList).flatMap (recordsOf scanTrajectoryPoint?) = filePoints file := by
  unfold writeFile
  rw [String.toList_ofList]
  induction file with
  | nil => exact ⟨List.forall_mem_nil _, rfl⟩
  | cons first rest ih =>
    obtain ⟨hfirst, hrest⟩ := List.forall_mem_append.mp h
    obtain ⟨hreadable, hrecords⟩ := ih hrest
    obtain ⟨line, hlines, hline⟩ := exists_splitLines_ended first.1.not_mem_chars first.2
      (rest.flatMap fun line => line.1.chars ++ line.2.chars)
    obtain ⟨hread, hpoints⟩ := WrittenLine.read hfirst hline
    rw [List.flatMap_cons, hlines, List.flatMap_cons, hpoints, hrecords]
    exact ⟨List.forall_mem_cons.mpr ⟨hread, hreadable⟩, rfl⟩

/-! ## Reading back -/

/-- **Written trajectories are read back**: a file of finite points, in whatever layout, is read as these points, in
their order, with each number the same. -/
theorem readTrajectory_writeFile {file : List (WrittenLine Float × LineEnd)}
    (h : ∀ p ∈ filePoints file, p.IsFinite) : readTrajectory (writeFile file) = .ok (filePoints file) := by
  obtain ⟨hreadable, hrecords⟩ := readable_writeFile fun p hp x hx => readsBack_of_isFinite (h p hp x hx)
  unfold readTrajectory
  rw [readLines_of_readable hreadable, hrecords]

/-- The least and the largest number, negative zero, and a number that is no short decimal. -/
def extremePoint : TrajectoryPoint Float where
  timestamp := Float.ofBits 1
  pose := ⟨⟨Float.ofBits 0x7fefffffffffffff, Float.ofBits 0x8000000000000000, Float.ofBits 0xffefffffffffffff⟩,
    ⟨Float.ofBits 0x3fd5555555555555, 0, 0, 1⟩⟩

/-- A comment, a line of white space and an indented point. -/
def extremeFile : List (WrittenLine Float × LineEnd) :=
  [(.comment ⟨[' '], by simp [isBlank]⟩ ⟨['x', '\r'], by simp⟩, .lf),
    (.white ⟨['\t'], by simp [isWhiteSpace]⟩, .crlf),
    (.point ⟨['\t'], by simp [isBlank]⟩ extremePoint ⟨[' ', ' '], by simp [isBlank]⟩, .crlf)]

theorem readTrajectory_writeFile_extreme : (∀ p ∈ filePoints extremeFile, p.IsFinite) ∧
    readTrajectory (writeFile extremeFile) = .ok [extremePoint] := by
  have hfinite : ∀ p ∈ filePoints extremeFile, p.IsFinite := by
    intro p hp
    obtain rfl := List.mem_singleton.mp hp
    decide +kernel
  exact ⟨hfinite, readTrajectory_writeFile hfinite⟩

end StereoMapping
