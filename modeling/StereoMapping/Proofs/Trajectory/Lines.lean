import Mathlib.Data.List.Basic
import StereoMapping.Trajectory.Record

/-!
# `Proofs.Trajectory.Lines` — files are read line by line

Splitting a text of whole lines from what follows it does not change the lines. Of each line it is known by itself
whether it can be read and which records it holds, so the records of a text are those of its lines, and its error is
the first line that cannot be read, with its place. The number a text is counted from, comments and lines of white
space enter into that place only.

## Contents
- `WholeLines`, `splitLines_append`, `splitLines_line`: lines of a text.
- `isReadable`, `recordsOf`, `readFrom_of_readable`, `readFrom_of_unreadable`: lines one by one.
- `isReadable_iff`: what a line holds.
- `FirstUnreadable`, `readable_of_readLines`, `firstUnreadable_of_readLines`: what reading a text comes to.
- `LineLocal`, `readLines_lineLocal`: reading line by line, for any record; `readers_lineLocal`: both kinds of files.
-/

namespace StereoMapping

/-! ## Lines of a text -/

/-- A text of whole lines: it is empty or ends with a line feed. -/
def WholeLines (text : List Char) : Prop := ∀ c ∈ text.getLast?, c = '\n'

theorem splitLinesFrom_newline (started rest : List Char) :
    splitLinesFrom started ('\n' :: rest) = (dropReturn started).reverse :: splitLines rest := rfl

theorem splitLinesFrom_cons {c : Char} (hc : c ≠ '\n') (started rest : List Char) :
    splitLinesFrom started (c :: rest) = splitLinesFrom (c :: started) rest := by
  rw [splitLinesFrom]
  exact hc

theorem splitLinesFrom_append {a : List Char} (ha : WholeLines a) (b : List Char) {started : List Char}
    (hstarted : a = [] → started = []) :
    splitLinesFrom started (a ++ b) = splitLinesFrom started a ++ splitLines b := by
  induction a generalizing started with
  | nil =>
    rw [hstarted rfl]
    rfl
  | cons c a ih =>
    have hlast : a.getLast?.getD c = '\n' := ha _ List.getLast?_cons
    have hrest : WholeLines a := by
      intro d hd
      rw [Option.mem_def.mp hd] at hlast
      exact hlast
    by_cases hc : c = '\n'
    · rw [hc, List.cons_append, splitLinesFrom_newline, splitLinesFrom_newline, List.cons_append]
      exact congrArg _ (ih hrest fun _ => rfl)
    · -- the line goes on, so the text does
      have hgoes : a ≠ [] := by
        rintro rfl
        exact hc hlast
      rw [List.cons_append, splitLinesFrom_cons hc, splitLinesFrom_cons hc]
      exact ih hrest fun h => absurd h hgoes

/-- **Whole lines** in front of a text stay lines. -/
theorem splitLines_append {a : List Char} (ha : WholeLines a) (b : List Char) :
    splitLines (a ++ b) = splitLines a ++ splitLines b := splitLinesFrom_append ha b fun _ => rfl

theorem splitLinesFrom_of_not_mem {line : List Char} (hline : '\n' ∉ line) (started rest : List Char) :
    splitLinesFrom started (line ++ rest) = splitLinesFrom (line.reverse ++ started) rest := by
  induction line generalizing started with
  | nil => rfl
  | cons c line ih =>
    obtain ⟨hc, hline⟩ := List.ne_and_not_mem_of_not_mem_cons hline
    rw [List.cons_append, splitLinesFrom_cons (Ne.symm hc), ih hline, List.reverse_cons, List.append_assoc]
    rfl

/-- A line that is ended by a line feed. -/
theorem splitLines_line {line : List Char} (hline : '\n' ∉ line) (rest : List Char) :
    splitLines (line ++ '\n' :: rest) = (dropReturn line.reverse).reverse :: splitLines rest := by
  unfold splitLines
  rw [splitLinesFrom_of_not_mem hline, splitLinesFrom_newline, List.append_nil]
  rfl

/-- A line that is not ended. -/
theorem splitLines_of_not_mem {line : List Char} (hline : '\n' ∉ line) :
    splitLines line = if line.isEmpty then [] else [line] := by
  have h := splitLinesFrom_of_not_mem hline [] []
  rw [List.append_nil, List.append_nil] at h
  unfold splitLines
  rw [h, splitLinesFrom, List.isEmpty_reverse, List.reverse_reverse]

theorem dropReturn_subset (line : List Char) : dropReturn line ⊆ line := by
  fun_cases dropReturn with
  | case1 rest => exact List.subset_cons_self _ rest
  | case2 => exact List.Subset.refl line

/-- A line of a text has no line feed. -/
theorem not_mem_of_mem_splitLinesFrom {text started line : List Char} (hstarted : '\n' ∉ started)
    (h : line ∈ splitLinesFrom started text) : '\n' ∉ line := by
  fun_induction splitLinesFrom started text with
  | case1 => cases h
  | case2 started _ =>
    rw [List.mem_singleton.mp h, List.mem_reverse]
    exact hstarted
  | case3 started rest ih =>
    rcases List.mem_cons.mp h with rfl | h
    · rw [List.mem_reverse]
      exact fun hmem => hstarted (dropReturn_subset started hmem)
    · exact ih List.not_mem_nil h
  | case4 started c rest hc ih =>
    exact ih (List.not_mem_cons_of_ne_of_not_mem (Ne.symm hc) hstarted) h

theorem not_mem_of_mem_splitLines {text line : List Char} (h : line ∈ splitLines text) : '\n' ∉ line :=
  not_mem_of_mem_splitLinesFrom List.not_mem_nil h

/-! ## Lines one by one -/

/-- A comment, perhaps behind blanks. -/
def isComment (line : List Char) : Bool := (line.dropWhile isBlank).head? == some '#'

/-- A line that holds no record: a comment, or white space. -/
def isFiller (line : List Char) : Bool := isBlankLine line || isComment line

section Reading

variable {α : Type} (read? : List Char → Option (α × List Char))

/-- A line that can be read. -/
def isReadable (line : List Char) : Bool := isBlankLine line || (lineContent? read? line).isSome

/-- The records of a line, at most one. -/
def recordsOf (line : List Char) : List α :=
  if isBlankLine line then []
  else
    match lineContent? read? line with
    | some (.record a) => [a]
    | _ => []

/-- A line that is no comment holds a record, or is malformed. -/
theorem lineContent?_of_not_comment {line : List Char} (h : isComment line = false) :
    lineContent? read? line = match read? (line.dropWhile isBlank) with
      | some (a, rest) => if rest.all isBlankOrEnd then some (.record a) else none
      | none => none := by
  unfold isComment at h
  unfold lineContent?
  split
  · rename_i heq
    rw [heq] at h
    cases h
  · rfl

/-- A line is no comment if another character is the first that is no blank. -/
theorem isComment_eq_false {line cs : List Char} {c : Char} (h : line.dropWhile isBlank = c :: cs) (hc : c ≠ '#') :
    isComment line = false := by
  unfold isComment
  rw [h, List.head?_cons]
  exact beq_eq_false_iff_ne.mpr fun heq => hc (Option.some.inj heq)

/-- A record is scanned behind the blanks its line begins with. -/
theorem scan_of_mem_recordsOf {line : List Char} {a : α} (h : a ∈ recordsOf read? line) :
    ∃ rest, read? (line.dropWhile isBlank) = some (a, rest) := by
  unfold recordsOf at h
  split at h
  · cases h
  split at h
  · rename_i b hcontent
    rw [List.mem_singleton.mp h]
    unfold lineContent? at hcontent
    split at hcontent
    · cases hcontent
    split at hcontent
    · rename_i hread
      split at hcontent
      · cases hcontent
        exact ⟨_, hread⟩
      · cases hcontent
    · cases hcontent
  · cases h

theorem readFrom_cons_of_readable {line : List Char} (h : isReadable read? line = true) (number : Nat)
    (rest : List (List Char)) : readFrom read? number (line :: rest)
      = (readFrom read? (number + 1) rest).map (recordsOf read? line ++ ·) := by
  -- a line without a record leaves the rest as it is
  have hnone : ∀ r : Except Error (List α), r = r.map ([] ++ ·) := by
    intro r
    cases r <;> rfl
  unfold isReadable at h
  rw [readFrom]
  unfold recordsOf
  by_cases hblank : isBlankLine line = true
  · rw [if_pos hblank, if_pos hblank]
    exact hnone _
  rw [if_neg hblank, if_neg hblank]
  cases hcontent : lineContent? read? line with
  | none =>
    rw [hcontent, Bool.or_eq_true] at h
    exact absurd (h.resolve_left hblank) Bool.false_ne_true
  | some content =>
    cases content with
    | comment => exact hnone _
    | record a => cases readFrom read? (number + 1) rest <;> rfl

theorem readFrom_cons_of_unreadable {line : List Char} (h : isReadable read? line = false) (number : Nat)
    (rest : List (List Char)) :
    readFrom read? number (line :: rest) = .error (.parse number (String.ofList line)) := by
  obtain ⟨hblank, hcontent⟩ := Bool.or_eq_false_iff.mp h
  have hnone := Option.isNone_iff_eq_none.mp (Option.isSome_eq_false_iff.mp hcontent)
  rw [readFrom, hblank, if_neg Bool.false_ne_true, hnone]
  rfl

/-- Lines that can all be read. -/
theorem readFrom_of_readable {lines : List (List Char)} (h : ∀ line ∈ lines, isReadable read? line = true)
    (number : Nat) : readFrom read? number lines = .ok (lines.flatMap (recordsOf read?)) := by
  induction lines generalizing number with
  | nil => rfl
  | cons line rest ih =>
    obtain ⟨hline, hrest⟩ := List.forall_mem_cons.mp h
    rw [readFrom_cons_of_readable read? hline, ih hrest]
    rfl

/-- The lines in front of one that cannot be read are counted only. -/
theorem readFrom_of_unreadable {before : List (List Char)} (h : ∀ line ∈ before, isReadable read? line = true)
    {line : List Char} (hline : isReadable read? line = false) (after : List (List Char)) (number : Nat) :
    readFrom read? number (before ++ line :: after)
      = .error (.parse (number + before.length) (String.ofList line)) := by
  induction before generalizing number with
  | nil => exact readFrom_cons_of_unreadable read? hline number after
  | cons first before ih =>
    obtain ⟨hfirst, hbefore⟩ := List.forall_mem_cons.mp h
    rw [List.cons_append, readFrom_cons_of_readable read? hfirst, ih hbefore, List.length_cons, Nat.add_assoc,
      Nat.add_comm 1]
    rfl

/-- A comment and a line of white space are read, and hold nothing. -/
theorem isReadable_of_isFiller {line : List Char} (h : isFiller line = true) :
    isReadable read? line = true ∧ recordsOf read? line = [] := by
  unfold isReadable recordsOf
  by_cases hblank : isBlankLine line = true
  · rw [hblank]
    exact ⟨rfl, rfl⟩
  have hcomment := (Bool.or_eq_true_iff.mp h).resolve_left hblank
  have hcontent : lineContent? read? line = some .comment := by
    obtain ⟨rest, hrest⟩ := List.head?_eq_some_iff.mp (beq_iff_eq.mp hcomment)
    unfold lineContent?
    rw [hrest]
    rfl
  rw [hcontent, if_neg hblank]
  exact ⟨Bool.or_true _, rfl⟩

/-- **What a line holds**: nothing if it is a filler, and the record it is scanned as otherwise. -/
theorem isReadable_iff {line : List Char} {as : List α} :
    isReadable read? line = true ∧ as = recordsOf read? line ↔ isFiller line = true ∧ as = [] ∨
      isFiller line = false ∧ ∃ a rest, read? (line.dropWhile isBlank) = some (a, rest) ∧
        rest.all isBlankOrEnd = true ∧ as = [a] := by
  cases hfiller : isFiller line with
  | true =>
    obtain ⟨hreadable, hrecords⟩ := isReadable_of_isFiller read? hfiller
    rw [hreadable, hrecords]
    simp
  | false =>
    obtain ⟨hblank, hcomment⟩ := Bool.or_eq_false_iff.mp hfiller
    unfold isReadable recordsOf
    rw [hblank, lineContent?_of_not_comment read? hcomment]
    cases hscan : read? (line.dropWhile isBlank) with
    | none => simp
    | some found =>
      obtain ⟨a, rest⟩ := found
      simp only [Option.some.injEq, Prod.mk.injEq, and_assoc, exists_and_left, exists_eq_left']
      generalize rest.all isBlankOrEnd = ended
      cases ended <;> simp

/-! ## Texts -/

/-- The first of some lines that cannot be read, with the lines around it. -/
structure FirstUnreadable (lines before : List (List Char)) (line : List Char) (after : List (List Char)) : Prop where
  eq : lines = before ++ line :: after
  before_readable : ∀ l ∈ before, isReadable read? l = true
  unreadable : isReadable read? line = false

theorem firstUnreadable_of_find? {lines : List (List Char)} {line : List Char}
    (h : lines.find? (fun line => !isReadable read? line) = some line) :
    ∃ before after, FirstUnreadable read? lines before line after := by
  obtain ⟨hline, before, after, heq, hbefore⟩ := List.find?_eq_some_iff_append.mp h
  exact ⟨before, after, heq, fun l hl => by simpa using hbefore l hl, by simpa using hline⟩

/-- Lines can all be read, or there is a first one that cannot. -/
theorem readable_or_firstUnreadable (lines : List (List Char)) : (∀ line ∈ lines, isReadable read? line = true) ∨
    ∃ before line after, FirstUnreadable read? lines before line after := by
  cases hfound : lines.find? (fun line => !isReadable read? line) with
  | none =>
    left
    intro line hline
    simpa using List.find?_eq_none.mp hfound line hline
  | some line =>
    obtain ⟨before, after, h⟩ := firstUnreadable_of_find? read? hfound
    exact .inr ⟨before, line, after, h⟩

variable {read?}

theorem FirstUnreadable.find?_eq {lines before after : List (List Char)} {line : List Char}
    (h : FirstUnreadable read? lines before line after) :
    lines.find? (fun line => !isReadable read? line) = some line :=
  List.find?_eq_some_iff_append.mpr
    ⟨by rw [h.unreadable]; rfl, before, after, h.eq, fun l hl => by rw [h.before_readable l hl]; rfl⟩

theorem readLines_of_readable {text : String} (h : ∀ line ∈ splitLines text.toList, isReadable read? line = true) :
    readLines read? text = .ok ((splitLines text.toList).flatMap (recordsOf read?)) :=
  readFrom_of_readable read? h 1

theorem readLines_of_firstUnreadable {text : String} {before after : List (List Char)} {line : List Char}
    (h : FirstUnreadable read? (splitLines text.toList) before line after) :
    readLines read? text = .error (.parse (1 + before.length) (String.ofList line)) := by
  unfold readLines
  rw [h.eq]
  exact readFrom_of_unreadable read? h.before_readable h.unreadable after 1

theorem readable_of_readLines {text : String} {as : List α} (h : readLines read? text = .ok as) :
    (∀ line ∈ splitLines text.toList, isReadable read? line = true) ∧
      as = (splitLines text.toList).flatMap (recordsOf read?) := by
  rcases readable_or_firstUnreadable read? (splitLines text.toList) with hall | ⟨before, line, after, hfirst⟩
  · rw [readLines_of_readable hall] at h
    exact ⟨hall, (Except.ok.inj h).symm⟩
  · rw [readLines_of_firstUnreadable hfirst] at h
    cases h

theorem firstUnreadable_of_readLines {text : String} {e : Error} (h : readLines read? text = .error e) :
    ∃ before line after, FirstUnreadable read? (splitLines text.toList) before line after ∧
      e = .parse (1 + before.length) (String.ofList line) := by
  rcases readable_or_firstUnreadable read? (splitLines text.toList) with hall | ⟨before, line, after, hfirst⟩
  · rw [readLines_of_readable hall] at h
    cases h
  · rw [readLines_of_firstUnreadable hfirst] at h
    exact ⟨before, line, after, hfirst, (Except.error.inj h).symm⟩

/-! ## Comments and lines of white space -/

/-- Lines without content hold no records. -/
theorem flatMap_recordsOf_filter (lines : List (List Char)) :
    (lines.filter fun l => !isFiller l).flatMap (recordsOf read?) = lines.flatMap (recordsOf read?) := by
  induction lines with
  | nil => rfl
  | cons line rest ih =>
    by_cases hfiller : isFiller line = true
    · rw [List.filter_cons_of_neg (by simpa using hfiller), ih, List.flatMap_cons,
        (isReadable_of_isFiller read? hfiller).2, List.nil_append]
    · rw [List.filter_cons_of_pos (by simpa using hfiller), List.flatMap_cons, List.flatMap_cons, ih]

/-- Fillers are read, and hold nothing. -/
theorem readLines_eq_ok_iff {text : String} {as : List α} : readLines read? text = .ok as ↔
    (∀ line ∈ (splitLines text.toList).filter (fun l => !isFiller l), isReadable read? line = true) ∧
      as = ((splitLines text.toList).filter fun l => !isFiller l).flatMap (recordsOf read?) := by
  rw [flatMap_recordsOf_filter]
  constructor
  · intro h
    obtain ⟨hall, has⟩ := readable_of_readLines h
    exact ⟨fun line hline => hall line (List.mem_filter.mp hline).1, has⟩
  · rintro ⟨hall, rfl⟩
    refine readLines_of_readable fun line hline => ?_
    by_cases hfiller : isFiller line = true
    · exact (isReadable_of_isFiller read? hfiller).1
    · exact hall line (List.mem_filter.mpr ⟨hline, by simpa using hfiller⟩)

/-- The first line that cannot be read is no filler. -/
theorem find?_filter_isFiller (lines : List (List Char)) :
    (lines.filter fun l => !isFiller l).find? (fun line => !isReadable read? line)
      = lines.find? fun line => !isReadable read? line := by
  rw [List.find?_filter]
  congr 1
  funext line
  cases hfiller : isFiller line with
  | true =>
    rw [(isReadable_of_isFiller read? hfiller).1]
    rfl
  | false => simp

end Reading

/-- Splitting takes one carriage return off a line, if it is there. -/
theorem dropReturn_reverse (line : List Char) : (dropReturn line.reverse).reverse = line ∨
    line = (dropReturn line.reverse).reverse ++ ['\r'] := by
  unfold dropReturn
  split
  · rename_i rest heq
    right
    rw [← List.reverse_reverse line, heq, List.reverse_cons]
  · exact .inl (List.reverse_reverse line)

/-- A filler is one without a carriage return at its end. -/
theorem isFiller_of_append_return {line : List Char} (h : isFiller (line ++ ['\r']) = true) : isFiller line = true := by
  unfold isFiller isBlankLine isComment at h ⊢
  rw [Bool.or_eq_true, List.all_append, Bool.and_eq_true, List.dropWhile_append] at h
  rw [Bool.or_eq_true]
  refine h.imp And.left fun hcomment => ?_
  by_cases hempty : (line.dropWhile isBlank).isEmpty = true
  · -- behind blanks there is the carriage return only
    rw [if_pos hempty] at hcomment
    exact absurd hcomment (by decide)
  · rw [if_neg hempty, List.head?_append_of_ne_nil _ (by simpa using hempty)] at hcomment
    exact hcomment

theorem isFiller_dropReturn {line : List Char} (h : isFiller line = true) :
    isFiller (dropReturn line.reverse).reverse = true := by
  rcases dropReturn_reverse line with heq | heq
  · rw [heq]
    exact h
  · rw [heq] at h
    exact isFiller_of_append_return h

/-! ## Reading line by line -/

/-- The lines of a text, without their ends. -/
def textLines (text : String) : List String := (splitLines text.toList).map String.ofList

/-- A reader of texts reads them line by line, and each line as it is scanned. -/
structure LineLocal {α : Type} (read : String → Except Error (List α)) (scan? : List Char → Option (α × List Char)) :
    Prop where
  /-- A line is a comment or white space, which hold nothing, or one record between blanks. -/
  line : ∀ {line : String} {as : List α}, '\n' ∉ line.toList →
    (read line = .ok as ↔ isFiller line.toList = true ∧ as = [] ∨
      isFiller line.toList = false ∧ ∃ a rest, scan? (line.toList.dropWhile isBlank) = some (a, rest) ∧
        rest.all isBlankOrEnd = true ∧ as = [a])
  /-- Two texts that are read give the records of both. -/
  append : ∀ {s t : String} {as bs : List α}, WholeLines s.toList → read s = .ok as → read t = .ok bs →
    read (s ++ t) = .ok (as ++ bs)
  /-- The error of the first text is the error of both. -/
  append_of_error : ∀ {s t : String} {e : Error}, WholeLines s.toList → read s = .error e →
    read (s ++ t) = .error e
  /-- An error of the second text keeps its line, which is counted from the first text. -/
  append_error : ∀ {s t : String} {as : List α} {m : Nat} {l : String}, WholeLines s.toList → read s = .ok as →
    read t = .error (.parse m l) → read (s ++ t) = .error (.parse ((textLines s).length + m) l)
  /-- An error is the number, counted from one, and the text of the first line that is not read alone. -/
  error : ∀ {t : String} {e : Error}, read t = .error e → ∃ before line after,
    textLines t = before ++ line :: after ∧ e = .parse (before.length + 1) line ∧
      (∀ l ∈ before, ∃ as, read l = .ok as) ∧ ¬ ∃ as, read line = .ok as
  /-- A text is read if and only if each of its lines is, alone. -/
  ok_iff : ∀ {t : String}, (∃ as, read t = .ok as) ↔ ∀ l ∈ textLines t, ∃ as, read l = .ok as
  /-- Texts that differ in comments and lines of white space have the same records, or the same malformed line. -/
  same_records : ∀ {s t : String},
    (textLines s).filter (fun l => !isFiller l.toList) = (textLines t).filter (fun l => !isFiller l.toList) →
      (∀ as, read s = .ok as → read t = .ok as) ∧
        ∀ m l, read s = .error (.parse m l) → ∃ m', read t = .error (.parse m' l)
  /-- A comment or a line of white space that is put in or taken out changes the numbers of later lines only. -/
  insert : ∀ {s line t : String}, WholeLines s.toList → '\n' ∉ line.toList → isFiller line.toList = true →
    (∀ as, read (s ++ (line ++ "\n") ++ t) = .ok as ↔ read (s ++ t) = .ok as) ∧
      ∀ m l, read (s ++ t) = .error (.parse m l) →
        read (s ++ (line ++ "\n") ++ t) = .error (.parse (if m ≤ (textLines s).length then m else m + 1) l)

section LineLocal

variable {α : Type} {read? : List Char → Option (α × List Char)} {s t : String}

theorem splitLines_append_toList (hs : WholeLines s.toList) (t : String) :
    splitLines (s ++ t).toList = splitLines s.toList ++ splitLines t.toList := by
  rw [String.toList_append, splitLines_append hs]

theorem length_textLines (t : String) : (textLines t).length = (splitLines t.toList).length := List.length_map _

theorem readLines_append {as bs : List α} (hs : WholeLines s.toList) (has : readLines read? s = .ok as)
    (hbs : readLines read? t = .ok bs) : readLines read? (s ++ t) = .ok (as ++ bs) := by
  obtain ⟨hall, rfl⟩ := readable_of_readLines has
  obtain ⟨hall', rfl⟩ := readable_of_readLines hbs
  have hlines := splitLines_append_toList hs t
  rw [readLines_of_readable (hlines ▸ List.forall_mem_append.mpr ⟨hall, hall'⟩), hlines, List.flatMap_append]

theorem readLines_append_of_error {e : Error} (hs : WholeLines s.toList) (he : readLines read? s = .error e) :
    readLines read? (s ++ t) = .error e := by
  obtain ⟨before, line, after, hfirst, rfl⟩ := firstUnreadable_of_readLines he
  have hlines : splitLines (s ++ t).toList = before ++ line :: (after ++ splitLines t.toList) := by
    rw [splitLines_append_toList hs, hfirst.eq, List.append_assoc]
    rfl
  exact readLines_of_firstUnreadable ⟨hlines, hfirst.before_readable, hfirst.unreadable⟩

theorem readLines_append_error {as : List α} {m : Nat} {l : String} (hs : WholeLines s.toList)
    (has : readLines read? s = .ok as) (ht : readLines read? t = .error (.parse m l)) :
    readLines read? (s ++ t) = .error (.parse ((textLines s).length + m) l) := by
  obtain ⟨hall, _⟩ := readable_of_readLines has
  obtain ⟨before, line, after, hfirst, heq⟩ := firstUnreadable_of_readLines ht
  obtain ⟨rfl, rfl⟩ := Error.parse.inj heq
  have hlines : splitLines (s ++ t).toList = (splitLines s.toList ++ before) ++ line :: after := by
    rw [splitLines_append_toList hs, hfirst.eq, List.append_assoc]
  have hnumber : 1 + (splitLines s.toList ++ before).length = (textLines s).length + (1 + before.length) := by
    rw [List.length_append, length_textLines]
    omega
  rw [← hnumber]
  exact readLines_of_firstUnreadable
    ⟨hlines, List.forall_mem_append.mpr ⟨hall, hfirst.before_readable⟩, hfirst.unreadable⟩

/-- One line, alone. -/
theorem readLines_of_readable_line {line : List Char} (hline : '\n' ∉ line)
    (hreadable : isReadable read? line = true) :
    readLines read? (String.ofList line) = .ok (recordsOf read? line) := by
  have hlines : splitLines (String.ofList line).toList = if line.isEmpty then [] else [line] := by
    rw [String.toList_ofList, splitLines_of_not_mem hline]
  cases line with
  | nil => rfl
  | cons c line =>
    change _ = [c :: line] at hlines
    rw [readLines_of_readable (hlines ▸ List.forall_mem_singleton.mpr hreadable), hlines, List.flatMap_singleton]

theorem readLines_of_unreadable_line {line : List Char} (hline : '\n' ∉ line)
    (hunreadable : isReadable read? line = false) :
    readLines read? (String.ofList line) = .error (.parse 1 (String.ofList line)) := by
  have hlines : splitLines (String.ofList line).toList = [] ++ [line] := by
    rw [String.toList_ofList, splitLines_of_not_mem hline]
    cases line with
    | nil => exact absurd (show true = false from hunreadable) (by decide)
    | cons c line => rfl
  exact readLines_of_firstUnreadable ⟨hlines, List.forall_mem_nil _, hunreadable⟩

theorem readLines_line_eq_ok_iff {line : List Char} (hline : '\n' ∉ line) {as : List α} :
    readLines read? (String.ofList line) = .ok as ↔ isReadable read? line = true ∧ as = recordsOf read? line := by
  cases hreadable : isReadable read? line with
  | true =>
    rw [readLines_of_readable_line hline hreadable]
    exact ⟨fun heq => ⟨rfl, (Except.ok.inj heq).symm⟩, fun heq => congrArg Except.ok heq.2.symm⟩
  | false =>
    rw [readLines_of_unreadable_line hline hreadable]
    exact ⟨(nomatch ·), fun heq => absurd heq.1 Bool.false_ne_true⟩

theorem readLines_line_isOk {line : List Char} (hline : '\n' ∉ line) :
    (∃ as, readLines read? (String.ofList line) = .ok as) ↔ isReadable read? line = true := by
  simp only [readLines_line_eq_ok_iff hline, exists_and_left, exists_eq, and_true]

theorem readLines_line {line : String} {as : List α} (hline : '\n' ∉ line.toList) :
    readLines read? line = .ok as ↔ isFiller line.toList = true ∧ as = [] ∨
      isFiller line.toList = false ∧ ∃ a rest, read? (line.toList.dropWhile isBlank) = some (a, rest) ∧
        rest.all isBlankOrEnd = true ∧ as = [a] := by
  have halone : readLines read? (String.ofList line.toList) = .ok as ↔ _ := readLines_line_eq_ok_iff hline
  rw [String.ofList_toList] at halone
  exact halone.trans (isReadable_iff read?)

theorem readLines_error {e : Error} (h : readLines read? t = .error e) : ∃ before line after,
    textLines t = before ++ line :: after ∧ e = .parse (before.length + 1) line ∧
      (∀ l ∈ before, ∃ as, readLines read? l = .ok as) ∧ ¬ ∃ as, readLines read? line = .ok as := by
  obtain ⟨before, line, after, hfirst, rfl⟩ := firstUnreadable_of_readLines h
  have hnewline : ∀ l ∈ before ++ line :: after, '\n' ∉ l := fun l hl =>
    not_mem_of_mem_splitLines (hfirst.eq ▸ hl)
  refine ⟨before.map String.ofList, String.ofList line, after.map String.ofList, ?_, ?_, ?_, ?_⟩
  · unfold textLines
    rw [hfirst.eq, List.map_append, List.map_cons]
  · rw [List.length_map, Nat.add_comm]
  · refine List.forall_mem_map.mpr fun l hl => (readLines_line_isOk ?_).mpr (hfirst.before_readable l hl)
    exact hnewline l (List.mem_append_left _ hl)
  · rw [readLines_line_isOk (hnewline line (List.mem_append_right _ List.mem_cons_self)), hfirst.unreadable]
    exact Bool.false_ne_true

theorem readLines_isOk_iff :
    (∃ as, readLines read? t = .ok as) ↔ ∀ l ∈ textLines t, ∃ as, readLines read? l = .ok as := by
  unfold textLines
  rw [List.forall_mem_map]
  constructor
  · rintro ⟨as, has⟩ l hl
    exact (readLines_line_isOk (not_mem_of_mem_splitLines hl)).mpr ((readable_of_readLines has).1 l hl)
  · intro h
    exact ⟨_, readLines_of_readable fun l hl => (readLines_line_isOk (not_mem_of_mem_splitLines hl)).mp (h l hl)⟩

/-- Filtering the lines as texts or as characters is the same. -/
theorem filter_textLines (t : String) : (textLines t).filter (fun l => !isFiller l.toList)
    = ((splitLines t.toList).filter fun l => !isFiller l).map String.ofList := by
  unfold textLines
  rw [List.filter_map]
  congr 2
  funext l
  exact congrArg (fun cs => !isFiller cs) String.toList_ofList

theorem readLines_same_records
    (h : (textLines s).filter (fun l => !isFiller l.toList) = (textLines t).filter (fun l => !isFiller l.toList)) :
    (∀ as, readLines read? s = .ok as → readLines read? t = .ok as) ∧
      ∀ m l, readLines read? s = .error (.parse m l) → ∃ m', readLines read? t = .error (.parse m' l) := by
  rw [filter_textLines, filter_textLines] at h
  have hinjective : Function.Injective String.ofList :=
    Function.LeftInverse.injective fun _ => String.toList_ofList
  have hlines := List.map_injective_iff.mpr hinjective h
  constructor
  · intro as has
    rw [readLines_eq_ok_iff, ← hlines]
    exact readLines_eq_ok_iff.mp has
  · intro m l hl
    obtain ⟨before, line, after, hfirst, heq⟩ := firstUnreadable_of_readLines hl
    have hfound := hfirst.find?_eq
    rw [← find?_filter_isFiller, hlines, find?_filter_isFiller] at hfound
    obtain ⟨before', after', hfirst'⟩ := firstUnreadable_of_find? read? hfound
    rw [(Error.parse.inj heq).2]
    exact ⟨_, readLines_of_firstUnreadable hfirst'⟩

variable (read?) in
/-- A filler with its line feed is a text of one line, without records. -/
theorem readLines_filler {line : String} (hline : '\n' ∉ line.toList) (hfiller : isFiller line.toList = true) :
    WholeLines (line ++ "\n").toList ∧ (textLines (line ++ "\n")).length = 1 ∧
      readLines read? (line ++ "\n") = .ok [] := by
  have htext : (line ++ "\n").toList = line.toList ++ ['\n'] := String.toList_append
  have hlines : splitLines (line ++ "\n").toList = [(dropReturn line.toList.reverse).reverse] := by
    rw [htext]
    exact splitLines_line hline []
  obtain ⟨hreadable, hrecords⟩ := isReadable_of_isFiller read? (isFiller_dropReturn hfiller)
  refine ⟨?_, ?_, ?_⟩
  · intro c hc
    rw [htext, List.getLast?_concat] at hc
    exact (Option.some.inj hc).symm
  · rw [length_textLines, hlines, List.length_singleton]
  · rw [readLines_of_readable (hlines ▸ List.forall_mem_singleton.mpr hreadable), hlines, List.flatMap_singleton,
      hrecords]

theorem WholeLines.append {a b : List Char} (ha : WholeLines a) (hb : WholeLines b) : WholeLines (a ++ b) := by
  intro c hc
  rw [List.getLast?_append, Option.mem_def, Option.or_eq_some_iff] at hc
  exact hc.elim (hb c) fun h => ha c h.2

theorem readLines_insert {line : String} (hs : WholeLines s.toList) (hline : '\n' ∉ line.toList)
    (hfiller : isFiller line.toList = true) :
    (∀ as, readLines read? (s ++ (line ++ "\n") ++ t) = .ok as ↔ readLines read? (s ++ t) = .ok as) ∧
      ∀ m l, readLines read? (s ++ t) = .error (.parse m l) →
        readLines read? (s ++ (line ++ "\n") ++ t)
          = .error (.parse (if m ≤ (textLines s).length then m else m + 1) l) := by
  obtain ⟨hwhole, hcount, hnothing⟩ := readLines_filler read? hline hfiller
  have hboth : WholeLines (s ++ (line ++ "\n")).toList := by
    rw [String.toList_append]
    exact hs.append hwhole
  cases has : readLines read? s with
  | error e =>
    -- the text in front fails, with or without the filler
    have hwithout := readLines_append_of_error (t := t) hs has
    have hwith := readLines_append_of_error (t := t) hboth (readLines_append_of_error hs has)
    rw [hwithout, hwith]
    refine ⟨fun as => Iff.rfl, fun m l heq => ?_⟩
    obtain ⟨before, line, after, hlines, he, _⟩ := readLines_error has
    have hm : m = before.length + 1 := (Error.parse.inj ((Except.error.inj heq).symm.trans he)).1
    have hle : m ≤ (textLines s).length := by
      rw [hlines, hm, List.length_append, List.length_cons]
      omega
    rw [if_pos hle]
    exact heq
  | ok as =>
    have hfront := readLines_append hs has hnothing
    rw [List.append_nil] at hfront
    cases hbs : readLines read? t with
    | ok bs =>
      rw [readLines_append hs has hbs, readLines_append hboth hfront hbs]
      exact ⟨fun as => Iff.rfl, fun _ _ => (nomatch ·)⟩
    | error e =>
      obtain ⟨before, bad, after, _, rfl, _⟩ := readLines_error hbs
      have hlength : (textLines (s ++ (line ++ "\n"))).length = (textLines s).length + 1 := by
        rw [length_textLines, splitLines_append_toList hs, List.length_append, ← length_textLines,
          ← length_textLines, hcount]
      rw [readLines_append_error hs has hbs, readLines_append_error hboth hfront hbs, hlength]
      refine ⟨fun as => ⟨(nomatch ·), (nomatch ·)⟩, fun m l heq => ?_⟩
      obtain ⟨rfl, rfl⟩ := Error.parse.inj (Except.error.inj heq)
      have hlate : ¬ (textLines s).length + (before.length + 1) ≤ (textLines s).length := by omega
      rw [if_neg hlate, Nat.add_right_comm]

/-- **Texts of one record a line are read line by line**, whatever the record. -/
theorem readLines_lineLocal (read? : List Char → Option (α × List Char)) : LineLocal (readLines read?) read? where
  line := readLines_line
  append := readLines_append
  append_of_error := readLines_append_of_error
  append_error := readLines_append_error
  error := readLines_error
  ok_iff := readLines_isOk_iff
  same_records := readLines_same_records
  insert := readLines_insert

end LineLocal

/-- **Both kinds of files are read line by line**: parts of a file are read as the whole, a malformed line is told with
its place, and comments and lines of white space do not count. -/
theorem readers_lineLocal {D : Type} [Scalar D] :
    LineLocal (readTrajectory : String → Except Error (List (TrajectoryPoint D))) scanTrajectoryPoint? ∧
      LineLocal (readAssociations : String → Except Error (List (StereoAssociation D))) scanAssociation? :=
  ⟨readLines_lineLocal scanTrajectoryPoint?, readLines_lineLocal scanAssociation?⟩

end StereoMapping
