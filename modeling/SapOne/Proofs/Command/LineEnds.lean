import SapOne.Proofs.Command.Run
import SapOne.Proofs.Source.Items

set_option relaxedAutoImplicit false
set_option autoImplicit false

/-!
# Line ends

The lines of a source file may end with a line feed, or with a carriage return and a line feed, and
the last one may have no end at all. Reading a file finds the lines and forgets the ends, so that a
run of the program cannot tell two files apart that differ in their line ends only. A file that is
no text is refused as a whole, whatever lines it has in front of the bytes that are wrong.

## Main definitions

* `SapOne.LineEnd` — what can stand at the end of a line.
* `SapOne.Text.WritesOut` — lines are written out as a text, with any end behind each.
* `SapOne.Disk.SameLines` — two disks that differ in the line ends of files only.
* `SapOne.Disk.RunsAlike` — two runs that print, return and write the same.

## Main results

* `SapOne.Text.lines_eq_iff_writesOut` — reading lines is the inverse of writing them out.
* `SapOne.Disk.SameLines.source_eq`, `SapOne.Disk.SameLines.rel_write` — disks that differ in line
  ends are read and written alike.
* `SapOne.Disk.SameLines.runsAlike_session` — and so a run does the same on them.
* `SapOne.Disk.session_ignores_line_ends` — what is read, from which files, and by which runs.
-/

namespace SapOne

/-! ## Lines that are written out -/

/-- What can stand at the end of a line. -/
inductive LineEnd where
  /-- A line feed. -/
  | feed
  /-- A carriage return and a line feed. -/
  | returnFeed
deriving DecidableEq

/-- The characters of a line end. -/
def LineEnd.text : LineEnd → Text
  | feed => ['\n']
  | returnFeed => ['\r', '\n']

namespace Text

/-- A text that can be a line: no character of a line end is in it. -/
def IsLine (s : Text) : Prop :=
  '\n' ∉ s ∧ '\r' ∉ s

/-- Lines are written out as a text: each with an end of its own behind it, which may be missing
behind the last line if that is not empty. -/
inductive WritesOut : List Text → Text → Prop
  | nil : WritesOut [] []
  | unended {line : Text} (hline : IsLine line) (hne : line ≠ []) : WritesOut [line] line
  | cons {line : Text} (hline : IsLine line) (lineEnd : LineEnd) {lines : List Text} {s : Text}
      (h : WritesOut lines s) : WritesOut (line :: lines) (line ++ lineEnd.text ++ s)

variable {s : Text} {list : List Text}

/-- What is written out as lines are lines. -/
lemma WritesOut.isLine (h : WritesOut list s) : ∀ line ∈ list, IsLine line := by
  induction h with
  | nil => simp
  | unended hline => simpa using hline
  | cons hline _ _ ih => exact List.forall_mem_cons.2 ⟨hline, ih⟩

/-! ### Carriage returns -/

/-- Without a carriage return there is nothing to chop off. -/
lemma chopReturn_of_not_mem (h : '\r' ∉ s) : chopReturn s = s :=
  if_neg fun hlast => h (List.mem_of_getLast? hlast)

/-- The carriage return at the end is chopped off, and only that one. -/
lemma chopReturn_concat (s : Text) : chopReturn (s ++ ['\r']) = s := by
  simp [chopReturn]

/-- Chopping brings no new character. -/
lemma not_mem_chopReturn {c : Char} (h : c ∉ s) : c ∉ chopReturn s := by
  unfold chopReturn
  split
  · exact fun hmem => h (List.dropLast_subset s hmem)
  · exact h

/-- What stands in front of a line feed is a line, with the beginning of its end or not. -/
lemma exists_lineEnd (s rest : Text) :
    ∃ lineEnd : LineEnd, s ++ '\n' :: rest = chopReturn s ++ lineEnd.text ++ rest := by
  unfold chopReturn
  split
  · next hlast =>
    obtain ⟨front, rfl⟩ := List.getLast?_eq_some_iff.1 hlast
    exact ⟨.returnFeed, by simp [LineEnd.text]⟩
  · exact ⟨.feed, by simp [LineEnd.text]⟩

/-! ### Reading lines -/

/-- What stands behind the last line feed is a line, unless it is empty. -/
lemma lines_of_not_mem (h : '\n' ∉ s) (hne : s ≠ []) : lines s = [s] := by
  simp [lines, split_eq_singleton h, hne]

/-- What stands in front of the first line feed is the first line. -/
lemma lines_append_feed (h : '\n' ∉ s) (rest : Text) :
    lines (s ++ '\n' :: rest) = chopReturn s :: lines rest := by
  obtain ⟨p, pieces, hp⟩ := List.exists_cons_of_ne_nil (split_ne_nil '\n' rest)
  simp [lines, split_append_cons h, hp]

/-- A line is read as it is, whatever its end. -/
lemma lines_append_lineEnd (h : IsLine s) (lineEnd : LineEnd) (rest : Text) :
    lines (s ++ lineEnd.text ++ rest) = s :: lines rest := by
  cases lineEnd with
  | feed =>
    have hshape : s ++ LineEnd.feed.text ++ rest = s ++ '\n' :: rest := by simp [LineEnd.text]
    rw [hshape, lines_append_feed h.1, chopReturn_of_not_mem h.2]
  | returnFeed =>
    have hshape : s ++ LineEnd.returnFeed.text ++ rest = (s ++ ['\r']) ++ '\n' :: rest := by
      simp [LineEnd.text]
    have hnot : '\n' ∉ s ++ ['\r'] := by simp [h.1]
    rw [hshape, lines_append_feed hnot, chopReturn_concat]

/-- The lines of a text that was written out are the lines that it was made of. -/
lemma WritesOut.lines_eq (h : WritesOut list s) : lines s = list := by
  induction h with
  | nil => rfl
  | unended hline hne => exact lines_of_not_mem hline.1 hne
  | cons hline lineEnd _ ih => rw [lines_append_lineEnd hline, ih]

/-- A text is its lines, written out, if no carriage return is left in them.

**Proof sketch.** Induction on the length of the text, which is cut behind its first line feed. The
line in front of it may have lost a carriage return, and this tells which end it has. -/
lemma writesOut_lines (h : ∀ line ∈ lines s, '\r' ∉ line) : WritesOut (lines s) s := by
  induction hn : s.length using Nat.strongRecOn generalizing s with
  | ind n ih =>
    by_cases hfeed : '\n' ∈ s
    · obtain ⟨front, rest, rfl, hfront⟩ := List.eq_append_cons_of_mem hfeed
      rw [lines_append_feed hfront] at h ⊢
      obtain ⟨hreturn, hlater⟩ := List.forall_mem_cons.1 h
      have hshorter : rest.length < n := by
        rw [← hn, List.length_append, List.length_cons]
        omega
      obtain ⟨lineEnd, hcut⟩ := exists_lineEnd front rest
      rw [hcut]
      exact .cons ⟨not_mem_chopReturn hfront, hreturn⟩ lineEnd (ih _ hshorter hlater rfl)
    · by_cases hne : s = []
      · rw [hne]
        exact .nil
      · rw [lines_of_not_mem hfeed hne] at h ⊢
        exact .unended ⟨hfeed, h s List.mem_cons_self⟩ hne

/-- **Reading lines is the inverse of writing them out**, with whatever ends. -/
theorem lines_eq_iff_writesOut :
    (lines s = list ∧ ∀ line ∈ list, IsLine line) ↔ WritesOut list s := by
  constructor
  · rintro ⟨rfl, hlines⟩
    exact writesOut_lines fun line hline => (hlines line hline).2
  · intro h
    exact ⟨h.lines_eq, h.isLine⟩

end Text

/-! ## Files that are texts, and files that are not -/

/-- The bytes of a text are decoded to its lines. -/
lemma decodeSource_utf8Encode (text : Text) :
    decodeSource text.utf8Encode = .ok (Text.lines text) := by
  have hvalid : text.utf8Encode.IsValidUTF8 := ByteArray.isValidUTF8_utf8Encode
  have hdecode : String.fromUTF8? text.utf8Encode = some (String.ofList text) := dif_pos hvalid
  rw [decodeSource, hdecode]
  simp only [String.toList_ofList]

/-- Bytes that are not the bytes of a text are refused. -/
lemma decodeSource_of_not_isValidUTF8 {content : ByteArray} (h : ¬ content.IsValidUTF8) :
    decodeSource content = .error (.reading .invalidText) := by
  have hdecode : String.fromUTF8? content = none := dif_neg h
  rw [decodeSource, hdecode]

/-- Bytes are decoded to lines exactly if they are the bytes of a text with these lines. -/
lemma decodeSource_eq_ok_iff {content : ByteArray} {list : List Text} :
    decodeSource content = .ok list ↔ ∃ text : Text, content = text.utf8Encode ∧
      Text.lines text = list := by
  constructor
  · intro h
    by_cases hvalid : content.IsValidUTF8
    · obtain ⟨text, rfl⟩ := hvalid
      rw [decodeSource_utf8Encode] at h
      exact ⟨text, rfl, Except.ok.inj h⟩
    · rw [decodeSource_of_not_isValidUTF8 hvalid] at h
      cases h
  · rintro ⟨text, rfl, rfl⟩
    exact decodeSource_utf8Encode text

/-- Bytes behind a text make up a text with it only if they are one themselves. -/
lemma isValidUTF8_of_utf8Encode_append {text : Text} {bytes : ByteArray}
    (h : (text.utf8Encode ++ bytes).IsValidUTF8) : bytes.IsValidUTF8 := by
  induction text with
  | nil => simpa using h
  | cons c text ih =>
    have hcons : (c :: text).utf8Encode = [c].utf8Encode ++ text.utf8Encode :=
      List.utf8Encode_append (l := [c])
    rw [hcons, ByteArray.append_assoc, ByteArray.isValidUTF8_utf8Encode_singleton_append_iff] at h
    exact ih h

/-- Bytes in front of a text make up a text with it only if they are one themselves.

**Proof sketch.** In a text, a position behind which there is a text lies between two characters,
and so there is a text in front of it as well. -/
lemma isValidUTF8_of_append_utf8Encode {text : Text} {bytes : ByteArray}
    (h : (bytes ++ text.utf8Encode).IsValidUTF8) : bytes.IsValidUTF8 := by
  let whole : String := ⟨bytes ++ text.utf8Encode, h⟩
  have hend : whole.utf8ByteSize = bytes.size + text.utf8Encode.size := ByteArray.size_append
  have hbehind : whole.toByteArray.extract bytes.size whole.utf8ByteSize = text.utf8Encode := by
    rw [hend]
    exact ByteArray.extract_append_eq_right rfl rfl
  have hposition : String.Pos.Raw.IsValid whole ⟨bytes.size⟩ := by
    rw [String.Pos.Raw.isValid_iff_isValidUTF8_extract_utf8ByteSize]
    refine ⟨?_, ?_⟩
    · rw [String.Pos.Raw.le_iff]
      simp [hend]
    · rw [hbehind]
      exact ByteArray.isValidUTF8_utf8Encode
  have hfront : whole.toByteArray.extract 0 bytes.size = bytes :=
    ByteArray.extract_append_eq_left rfl
  rw [← hfront]
  exact hposition.isValidUTF8_extract_zero

namespace Disk

/-! ## Disks with other line ends -/

/-- Two things that stand at a place of two disks: the same thing, or files with the same lines,
written out with line ends of their own. -/
inductive Node.SameLines : Node → Node → Prop
  | refl (node : Node) : SameLines node node
  | file {list : List Text} {text text' : Text} (h : Text.WritesOut list text)
      (h' : Text.WritesOut list text') : SameLines (.file text.utf8Encode) (.file text'.utf8Encode)

/-- Two disks that differ in nothing but the line ends of files. -/
structure SameLines (d d' : Disk) : Prop where
  home_eq : d'.home = d.home
  rel_node? : ∀ place, Option.Rel Node.SameLines (d.node? place) (d'.node? place)

/-- A file that is written out in two ways. -/
lemma sameLines_put (d : Disk) (place : Place) {list : List Text} {text text' : Text}
    (h : Text.WritesOut list text) (h' : Text.WritesOut list text') :
    (d.put place (.file text.utf8Encode)).SameLines (d.put place (.file text'.utf8Encode)) where
  home_eq := rfl
  rel_node? p := by
    rw [node?_put, node?_put]
    split
    · exact .some (.file h h')
    · cases d.node? p with
      | none => exact .none
      | some node => exact .some (.refl node)

namespace SameLines

variable {d d' : Disk}

/-- A path starts at the same place on both disks. -/
lemma start_eq (h : d.SameLines d') (path : Text) : d'.start path = d.start path := by
  rw [start, start, h.home_eq]

/-- At every place there is the same on both disks, or a file on both. -/
lemma node?_eq_or_file (h : d.SameLines d') (place : Place) :
    d'.node? place = d.node? place ∨
      ∃ content content', d.node? place = some (.file content) ∧
        d'.node? place = some (.file content') := by
  have hnode := h.rel_node? place
  generalize d.node? place = node, d'.node? place = node' at hnode
  cases hnode with
  | none => exact Or.inl rfl
  | some hnode =>
    cases hnode with
    | refl => exact Or.inl rfl
    | file => exact Or.inr ⟨_, _, rfl, rfl⟩

/-- Directories are where they were, so that every path leads to the same place. -/
lemma walk_eq (h : d.SameLines d') (place : Place) (names : List Text) :
    d'.walk place names = d.walk place names := by
  induction names generalizing place with
  | nil => rfl
  | cons name rest ih =>
    rw [walk, walk]
    rcases h.node?_eq_or_file place with hsame | ⟨content, content', hfile, hfile'⟩
    · simp only [hsame, ih]
    · rw [hfile, hfile']

/-- A path leads to files with the same lines on both disks, or is refused alike. -/
lemma rel_lookup (h : d.SameLines d') (path : Text) :
    Except.Rel Eq Node.SameLines (d.lookup path) (d'.lookup path) := by
  unfold lookup
  split
  · exact .error rfl
  split
  · exact .error rfl
  · simp only [h.walk_eq, h.start_eq]
    refine Except.Rel.bind (R := Eq) (.refl (fun _ => rfl) (fun _ => rfl) _) ?_
    rintro place _ rfl
    have hnode := h.rel_node? place
    generalize d.node? place = node, d'.node? place = node' at hnode
    cases hnode with
    | none => exact .error rfl
    | some hnode => exact .ok hnode

/-- **Files with other line ends are read alike.** -/
lemma source_eq (h : d.SameLines d') (path : Text) : d'.source path = d.source path := by
  have hlookup := h.rel_lookup path
  unfold source read
  generalize d.lookup path = found, d'.lookup path = found' at hlookup
  cases hlookup with
  | error hfault => rw [hfault]
  | ok hnode =>
    cases hnode with
    | refl => rfl
    | @file list text text' hout hout' =>
      have hread : decodeSource text'.utf8Encode = decodeSource text.utf8Encode := by
        rw [decodeSource_utf8Encode, decodeSource_utf8Encode, hout.lines_eq, hout'.lines_eq]
      exact hread

/-- A file to be written has the same place on both disks. -/
lemma target_eq (h : d.SameLines d') (path : Text) : d'.target path = d.target path := by
  unfold target
  simp only [h.walk_eq, h.start_eq]
  split
  · rfl
  split
  · rfl
  refine bind_congr fun parent => ?_
  split
  · rfl
  split
  · rfl
  refine bind_congr fun place => ?_
  rcases h.node?_eq_or_file place with hsame | ⟨content, content', hfile, hfile'⟩
  · rw [hsame]
  · rw [hfile, hfile']

/-- The same change at the same place keeps the lines the same. -/
lemma put (h : d.SameLines d') (place : Place) (node : Node) :
    (d.put place node).SameLines (d'.put place node) where
  home_eq := h.home_eq
  rel_node? p := by
    rw [node?_put, node?_put]
    split
    · exact .some (.refl node)
    · exact h.rel_node? p

/-- **Disks with other line ends are written alike**: the same writes succeed, and leave the same
at the place that they write to. -/
lemma rel_write (h : d.SameLines d') (path : Text) (content : ByteArray) :
    Except.Rel Eq (fun e e' => e.SameLines e' ∧
      ∀ place, d'.node? place = d.node? place ∨ d.target path = .ok place →
        e'.node? place = e.node? place) (d.write path content) (d'.write path content) := by
  unfold write
  rw [h.target_eq]
  cases d.target path with
  | error fault => exact .error rfl
  | ok target =>
    have hput : (d.put target (.file content)).SameLines (d'.put target (.file content)) ∧
        ∀ place, d'.node? place = d.node? place ∨ Except.ok (ε := Fault) target = .ok place →
          (d'.put target (.file content)).node? place =
            (d.put target (.file content)).node? place := by
      refine ⟨h.put target _, fun place hplace => ?_⟩
      rw [node?_put, node?_put]
      split
      · rfl
      · next hne =>
        rcases hplace with hsame | htarget
        · exact hsame
        · exact absurd (Except.ok.inj htarget).symm hne
    dsimp only
    rcases h.node?_eq_or_file target with hsame | ⟨content, content', hfile, hfile'⟩
    · rw [hsame]
      split
      · -- a device keeps nothing, so that both disks are as they were
        refine .ok ⟨h, fun place hplace => ?_⟩
        rcases hplace with hplace | htarget
        · exact hplace
        · rw [← Except.ok.inj htarget, hsame]
      · exact .error rfl
      · exact .ok hput
    · rw [hfile, hfile']
      exact .ok hput

end SameLines

/-! ## Runs -/

/-- Two runs with one request, on the disks `d` and `d'`, that go alike. -/
structure RunsAlike (d d' : Disk) (request : Request) (run run' : Outcome × Disk) : Prop where
  /-- They print and return the same. -/
  outcome_eq : run'.1 = run.1
  /-- The disks differ in nothing but the line ends of files, as before. -/
  sameLines : run.2.SameLines run'.2
  /-- Where the disks were the same, they are the same. -/
  node?_eq : ∀ place, d'.node? place = d.node? place → run'.2.node? place = run.2.node? place
  /-- If the runs succeed, the output file is the same. -/
  output_eq : ∀ o place, request = .assemble o → d.target o.output = .ok place →
    run.1.status = 0 → run'.2.node? place = run.2.node? place

variable {d d' : Disk} {arguments : List Text} {o : Options}

/-- Runs go alike that have the same outcome and leave the disks as they were. -/
lemma SameLines.runsAlike_unchanged (h : d.SameLines d') {request : Request} {outcome : Outcome}
    (hstatus : ∀ o, request = .assemble o → outcome.status ≠ 0) :
    RunsAlike d d' request (outcome, d) (outcome, d') where
  outcome_eq := rfl
  sameLines := h
  node?_eq _ hsame := hsame
  output_eq o _ hrequest _ hzero := absurd hzero (hstatus o hrequest)

/-- **A run does the same on disks with other line ends.** -/
theorem SameLines.runsAlike_session (h : d.SameLines d') (arguments : List Text) :
    RunsAlike d d' (Request.ofArguments arguments) (d.session arguments)
      (d'.session arguments) := by
  unfold Disk.session Session.run
  cases Request.ofArguments arguments with
  | help => exact h.runsAlike_unchanged (by simp)
  | version => exact h.runsAlike_unchanged (by simp)
  | complain e => exact h.runsAlike_unchanged (by simp)
  | assemble o =>
    have hsource := h.source_eq o.input
    unfold source at hsource
    simp only [Session.assemble, FileAccess.read, FileAccess.write, StateT.run_bind, StateT.run_get,
      bind_assoc, pure_bind, hsource]
    cases d.read o.input >>= decodeSource with
    | error e => exact h.runsAlike_unchanged (by simp)
    | ok lines =>
      dsimp only
      cases Assembly.ofSource lines with
      | error e => exact h.runsAlike_unchanged (by simp)
      | ok a =>
        simp only [StateT.run_bind, StateT.run_get, pure_bind]
        have hwrite := h.rel_write o.output a.image.toFile
        generalize d.write o.output a.image.toFile = result,
          d'.write o.output a.image.toFile = result' at hwrite
        cases hwrite with
        | error he =>
          rw [he]
          exact h.runsAlike_unchanged (by simp)
        | ok hdisks =>
          obtain ⟨hlines, hsame⟩ := hdisks
          exact ⟨rfl, hlines, fun place hplace => hsame place (.inl hplace),
            fun o' place ho htarget _ => hsame place (.inr (by cases ho; exact htarget))⟩

/-- **Line ends are forgotten when a file is read.** A file gives certain lines exactly if it is
these lines, written out in UTF-8 with either end behind each, where the end may be missing behind
a last line that is not empty. So a run prints, returns and writes the same if other line ends are
chosen. A file with bytes that are no text, between any two texts, cannot be read: the run fails
with this error before anything is assembled, and changes no file. -/
theorem session_ignores_line_ends (d : Disk) :
    (∀ path lines, (d.source path = .ok lines ∧ ∀ line ∈ lines, Text.IsLine line) ↔
      ∃ text, Text.WritesOut lines text ∧ d.read path = .ok text.utf8Encode) ∧
    (∀ d' : Disk, d.SameLines d' → ∀ arguments, RunsAlike d d' (Request.ofArguments arguments)
      (d.session arguments) (d'.session arguments)) ∧
    ∀ path (before after : Text) (bytes : ByteArray), ¬ bytes.IsValidUTF8 →
      d.read path = .ok (before.utf8Encode ++ bytes ++ after.utf8Encode) →
      d.source path = .error (.reading .invalidText) ∧
      ∀ arguments o, Request.ofArguments arguments = .assemble o → o.input = path →
        d.session arguments =
          ({ status := 1, printed := (FileError.reading .invalidText).printed,
             log := [⟨.info, "1. Read ".toList ++ path⟩] }, d) := by
  refine ⟨?_, fun d' h arguments => h.runsAlike_session arguments, ?_⟩
  · intro path lines
    simp only [source, Except.bind_eq_ok_iff, decodeSource_eq_ok_iff, ← Text.lines_eq_iff_writesOut]
    constructor
    · rintro ⟨⟨content, hread, text, rfl, hlines⟩, hline⟩
      exact ⟨text, ⟨hlines, hline⟩, hread⟩
    · rintro ⟨text, ⟨hlines, hline⟩, hread⟩
      exact ⟨⟨_, hread, text, rfl, hlines⟩, hline⟩
  · intro path before after bytes hbytes hread
    have hcontent : ¬ (before.utf8Encode ++ bytes ++ after.utf8Encode).IsValidUTF8 := fun hvalid =>
      hbytes (isValidUTF8_of_utf8Encode_append (isValidUTF8_of_append_utf8Encode hvalid))
    have hsource : d.source path = .error (.reading .invalidText) := by
      rw [source, hread]
      exact decodeSource_of_not_isValidUTF8 hcontent
    refine ⟨hsource, fun arguments o hrequest hpath => ?_⟩
    subst hpath
    exact session_of_unreadable hrequest hsource

/-- Three lines, one of them empty, whose ends are mixed in two ways, the second time with an end
behind the last line; and a file with a line that is no statement and then a byte that is no
text. -/
theorem session_ignores_mixed_line_ends :
    ∃ d d' broken : Disk,
      d.read "main.s".toList = .ok "ldi 3\r\n\nout".toUTF8 ∧
      d'.read "main.s".toList = .ok "ldi 3\n\r\nout\r\n".toUTF8 ∧
      d.source "main.s".toList = .ok ["ldi 3".toList, [], "out".toList] ∧
      (d.session []).1.status = 0 ∧ (d'.session []).1 = (d.session []).1 ∧
      (d'.session []).2.node? ["w".toList, "out.hex".toList] =
        (d.session []).2.node? ["w".toList, "out.hex".toList] ∧
      broken.read "main.s".toList = .ok ("a b c\n".toUTF8 ++ ⟨#[0xFF]⟩ ++ "\nout".toUTF8) ∧
      broken.source "main.s".toList = .error (.reading .invalidText) ∧
      (broken.session []).1.status = 1 := by
  let disk : Disk := (Disk.mk ["w".toList] fun _ => none).mkdir ["w".toList]
  let place : Place := ["w".toList, "main.s".toList]
  let lines : List Text := ["ldi 3".toList, [], "out".toList]
  have hline : ∀ line ∈ lines, Text.IsLine line := by
    unfold Text.IsLine
    decide
  have hout : Text.WritesOut lines "ldi 3\r\n\nout".toList :=
    .cons (hline _ (by decide)) .returnFeed
      (.cons (hline _ (by decide)) .feed (.unended (hline _ (by decide)) (by decide)))
  have hout' : Text.WritesOut lines "ldi 3\n\r\nout\r\n".toList :=
    .cons (hline _ (by decide)) .feed
      (.cons (hline _ (by decide)) .returnFeed (.cons (hline _ (by decide)) .returnFeed .nil))
  let d := disk.put place (.file "ldi 3\r\n\nout".toUTF8)
  let d' := disk.put place (.file "ldi 3\n\r\nout\r\n".toUTF8)
  let broken := disk.put place (.file ("a b c\n".toUTF8 ++ ⟨#[0xFF]⟩ ++ "\nout".toUTF8))
  have hrequest : Request.ofArguments [] =
      .assemble ⟨"main.s".toList, "out.hex".toList, false⟩ := by
    decide
  have hstatus : (d.session []).1.status = 0 := rfl
  have hbyte : ¬ (⟨#[0xFF]⟩ : ByteArray).IsValidUTF8 := by
    intro hvalid
    have := hvalid.isUTF8FirstByte_getElem_zero (by decide)
    revert this
    decide
  obtain ⟨hread, halike, -⟩ := session_ignores_line_ends d
  obtain ⟨-, -, hbroken⟩ := session_ignores_line_ends broken
  obtain ⟨houtcome, -, -, houtput⟩ := halike d' (sameLines_put disk place hout hout') []
  obtain ⟨hinvalid, hfails⟩ := hbroken "main.s".toList "a b c\n".toList "\nout".toList _ hbyte rfl
  refine ⟨d, d', broken, rfl, rfl, ((hread _ _).2 ⟨_, hout, rfl⟩).1, hstatus, houtcome,
    houtput _ _ hrequest rfl hstatus, rfl, hinvalid, ?_⟩
  rw [hfails [] _ hrequest rfl]

end Disk

end SapOne
