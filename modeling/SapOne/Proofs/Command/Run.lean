import SapOne.Command.Session
import SapOne.Proofs.Command.Arguments

set_option relaxedAutoImplicit false
set_option autoImplicit false

/-!
# What a run does to files

A run reads one file and writes another one, which may be the same. This module says which files
a run changes, in every case: the output file is written once all else has gone well, as a whole,
and no other file is touched. How many progress messages are wanted, and whether a listing is
printed, makes no difference to this.

## Main definitions

* `SapOne.Disk.WritableAt`, `SapOne.Disk.Rewrites` — a place that can be written, and the disk
  after it was.
* `SapOne.Transcript` — the exit status, the messages and the files after a run.
* `SapOne.Transcript.KeepsPromise` — what a run owes to the files, case by case.

## Main results

* `SapOne.Disk.lookup_put_target` — what is written with a path is read with that path.
* `SapOne.Disk.session_result` — what a run leaves, from the files that it names.
* `SapOne.Disk.session_keeps_promise` — every run does what it owes.
-/

namespace SapOne

namespace Disk

/-! ## Writing a file and reading it back -/

/-- A walk along two parts of a path is a walk along the first one and then along the second one. -/
lemma walk_append (d : Disk) (place : Place) (a b : List Text) :
    d.walk place (a ++ b) = (d.walk place a >>= fun p => d.walk p b) := by
  induction a generalizing place with
  | nil => rfl
  | cons name rest ih =>
    simp only [List.cons_append, walk]
    split
    · rfl
    · split
      · rfl
      · exact ih _
    · rfl

/-- A single dot leads nowhere else. -/
lemma walk_dot {d : Disk} {place p : Place} (h : d.walk place [['.']] = .ok p) : p = place := by
  rw [walk] at h
  split at h
  · cases h
  · rw [if_neg (by decide)] at h
    cases h
    rfl
  · cases h

/-- Something put where no directory stands is in nobody's way. -/
lemma walk_put {d : Disk} {place : Place} (hplace : d.node? place ≠ some .directory) (node : Node)
    {start q : Place} {names : List Text} (h : d.walk start names = .ok q) :
    (d.put place node).walk start names = .ok q := by
  induction names generalizing start with
  | nil => exact h
  | cons name rest ih =>
    rw [walk] at h ⊢
    split at h
    · cases h
    · next hstart =>
      have hne : start ≠ place := fun heq => hplace (heq ▸ hstart)
      rw [node?_put, if_neg hne, hstart]
      split at h
      · cases h
      · next hlimit =>
        rw [if_neg hlimit]
        exact ih h
    · cases h

/-- A path lets a file be created at the place that it leads to, where no directory stands. -/
lemma target_eq_ok {d : Disk} {path : Text} {place : Place} (h : d.target path = .ok place) :
    path.isEmpty = false ∧ exceeds pathLimit path = false ∧ wantsDirectory path = false ∧
      d.walk (d.start path) (names path) = .ok place ∧ d.node? place ≠ some .directory := by
  unfold target at h
  by_cases hempty : path.isEmpty = true
  · simp [hempty] at h
  by_cases hlimit : exceeds pathLimit path = true
  · simp [hempty, hlimit] at h
  rw [if_neg hempty, if_neg hlimit] at h
  obtain ⟨parent, hparent, h⟩ := Except.bind_eq_ok_iff.1 h
  cases hname : (names path).getLast? with
  | none => simp [hname] at h
  | some name =>
    by_cases hslash : wantsDirectory path = true
    · simp [hname, hslash] at h
    simp only [hname, hslash] at h
    obtain ⟨p, hp, h⟩ := Except.bind_eq_ok_iff.1 h
    refine ⟨by simpa using hempty, by simpa using hlimit, by simpa using hslash, ?_⟩
    -- the walk to the parent ends with a dot, which only asks whether a directory is there
    rw [walk_append] at hparent
    obtain ⟨before, hbefore, hdot⟩ := Except.bind_eq_ok_iff.1 hparent
    rw [walk_dot hdot] at hp
    obtain ⟨front, hnames⟩ := List.getLast?_eq_some_iff.1 hname
    rw [hnames, List.dropLast_concat] at hbefore
    split at h
    · cases h
    · next hnode =>
      cases h
      refine ⟨?_, hnode⟩
      rw [hnames, walk_append, hbefore]
      exact hp

/-- What was put at the place where a path lets a file be created is found there again. -/
lemma lookup_put_target {d : Disk} {path : Text} {place : Place} (h : d.target path = .ok place)
    (node : Node) : (d.put place node).lookup path = .ok node := by
  obtain ⟨hempty, hlimit, hslash, hwalk, hnode⟩ := target_eq_ok h
  have hwalk' := walk_put hnode node hwalk
  have hstart : (d.put place node).start path = d.start path := rfl
  unfold lookup
  rw [hempty, hlimit, hslash, hstart]
  simp only [Bool.false_eq_true, if_false, List.append_nil]
  refine Except.bind_eq_ok_iff.2 ⟨place, hwalk', ?_⟩
  rw [node?_put, if_pos rfl]

/-- A file can be created at a place with a path, or written there. -/
def WritableAt (d : Disk) (path : Text) (place : Place) : Prop :=
  d.target path = .ok place ∧ d.node? place ≠ some (.device false)

/-- The disk `d'` is the disk `d`, with a content written to the file at a path. -/
structure Rewrites (d d' : Disk) (path : Text) (place : Place) (content : ByteArray) : Prop where
  home_eq : d'.home = d.home
  /-- Every other file is as it was. -/
  node?_eq : ∀ p, p ≠ place → d'.node? p = d.node? p
  /-- A file has the content as a whole, and reads as it. -/
  file : (∀ room, d.node? place ≠ some (.device room)) →
    d'.node? place = some (.file content) ∧ d'.read path = .ok content
  /-- A device keeps nothing. -/
  device : ∀ room, d.node? place = some (.device room) → d' = d

/-- A file that is put at the place of a path is all that changes. -/
lemma rewrites_put {d : Disk} {path : Text} {place : Place} (h : d.target path = .ok place)
    (hnode : ∀ room, d.node? place ≠ some (.device room)) (content : ByteArray) :
    Rewrites d (d.put place (.file content)) path place content where
  home_eq := rfl
  node?_eq p hp := by rw [node?_put, if_neg hp]
  file _ := by
    refine ⟨by rw [node?_put, if_pos rfl], ?_⟩
    rw [read, lookup_put_target h]
  device room hroom := absurd hroom (hnode room)

/-- Writing succeeds where it can, and changes nothing but the one file. -/
lemma write_of_writableAt {d : Disk} {path : Text} {place : Place}
    (h : d.WritableAt path place) (content : ByteArray) :
    ∃ d', d.write path content = .ok d' ∧ Rewrites d d' path place content := by
  obtain ⟨htarget, hroom⟩ := h
  unfold write
  rw [htarget]
  dsimp only
  split
  · next hnode =>
    exact ⟨d, rfl, rfl, fun _ _ => rfl, fun h => absurd hnode (h true), fun _ _ => rfl⟩
  · next hnode => exact absurd hnode hroom
  · next htrue hfalse =>
    refine ⟨_, rfl, rewrites_put htarget ?_ content⟩
    rintro (_ | _)
    · exact hfalse
    · exact htrue

/-- Writing fails where there is no place for it. -/
lemma write_of_not_writableAt {d : Disk} {path : Text}
    (h : ∀ place, ¬ d.WritableAt path place) (content : ByteArray) :
    ∃ e, d.write path content = .error e := by
  unfold write
  cases htarget : d.target path with
  | error fault => exact ⟨_, rfl⟩
  | ok place =>
    have hnode : d.node? place = some (.device false) :=
      Classical.not_not.1 fun hne => h place ⟨htarget, hne⟩
    simp only [hnode]
    exact ⟨_, rfl⟩

/-! ## The course of a run -/

/-- The lines of a source file. -/
def source (d : Disk) (path : Text) : Except FileError (List Text) :=
  d.read path >>= decodeSource

variable {d : Disk} {arguments : List Text} {o : Options}

/-- The exit status of a run and the files after it, from the files that it names. -/
def result (d : Disk) (input output : Text) : Nat × Disk :=
  match d.source input with
  | .error _ => (1, d)
  | .ok lines =>
    match Assembly.ofSource lines with
    | .error _ => (1, d)
    | .ok a =>
      match d.write output a.image.toFile with
      | .error _ => (1, d)
      | .ok d' => (0, d')

/-- **The exit status and the files depend on nothing but the files that are named.** -/
lemma session_result (h : Request.ofArguments arguments = .assemble o) :
    ((d.session arguments).1.status, (d.session arguments).2) = d.result o.input o.output := by
  unfold result source
  simp only [session, Session.run, h, Session.assemble, FileAccess.read, FileAccess.write,
    StateT.run_bind, StateT.run_get, bind_assoc, pure_bind]
  cases d.read o.input >>= decodeSource with
  | error e => rfl
  | ok lines =>
    dsimp only
    cases Assembly.ofSource lines with
    | error e => rfl
    | ok a =>
      simp only [StateT.run_bind, StateT.run_get, pure_bind]
      cases d.write o.output a.image.toFile with
      | error e => rfl
      | ok d' => rfl

/-- A run whose source file cannot be read ends there. -/
lemma session_of_unreadable (h : Request.ofArguments arguments = .assemble o) {e : FileError}
    (hsource : d.source o.input = .error e) :
    d.session arguments =
      ({ status := 1, printed := e.printed,
         log := [⟨.info, "1. Read ".toList ++ o.input⟩] }, d) := by
  unfold source at hsource
  simp only [session, Session.run, h, Session.assemble, FileAccess.read, StateT.run_bind,
    StateT.run_get, StateT.run_pure, bind_assoc, pure_bind, hsource]
  rfl

/-- A run whose source file cannot be read has only announced that it would read it. -/
lemma log_of_unreadable (h : Request.ofArguments arguments = .assemble o) {e : FileError}
    (hsource : d.source o.input = .error e) :
    (d.session arguments).1.log = [⟨.info, "1. Read ".toList ++ o.input⟩] := by
  rw [session_of_unreadable h hsource]

/-- A run whose source does not assemble has announced the reading and the assembling. -/
lemma log_of_rejected (h : Request.ofArguments arguments = .assemble o) {lines : List Text}
    (hsource : d.source o.input = .ok lines) {e : Diagnostic}
    (hassemble : Assembly.ofSource lines = .error e) :
    (d.session arguments).1.log = [⟨.info, "1. Read ".toList ++ o.input⟩,
      ⟨.debug, Numeral.decimal lines.length ++ " lines".toList⟩,
      ⟨.info, "2. Assemble".toList⟩] := by
  unfold source at hsource
  simp only [session, Session.run, h, Session.assemble, FileAccess.read, StateT.run_bind,
    StateT.run_get, StateT.run_pure, bind_assoc, pure_bind, hsource, hassemble]
  rfl

end Disk

/-! ## What a run leaves behind -/

/-- What can be seen of a run afterwards. -/
structure Transcript where
  /-- The exit status. -/
  status : Nat
  /-- The progress messages that were written. -/
  log : List Log.Entry
  /-- The files. -/
  disk : Disk

/-- A run of the program on the files of a disk, with a setting for the progress messages. -/
def Disk.transcript (d : Disk) (setting : Option Text) (arguments : List Text) : Transcript where
  status := (d.session arguments).1.status
  log := (d.session arguments).1.log.filter fun e => (Log.Verbosity.ofSetting setting).shows e.level
  disk := (d.session arguments).2

/-- The last stage of a run, the writing of the image, is not among the messages. -/
def Log.LacksWrite (log : List Log.Entry) : Prop :=
  ∀ e ∈ log, ¬ "3. Write".toList <+: e.text

/-- What a run owes to the files of a disk. -/
structure Transcript.KeepsPromise (t : Transcript) (d : Disk) (request : Request) : Prop where
  /-- Where nothing is to be assembled, no file changes and no message is written. -/
  idle : (∀ o, request ≠ .assemble o) → t.disk = d ∧ t.log = []
  /-- Where the source file cannot be read, no file changes. -/
  unreadable : ∀ o e, request = .assemble o → d.source o.input = .error e →
    t.status = 1 ∧ t.disk = d ∧ Log.LacksWrite t.log
  /-- Where its lines do not assemble, no file changes. -/
  rejected : ∀ o lines e, request = .assemble o → d.source o.input = .ok lines →
    assemble lines = .error e → t.status = 1 ∧ t.disk = d ∧ Log.LacksWrite t.log
  /-- Where they do, and the output file can be written, it has the image and nothing else
  changes. -/
  written : ∀ o lines image place, request = .assemble o → d.source o.input = .ok lines →
    assemble lines = .ok image → d.WritableAt o.output place →
    t.status = 0 ∧ d.Rewrites t.disk o.output place image.toFile
  /-- Where the output file cannot be written, the run fails. -/
  refused : ∀ o lines image, request = .assemble o → d.source o.input = .ok lines →
    assemble lines = .ok image → (∀ place, ¬ d.WritableAt o.output place) → t.status = 1

/-- Two runs with the same exit status and the same files afterwards. -/
def Transcript.Agree (t t' : Transcript) : Prop :=
  t'.status = t.status ∧ t'.disk = t.disk

/-! ## Every run keeps its promise -/

/-- Leaving out messages announces no writing. -/
lemma Log.LacksWrite.filter {log : List Log.Entry} (h : Log.LacksWrite log)
    (p : Log.Entry → Bool) : Log.LacksWrite (log.filter p) :=
  fun e he => h e (List.mem_filter.1 he).1

/-- A number of lines does not look like a stage: there is no full stop in it. -/
lemma Log.not_isPrefix_lines (n : Nat) :
    ¬ "3. Write".toList <+: Numeral.decimal n ++ " lines".toList := by
  intro h
  have hmem : '.' ∈ Numeral.decimal n ++ " lines".toList := h.subset (by decide)
  rcases List.mem_append.1 hmem with hdigit | hrest
  · exact absurd (Nat.isDigit_of_mem_toDigits (by decide) (by decide) hdigit) (by decide)
  · exact absurd hrest (by decide)

/-- Announcing the reading is not announcing the writing, whatever the name of the file is. -/
lemma Log.lacksWrite_read (input : Text) :
    Log.LacksWrite [⟨.info, "1. Read ".toList ++ input⟩] := by
  simp [Log.LacksWrite]

/-- Nor is announcing the reading, the number of lines and the assembling. -/
lemma Log.lacksWrite_assemble (input : Text) (n : Nat) :
    Log.LacksWrite [⟨.info, "1. Read ".toList ++ input⟩,
      ⟨.debug, Numeral.decimal n ++ " lines".toList⟩, ⟨.info, "2. Assemble".toList⟩] := by
  refine List.forall_mem_cons.2 ⟨by simp, List.forall_mem_cons.2 ⟨not_isPrefix_lines n, ?_⟩⟩
  simp

namespace Disk

/-- A run keeps its promise, in each of the ways in which it can end. -/
lemma transcript_keepsPromise (d : Disk) (setting : Option Text) (arguments : List Text) :
    (d.transcript setting arguments).KeepsPromise d (Request.ofArguments arguments) where
  idle := by
    intro h
    unfold transcript session Session.run
    cases hrequest : Request.ofArguments arguments with
    | help => exact ⟨rfl, rfl⟩
    | version => exact ⟨rfl, rfl⟩
    | complain e => exact ⟨rfl, rfl⟩
    | assemble o => exact absurd hrequest (h o)
  unreadable o e h hsource := by
    have hresult := session_result (d := d) h
    rw [result, hsource, Prod.mk.injEq] at hresult
    refine ⟨hresult.1, hresult.2, Log.LacksWrite.filter ?_ _⟩
    rw [log_of_unreadable h hsource]
    exact Log.lacksWrite_read o.input
  rejected o lines e h hsource hassemble := by
    have hrejected := Except.map_eq_error_iff.1 hassemble
    have hresult := session_result (d := d) h
    simp only [result, hsource, hrejected, Prod.mk.injEq] at hresult
    refine ⟨hresult.1, hresult.2, Log.LacksWrite.filter ?_ _⟩
    rw [log_of_rejected h hsource hrejected]
    exact Log.lacksWrite_assemble o.input lines.length
  written o lines image place h hsource hassemble hplace := by
    obtain ⟨a, ha, rfl⟩ := Except.map_eq_ok_iff.1 hassemble
    obtain ⟨d', hwrite, hrewrites⟩ := write_of_writableAt hplace a.image.toFile
    have hresult := session_result (d := d) h
    simp only [result, hsource, ha, hwrite, Prod.mk.injEq] at hresult
    refine ⟨hresult.1, ?_⟩
    show d.Rewrites (d.session arguments).2 o.output place a.image.toFile
    rw [hresult.2]
    exact hrewrites
  refused o lines image h hsource hassemble hplace := by
    obtain ⟨a, ha, rfl⟩ := Except.map_eq_ok_iff.1 hassemble
    obtain ⟨e, hwrite⟩ := write_of_not_writableAt hplace a.image.toFile
    have hresult := session_result (d := d) h
    simp only [result, hsource, ha, hwrite, Prod.mk.injEq] at hresult
    exact hresult.1

/-- **A run touches the output file only after success, and exactly as promised.** For all
arguments, files and settings of the progress messages, the run keeps its promise to the files.
Neither the setting nor the option `--dump` makes a difference to the exit status or to the files.
Valid arguments that ask for a listing have the option at some place. It can be left out there. It
can be added to valid arguments without it, before the end of the options and behind complete
arguments. -/
theorem session_keeps_promise (d : Disk) :
    (∀ setting arguments,
      (d.transcript setting arguments).KeepsPromise d (Request.ofArguments arguments)) ∧
    (∀ setting setting' arguments,
      (d.transcript setting arguments).Agree (d.transcript setting' arguments)) ∧
    (∀ arguments o, Request.ofArguments arguments = .assemble o → o.dump = true →
      ∃ before rest rest', arguments = before ++ rest' ∧ Request.AddsDump rest rest' ∧
        ArgumentState.optionsEnd ∉ before) ∧
    ∀ before arguments arguments' : List Text, Request.AddsDump arguments arguments' →
      ArgumentState.optionsEnd ∉ before →
      ((∃ o, Request.ofArguments (before ++ arguments') = .assemble o) ↔
        (∃ o, Request.ofArguments before = .assemble o) ∧
        ∃ o, Request.ofArguments (before ++ arguments) = .assemble o ∧ o.dump = false) ∧
      ((∃ o, Request.ofArguments (before ++ arguments') = .assemble o) →
        ∀ setting setting', (d.transcript setting (before ++ arguments)).Agree
          (d.transcript setting' (before ++ arguments'))) := by
  refine ⟨d.transcript_keepsPromise, fun _ _ _ => ⟨rfl, rfl⟩,
    fun _ _ => Request.exists_addsDump, ?_⟩
  intro before arguments arguments' hadds hend
  have hiff := fun o => hadds.ofArguments_iff hend (o := o)
  refine ⟨⟨?_, ?_⟩, ?_⟩
  · rintro ⟨o, ho⟩
    obtain ⟨hbefore, -, hwithout⟩ := (hiff o).1 ho
    exact ⟨hbefore, _, hwithout, rfl⟩
  · rintro ⟨hbefore, o, ho, hdump⟩
    refine ⟨{ o with dump := true }, (hiff _).2 ⟨hbefore, rfl, ?_⟩⟩
    rw [ho, ← hdump]
  · rintro ⟨o, ho⟩ setting setting'
    obtain ⟨-, -, hwithout⟩ := (hiff o).1 ho
    have hsame := (session_result (d := d) ho).trans (session_result (d := d) hwithout).symm
    exact Prod.mk.inj hsame

/-- A file that is assembled into itself, under another path: without a listing, and with a listing
and all messages. -/
theorem session_keeps_promise_in_place :
    ∃ (d : Disk) (place : Place),
      d.node? place = some (.file "ldi 3\nout".toUTF8) ∧
      (d.transcript none ["-o".toList, "./main.s".toList]).status = 0 ∧
      (d.transcript none ["-o".toList, "./main.s".toList]).disk.node? place =
        some (.file "53 e0 00 00 00 00 00 00 00 00 00 00 00 00 00 00".toUTF8) ∧
      (d.transcript none ["-o".toList, "./main.s".toList]).Agree
        (d.transcript (some "trace".toList) ["-do".toList, "./main.s".toList]) := by
  let d : Disk := ((Disk.mk ["w".toList] fun _ => none).mkdir ["w".toList]).put
    ["w".toList, "main.s".toList] (.file "ldi 3\nout".toUTF8)
  have hrequest : Request.ofArguments ["-o".toList, "./main.s".toList] =
      .assemble ⟨"main.s".toList, "./main.s".toList, false⟩ := by
    decide
  have hsource : d.source "main.s".toList = .ok ["ldi 3".toList, "out".toList] := rfl
  have hassemble : assemble ["ldi 3".toList, "out".toList] =
      .ok ⟨#v[0x53, 0xE0, 0, 0, 0, 0, 0, 0, 0, 0, 0, 0, 0, 0, 0, 0],
        #v[some 0, some 1, none, none, none, none, none, none, none, none, none, none, none, none,
          none, none]⟩ := by
    rfl
  have hnode : d.node? ["w".toList, "main.s".toList] = some (.file "ldi 3\nout".toUTF8) := rfl
  have hwritable : d.WritableAt "./main.s".toList ["w".toList, "main.s".toList] := by
    refine ⟨rfl, ?_⟩
    rw [hnode]
    simp
  obtain ⟨hpromise, -, -, hdump⟩ := session_keeps_promise d
  obtain ⟨hstatus, hrewrites⟩ :=
    (hpromise none ["-o".toList, "./main.s".toList]).written _ _ _ _ hrequest hsource hassemble
      hwritable
  refine ⟨d, ["w".toList, "main.s".toList], hnode, hstatus, ?_, ?_⟩
  · obtain ⟨hfile, -⟩ := hrewrites.file fun room => by rw [hnode]; simp
    rw [hfile]
    rfl
  · have hadds : Request.AddsDump ["-o".toList, "./main.s".toList]
        ["-do".toList, "./main.s".toList] := .group (by decide) [] _
    have hwith : Request.ofArguments ["-do".toList, "./main.s".toList] =
        .assemble ⟨"main.s".toList, "./main.s".toList, true⟩ := by
      decide
    exact (hdump [] _ _ hadds (by simp)).2 ⟨_, hwith⟩ none (some "trace".toList)

end Disk

end SapOne
