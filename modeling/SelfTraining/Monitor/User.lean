import SelfTraining.Lib.First
import SelfTraining.Monitor.LinuxParser

/-!
The owner of a process.

`Uid` joins the first two numbers of the status file's line of user ids, the real and the
effective one, and `User` looks for what they make in the lines of the passwd file. There the
field behind the user id is the group id.
-/

namespace SelfTraining.Monitor

open SelfTraining.Text SelfTraining.Stream

namespace LinuxParser

/-- The loop of `Uid`; a line without a word leaves `info` as it was. -/
def uidLoop : Bytes → List Bytes → Bytes
  | _, [] => []
  | info, line :: lines =>
    let info := (words line).head?.getD info
    if info = bytes "Uid:" then
      (words line)[1]?.getD [] ++ bytes ":" ++ (words line)[2]?.getD []
    else uidLoop info lines

/-- `Uid`, from the content of the status file if that can be opened. -/
def uid : Option Bytes → Bytes
  | none => []
  | some status => uidLoop [] (getlines status)

/-- `line.find(uid) != string::npos`. -/
def holds (uid line : Bytes) : Bool := decide (uid <:+: line)

def user (status : Option Bytes) : Option Bytes → Bytes
  | none => []
  | some passwd =>
    match (getlines passwd).find? (holds (uid status)) with
    | none => []
    | some line => Framing.upTo 58 line

end LinuxParser

/-! ### Whose process it is -/

/-- The line of the user ids. -/
def uidLine (status : Bytes) : Option Bytes :=
  (getlines status).find? fun line => decide ((words line).head? = some (bytes "Uid:"))

/-- The real user id: the first on the line. -/
def realUid (status : Option Bytes) : Option Bytes :=
  (status.bind uidLine).bind fun line => (words line)[1]?

/-- The line of the passwd file holds the real and the effective user id with a colon between
them; any line does where there is no line of user ids. -/
def holdsIds (status : Option Bytes) (line : Bytes) : Bool :=
  match status.bind uidLine with
  | none => true
  | some ids =>
    decide ((words ids)[1]?.getD [] ++ bytes ":" ++ (words ids)[2]?.getD [] <:+: line)

/-- The lines of a file; there are none where there is no file. -/
def linesOf (file : Option Bytes) : List Bytes := (file.map getlines).getD []

/-- The first field of a line of the passwd file. -/
def nameField (line : Bytes) : Bytes := Framing.upTo 58 line

/-- The third field is the user id that is looked for, if there is one. -/
def bears (uid : Option Bytes) (line : Bytes) : Bool :=
  decide (uid ≠ none ∧ (line.splitOn 58)[2]? = uid)

/-- The name in the first line with the real user id, and nothing where there is none. -/
def owner (status passwd : Option Bytes) : Bytes :=
  First.valueOf nameField [] (bears (realUid status)) (linesOf passwd)

/-- The third field of the line is the real user id. -/
def Owned (status : Option Bytes) (line : Bytes) : Prop :=
  ∃ uid, realUid status = some uid ∧ (line.splitOn 58)[2]? = some uid

/-- The real and the effective user id; one that is missing on the line is empty. -/
def userIds (status : Option Bytes) : Option (Bytes × Bytes) :=
  (status.bind uidLine).map fun ids => ((words ids)[1]?.getD [], (words ids)[2]?.getD [])

/-- Where there is a line of user ids: a field of the line ends in the real one and the next field
begins with the effective one. Ids that hold colons themselves are spread over more fields. -/
def TakenFor (status : Option Bytes) (line : Bytes) : Prop :=
  ∀ ids ∈ userIds status, ∃ a mids b, (ids.1 ++ 58 :: ids.2).splitOn 58 = a :: (mids ++ [b]) ∧
    ∃ pre u v post, line.splitOn 58 = pre ++ u :: (mids ++ v :: post) ∧ a <:+ u ∧ b <+: v

/-! ### What is looked for -/

lemma uidLoop_eq {info : Bytes} (hinfo : info ≠ bytes "Uid:") (lines : List Bytes) :
    LinuxParser.uidLoop info lines =
      match lines.find? fun line => decide ((words line).head? = some (bytes "Uid:")) with
      | none => []
      | some line => (words line)[1]?.getD [] ++ bytes ":" ++ (words line)[2]?.getD [] := by
  induction lines generalizing info with
  | nil => rfl
  | cons line lines ih =>
    have hiff : (words line).head?.getD info = bytes "Uid:" ↔
        (words line).head? = some (bytes "Uid:") := by
      cases (words line).head? with
      | none => simpa using hinfo
      | some w => simp
    rw [LinuxParser.uidLoop]
    by_cases h : (words line).head?.getD info = bytes "Uid:"
    · rw [if_pos h, List.find?_cons_of_pos (by simpa using hiff.mp h)]
    · rw [if_neg h, List.find?_cons_of_neg (by simpa using fun hw => h (hiff.mpr hw)), ih h]

/-- What is looked for: nothing where there is no line of user ids, and otherwise the real and
the effective one with a colon between them. -/
lemma uid_eq (status : Option Bytes) :
    LinuxParser.uid status =
      match status.bind uidLine with
      | none => []
      | some line => (words line)[1]?.getD [] ++ bytes ":" ++ (words line)[2]?.getD [] := by
  cases status with
  | none => rfl
  | some status =>
    have hinfo : ([] : Bytes) ≠ bytes "Uid:" := by decide
    exact uidLoop_eq hinfo (getlines status)

lemma holds_uid (status : Option Bytes) :
    LinuxParser.holds (LinuxParser.uid status) = holdsIds status := by
  funext line
  unfold LinuxParser.holds holdsIds
  rw [uid_eq]
  cases status.bind uidLine with
  | none => simp
  | some ids => rfl

lemma holdsIds_iff {status : Option Bytes} {line : Bytes} :
    holdsIds status line = true ↔ TakenFor status line := by
  unfold holdsIds TakenFor userIds
  cases status.bind uidLine with
  | none => simp
  | some ids =>
    simp only [Option.map_some, Option.mem_def, Option.some.injEq, forall_eq', decide_eq_true_iff]
    generalize (words ids)[1]?.getD [] = real
    generalize (words ids)[2]?.getD [] = effective
    have hjoined : real ++ bytes ":" ++ effective = real ++ 58 :: effective := by simp [bytes]
    rw [hjoined]
    constructor
    · intro h
      obtain ⟨a, mids, b, hparts⟩ : ∃ a mids b,
          (real ++ 58 :: effective).splitOn 58 = a :: (mids ++ [b]) := by
        obtain ⟨a, l, hl⟩ := List.exists_cons_of_ne_nil (List.splitOn_ne_nil 58 real)
        rw [List.splitOn_append_cons_self, hl]
        exact ⟨a, l ++ (effective.splitOn 58).dropLast, _, by
          rw [List.append_assoc, List.dropLast_append_getLast (List.splitOn_ne_nil 58 effective)]
          rfl⟩
      exact ⟨a, mids, b, hparts, (infix_fields_iff hparts).mp h⟩
    · rintro ⟨a, mids, b, hparts, h⟩
      exact (infix_fields_iff hparts).mpr h

/-- For ids without colons: one of the fields ends in the real id, and the next begins with the
effective one. -/
theorem takenFor_iff {status : Option Bytes} {real effective line : Bytes}
    (hids : userIds status = some (real, effective)) (hr : 58 ∉ real) (he : 58 ∉ effective) :
    TakenFor status line ↔ ∃ before field next after,
      line.splitOn 58 = before ++ field :: next :: after ∧ real <:+ field ∧
        effective <+: next := by
  have hparts : (real ++ 58 :: effective).splitOn 58 = real :: ([] ++ [effective]) := by
    rw [List.splitOn_append_cons_self_of_not_mem hr, List.splitOn_eq_singleton he]
    rfl
  unfold TakenFor
  simp only [hids, Option.mem_def, Option.some.injEq, forall_eq', hparts]
  constructor
  · rintro ⟨a, mids, b, hsplit, h⟩
    obtain ⟨rfl, hrest⟩ := List.cons_eq_cons.mp hsplit
    obtain ⟨rfl, hb⟩ := List.append_inj' hrest rfl
    obtain rfl := List.singleton_inj.mp hb
    exact h
  · exact fun h => ⟨real, [], effective, rfl, h⟩

lemma user_eq (status passwd : Option Bytes) :
    LinuxParser.user status passwd =
      First.valueOf nameField [] (holdsIds status) (linesOf passwd) := by
  rw [← holds_uid]
  cases passwd with
  | none => rfl
  | some passwd =>
    unfold LinuxParser.user First.valueOf linesOf
    dsimp only [Option.map_some, Option.getD_some]
    cases (getlines passwd).find? (LinuxParser.holds (LinuxParser.uid status)) with
    | none => rfl
    | some line => rfl

/-! ### When the owner is found -/

/-- Line by line: the first line that is owned or taken for owned is both, or it is only one of
them and the first line behind it that is the other has the same name; where no line behind it
is, its own name is empty. -/
inductive FindsOwner (status : Option Bytes) : List Bytes → Prop
  | none : FindsOwner status []
  | both {line : Bytes} {lines : List Bytes} : Owned status line → TakenFor status line →
    FindsOwner status (line :: lines)
  | ownedFirst {line : Bytes} {lines : List Bytes} : Owned status line →
    ¬ TakenFor status line →
    First.Gives nameField [] (TakenFor status) lines (nameField line) →
    FindsOwner status (line :: lines)
  | takenFirst {line : Bytes} {lines : List Bytes} : ¬ Owned status line →
    TakenFor status line → First.Gives nameField [] (Owned status) lines (nameField line) →
    FindsOwner status (line :: lines)
  | neither {line : Bytes} {lines : List Bytes} : ¬ Owned status line →
    ¬ TakenFor status line → FindsOwner status lines → FindsOwner status (line :: lines)

section

variable {status : Option Bytes} {lines : List Bytes} {name : Bytes}

lemma bears_iff {line : Bytes} : bears (realUid status) line = true ↔ Owned status line := by
  unfold bears Owned
  cases realUid status with
  | none => simp
  | some uid => simp

lemma gives_taken_iff : First.Gives nameField [] (TakenFor status) lines name ↔
    First.valueOf nameField [] (holdsIds status) lines = name := by
  rw [← First.gives_iff]
  simp only [holdsIds_iff]

lemma gives_owned_iff : First.Gives nameField [] (Owned status) lines name ↔
    First.valueOf nameField [] (bears (realUid status)) lines = name := by
  rw [← First.gives_iff]
  simp only [bears_iff]

lemma FindsOwner.valueOf_eq (h : FindsOwner status lines) :
    First.valueOf nameField [] (holdsIds status) lines =
      First.valueOf nameField [] (bears (realUid status)) lines := by
  induction h with
  | none => rfl
  | both ho ht =>
    rw [First.valueOf_cons, First.valueOf_cons, if_pos (holdsIds_iff.mpr ht),
      if_pos (bears_iff.mpr ho)]
  | ownedFirst ho ht hgives =>
    rw [First.valueOf_cons, First.valueOf_cons, if_neg (mt holdsIds_iff.mp ht),
      if_pos (bears_iff.mpr ho)]
    exact gives_taken_iff.mp hgives
  | takenFirst ho ht hgives =>
    rw [First.valueOf_cons, First.valueOf_cons, if_pos (holdsIds_iff.mpr ht),
      if_neg (mt bears_iff.mp ho)]
    exact (gives_owned_iff.mp hgives).symm
  | neither ho ht _ ih =>
    rwa [First.valueOf_cons, First.valueOf_cons, if_neg (mt holdsIds_iff.mp ht),
      if_neg (mt bears_iff.mp ho)]

lemma findsOwner_of_valueOf_eq (h : First.valueOf nameField [] (holdsIds status) lines =
    First.valueOf nameField [] (bears (realUid status)) lines) : FindsOwner status lines := by
  induction lines with
  | nil => exact .none
  | cons line lines ih =>
    rw [First.valueOf_cons, First.valueOf_cons] at h
    by_cases ho : Owned status line
    · rw [if_pos (bears_iff.mpr ho)] at h
      by_cases ht : TakenFor status line
      · exact .both ho ht
      · rw [if_neg (mt holdsIds_iff.mp ht)] at h
        exact .ownedFirst ho ht (gives_taken_iff.mpr h)
    · rw [if_neg (mt bears_iff.mp ho)] at h
      by_cases ht : TakenFor status line
      · rw [if_pos (holdsIds_iff.mpr ht)] at h
        exact .takenFirst ho ht (gives_owned_iff.mpr h.symm)
      · rw [if_neg (mt holdsIds_iff.mp ht)] at h
        exact .neither ho ht (ih h)

end

/-- **The owner is found** if and only if, going through the lines of the passwd file, the first
that has the real user id for its third field or two fields that end and begin in the two user
ids has both, or else the first line behind it that has the other repeats its name. -/
theorem user_eq_owner_iff (status passwd : Option Bytes) :
    LinuxParser.user status passwd = owner status passwd ↔
      FindsOwner status (linesOf passwd) := by
  rw [user_eq]
  exact ⟨findsOwner_of_valueOf_eq, FindsOwner.valueOf_eq⟩

/-- A user whose group id is another number is not found. -/
theorem other_group_not_found :
    LinuxParser.user (some (bytes "Uid:\t1000\t1000\t1000\t1000\n"))
        (some (bytes "ann:x:1000:100::/home/ann:/bin/sh\n")) ≠
      owner (some (bytes "Uid:\t1000\t1000\t1000\t1000\n"))
        (some (bytes "ann:x:1000:100::/home/ann:/bin/sh\n")) := by
  decide +kernel

end SelfTraining.Monitor
