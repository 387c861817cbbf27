import SelfTraining.Monitor.LinuxParser

/-!
The name of the system.

`OperatingSystem` writes the spaces of a line as underscores and its separators as spaces, reads
the words two by two as keys and values, and writes the underscores of the value it looks for as
spaces again.
-/

namespace SelfTraining.Monitor

open SelfTraining.Text SelfTraining.Stream

namespace LinuxParser

/-- `std::replace`. -/
def replace (line : Bytes) (old new : UInt8) : Bytes :=
  line.map fun c => if c = old then new else c

/-- A line after the three replacements. -/
def replaced (line : Bytes) : Bytes := replace (replace (replace line 32 95) 61 32) 34 32

/-- The inner loop, for the words of a line. An error is the value that it returns at once, and
otherwise there is the last value that it has read. -/
def osWords (value : Bytes) : List Bytes → Except Bytes Bytes
  | key :: value :: rest =>
    if key = bytes "PRETTY_NAME" then .error (replace value 95 32) else osWords value rest
  | _ => .ok value

/-- The outer loop. -/
def osLines (lines : List Bytes) (value : Bytes) : Except Bytes Bytes :=
  lines.foldlM (fun value line => osWords value (words (replaced line))) value

/-- What is returned, at once or in the end. -/
def returned : Except Bytes Bytes → Bytes
  | .error value => value
  | .ok value => value

/-- `OperatingSystem`, from the content of the file if that can be opened. -/
def operatingSystem : Option Bytes → Bytes
  | none => []
  | some text => returned (osLines (getlines text) [])

end LinuxParser

/-! ### The file -/

/-- The line that gives the name. -/
def prettyLine (name : Bytes) : Bytes := bytes "PRETTY_NAME=\"" ++ name ++ [34]

/-- A content of `/etc/os-release`. -/
structure OsRelease where
  text : Bytes
  before : List Bytes
  name : Bytes
  after : List Bytes
  lines : getlines text = before ++ prettyLine name :: after
  others : ∀ line ∈ before ++ after, ∃ key value, line = key ++ 61 :: value ∧
    61 ∉ key ∧ key ≠ bytes "PRETTY_NAME"
  ne_nil : name ≠ []
  noQuote : 34 ∉ name

/-- No byte of the name is used as a mark, and none but spaces stands between words. -/
def Plain (name : Bytes) : Prop :=
  ∀ c ∈ name, c ≠ 95 ∧ c ≠ 61 ∧ (isSpace c = true → c = 32)

/-- The value that comes first behind the key, when words are read two by two. -/
def valueBehind (key : Bytes) : List Bytes → Option Bytes
  | k :: value :: rest => if k = key then some value else valueBehind key rest
  | _ => none

/-- What a line is taken to say of the name. -/
def namedBy (line : Bytes) : Option Bytes :=
  valueBehind (bytes "PRETTY_NAME") (words (LinuxParser.replaced line))

/-! ### Marks -/

namespace LinuxParser

lemma replaced_append (a b : Bytes) : replaced (a ++ b) = replaced a ++ replaced b := by
  simp [replaced, replace]

/-- What becomes of a byte. -/
def mark (c : UInt8) : UInt8 := if c = 32 then 95 else if c = 61 ∨ c = 34 then 32 else c

lemma replaced_eq_map (line : Bytes) : replaced line = line.map mark := by
  unfold replaced replace
  rw [List.map_map, List.map_map]
  refine List.map_congr_left fun c _ => ?_
  unfold mark
  by_cases h32 : c = 32
  · subst h32; rfl
  · by_cases h61 : c = 61
    · subst h61; rfl
    · simp [h32, h61]

lemma mark_ne (c : UInt8) : mark c ≠ 61 := by
  unfold mark
  split
  · decide
  · split
    · decide
    · next h => exact fun h61 => h (.inl h61)

/-- A byte that is no quote becomes part of a word. -/
lemma isSpace_mark_iff {c : UInt8} (hquote : c ≠ 34) :
    isSpace (mark c) = false ↔ c ≠ 61 ∧ (isSpace c = true → c = 32) := by
  by_cases h32 : c = 32
  · subst h32; decide
  · by_cases h61 : c = 61
    · subst h61; decide
    · have hmark : mark c = c := by simp [mark, h32, h61, hquote]
      simp [hmark, h32, h61]

lemma unmark {c : UInt8} (hquote : c ≠ 34) (h95 : c ≠ 95) (h61 : c ≠ 61) :
    (if mark c = 95 then 32 else mark c) = c := by
  by_cases h32 : c = 32
  · subst h32; decide
  · have hmark : mark c = c := by simp [mark, h32, h61, hquote]
    rw [hmark, if_neg h95]

end LinuxParser

/-! ### Words -/

/-- The bytes of a word that can be read from a line. -/
def Clean (w : Bytes) : Prop := ∀ c ∈ w, c ≠ 61 ∧ isSpace c = false

lemma clean_of_mem {line w : Bytes} (h : w ∈ words (LinuxParser.replaced line)) : Clean w := by
  obtain ⟨hword, hin⟩ := mem_words h
  intro c hc
  refine ⟨?_, hword.noSpace c hc⟩
  have hmem := hin.subset hc
  rw [LinuxParser.replaced_eq_map] at hmem
  obtain ⟨d, -, rfl⟩ := List.mem_map.mp hmem
  exact LinuxParser.mark_ne d

lemma Clean.plain {w : Bytes} (h : Clean w) : Plain (LinuxParser.replace w 95 32) := by
  intro c hc
  obtain ⟨d, hd, rfl⟩ := List.mem_map.mp hc
  obtain ⟨h61, hspace⟩ := h d hd
  split
  · decide
  · next h95 => exact ⟨h95, h61, fun hs => by rw [hspace] at hs; cases hs⟩

/-- Whatever is returned, nothing in it is a separator, and only spaces are between words. -/
def Readable (r : Bytes) : Prop := ∀ c ∈ r, c ≠ 61 ∧ (isSpace c = true → c = 32)

lemma Clean.readable {w : Bytes} (h : Clean w) : Readable w := fun c hc =>
  ⟨(h c hc).1, fun hs => by rw [(h c hc).2] at hs; cases hs⟩

lemma Plain.readable {r : Bytes} (h : Plain r) : Readable r := fun c hc => (h c hc).2

/-! ### The loops -/

namespace LinuxParser

lemma osWords_cases (value : Bytes) (ws : List Bytes) :
    (∃ v ∈ ws, valueBehind (bytes "PRETTY_NAME") ws = some v ∧
      osWords value ws = .error (replace v 95 32)) ∨
    (valueBehind (bytes "PRETTY_NAME") ws = none ∧
      ∃ v, (v = value ∨ v ∈ ws) ∧ osWords value ws = .ok v) := by
  fun_induction osWords value ws with
  | case1 value v rest =>
    exact .inl ⟨v, by simp, by simp [valueBehind], rfl⟩
  | case2 value key v rest h ih =>
    have hbehind : valueBehind (bytes "PRETTY_NAME") (key :: v :: rest) =
        valueBehind (bytes "PRETTY_NAME") rest := by simp [valueBehind, h]
    rw [hbehind]
    rcases ih with ⟨w, hw, hfound, hrun⟩ | ⟨hno, w, hw, hrun⟩
    · exact .inl ⟨w, by simp [hw], hfound, hrun⟩
    · refine .inr ⟨hno, w, ?_, hrun⟩
      rcases hw with rfl | hw
      · simp
      · simp [hw]
  | case3 ws value h =>
    refine .inr ⟨?_, value, .inl rfl, rfl⟩
    match ws, h with
    | [], _ => rfl
    | [key], _ => rfl
    | key :: v :: rest, h => exact absurd rfl (h key v rest)

lemma osLines_cases {value : Bytes} (hvalue : Clean value) (lines : List Bytes) :
    (∃ v, Clean v ∧ lines.findSome? namedBy = some v ∧
      osLines lines value = .error (replace v 95 32)) ∨
    (lines.findSome? namedBy = none ∧ ∃ v, Clean v ∧ osLines lines value = .ok v) := by
  induction lines generalizing value with
  | nil => exact .inr ⟨rfl, value, hvalue, rfl⟩
  | cons line lines ih =>
    unfold osLines
    rw [List.foldlM_cons, List.findSome?_cons]
    rcases osWords_cases value (words (replaced line)) with
      ⟨v, hv, hfound, hrun⟩ | ⟨hno, v, hv, hrun⟩
    · rw [hrun, namedBy, hfound]
      exact .inl ⟨v, clean_of_mem hv, rfl, rfl⟩
    · rw [hrun, namedBy, hno]
      refine ih ?_
      rcases hv with rfl | hv
      · exact hvalue
      · exact clean_of_mem hv

end LinuxParser

/-! ### The line of the name -/

lemma isWord_prettyName : IsWord (bytes "PRETTY_NAME") where
  ne_nil := by decide
  noSpace c hc := by
    have hall : (bytes "PRETTY_NAME").all (fun c => !isSpace c) = true := by decide
    simpa using List.all_eq_true.mp hall c hc

lemma words_prettyLine (name : Bytes) :
    words (LinuxParser.replaced (prettyLine name)) =
      bytes "PRETTY_NAME" :: words (LinuxParser.replaced name) := by
  have hkey : LinuxParser.replaced (bytes "PRETTY_NAME=\"") =
      bytes "PRETTY_NAME" ++ 32 :: [32] := by decide
  have hend : LinuxParser.replaced [34] = 32 :: [] := by decide
  have hspace : isSpace 32 = true := rfl
  have hsplit : LinuxParser.replaced (prettyLine name) =
      bytes "PRETTY_NAME" ++ 32 :: ([] ++ 32 :: (LinuxParser.replaced name ++ 32 :: [])) := by
    unfold prettyLine
    rw [LinuxParser.replaced_append, LinuxParser.replaced_append, hkey, hend, List.append_assoc]
    rfl
  calc words (LinuxParser.replaced (prettyLine name))
      = bytes "PRETTY_NAME" :: words ([] ++ 32 :: (LinuxParser.replaced name ++ 32 :: [])) := by
        rw [hsplit, isWord_prettyName.words_append hspace]
    _ = bytes "PRETTY_NAME" :: words (LinuxParser.replaced name ++ 32 :: []) := by
        rw [words_append_cons [] _ hspace]
        rfl
    _ = bytes "PRETTY_NAME" :: words (LinuxParser.replaced name) := by
        rw [words_append_cons _ [] hspace]
        simp [words]

lemma Plain.words_replaced {name : Bytes} (h : Plain name) (hne : name ≠ []) (hquote : 34 ∉ name) :
    words (LinuxParser.replaced name) = [LinuxParser.replaced name] ∧
      LinuxParser.replace (LinuxParser.replaced name) 95 32 = name := by
  have hq : ∀ c ∈ name, c ≠ 34 := fun c hc h34 => hquote (h34 ▸ hc)
  rw [LinuxParser.replaced_eq_map]
  constructor
  · refine IsWord.words ⟨by simpa using hne, fun c hc => ?_⟩
    obtain ⟨d, hd, rfl⟩ := List.mem_map.mp hc
    exact (LinuxParser.isSpace_mark_iff (hq d hd)).mpr (h d hd).2
  · unfold LinuxParser.replace
    rw [List.map_map]
    refine (List.map_congr_left fun c hc => ?_).trans (List.map_id name)
    exact LinuxParser.unmark (hq c hc) (h c hc).1 (h c hc).2.1

lemma not_readable_of_words_eq_nil {name : Bytes} (hne : name ≠ []) (hquote : 34 ∉ name)
    (h : words (LinuxParser.replaced name) = []) : ¬ Readable name := by
  intro hread
  obtain ⟨c, rest, rfl⟩ := List.exists_cons_of_ne_nil hne
  have hspace : isSpace (LinuxParser.mark c) = true := by
    refine words_eq_nil h _ ?_
    rw [LinuxParser.replaced_eq_map]
    simp
  have hc : c ≠ 34 := by
    rintro rfl
    simp at hquote
  rw [(LinuxParser.isSpace_mark_iff hc).mpr (hread c (by simp))] at hspace
  cases hspace

lemma returned_readable {value : Bytes} (hvalue : Clean value) (lines : List Bytes) :
    Readable (LinuxParser.returned (LinuxParser.osLines lines value)) := by
  rcases LinuxParser.osLines_cases hvalue lines with ⟨v, hv, -, hrun⟩ | ⟨-, v, hv, hrun⟩
  · rw [hrun]
    exact hv.plain.readable
  · rw [hrun]
    exact hv.readable

namespace OsRelease

variable (f : OsRelease)

lemma osLines_eq (value : Bytes) : LinuxParser.osLines (getlines f.text) value =
    (LinuxParser.osLines f.before value).bind fun v =>
      (LinuxParser.osWords v (bytes "PRETTY_NAME" :: words (LinuxParser.replaced f.name))).bind
        (LinuxParser.osLines f.after) := by
  rw [f.lines, ← words_prettyLine]
  unfold LinuxParser.osLines
  rw [List.foldlM_append]
  rfl

/-- Where the loop comes to the line of the name, it returns the name if that is plain. -/
lemma returned_here_iff {value : Bytes} (hvalue : Clean value) :
    LinuxParser.returned ((LinuxParser.osWords value
        (bytes "PRETTY_NAME" :: words (LinuxParser.replaced f.name))).bind
      (LinuxParser.osLines f.after)) = f.name ↔ Plain f.name := by
  cases hwords : words (LinuxParser.replaced f.name) with
  | nil =>
    -- the name has no word to be read
    change LinuxParser.returned (LinuxParser.osLines f.after value) = f.name ↔ _
    have hnot := not_readable_of_words_eq_nil f.ne_nil f.noQuote hwords
    constructor
    · intro h
      exact absurd (h ▸ returned_readable hvalue f.after) hnot
    · intro h
      exact absurd h.readable hnot
  | cons w ws =>
    change LinuxParser.replace w 95 32 = f.name ↔ _
    constructor
    · intro h
      have hw : Clean w := clean_of_mem (by rw [hwords]; simp)
      exact h ▸ hw.plain
    · intro h
      obtain ⟨hone, hback⟩ := h.words_replaced f.ne_nil f.noQuote
      obtain ⟨rfl, -⟩ := List.cons.inj (hwords.symm.trans hone)
      exact hback

/-- **The name is read back unchanged** if and only if it is plain, and no earlier line is taken to
say something else. -/
theorem operatingSystem_eq_iff :
    LinuxParser.operatingSystem (some f.text) = f.name ↔
      Plain f.name ∧ ∀ v, f.before.findSome? namedBy = some v →
        LinuxParser.replace v 95 32 = f.name := by
  have hnil : Clean [] := fun c hc => by simp at hc
  rw [LinuxParser.operatingSystem, osLines_eq]
  rcases LinuxParser.osLines_cases hnil f.before with
    ⟨v, hv, hfound, hrun⟩ | ⟨hno, v, hv, hrun⟩
  · -- an earlier line ends the loop
    rw [hrun]
    change LinuxParser.replace v 95 32 = f.name ↔ _
    constructor
    · intro h
      refine ⟨h ▸ hv.plain, fun w hw => ?_⟩
      obtain rfl : v = w := Option.some.inj (hfound.symm.trans hw)
      exact h
    · rintro ⟨-, h⟩
      exact h v hfound
  · have hbefore : ∀ w, f.before.findSome? namedBy = some w →
        LinuxParser.replace w 95 32 = f.name := by
      intro w hw
      rw [hno] at hw
      cases hw
    rw [hrun, and_iff_left hbefore]
    exact f.returned_here_iff hv

end OsRelease

/-- A file of one line. -/
def underscored : OsRelease where
  text := bytes "PRETTY_NAME=\"a_b\"\n"
  before := []
  name := bytes "a_b"
  after := []
  lines := by decide +kernel
  others := by simp
  ne_nil := by decide
  noQuote := by decide

/-- The underscore of its name is read as a space. -/
theorem underscored_changed :
    LinuxParser.operatingSystem (some underscored.text) ≠ underscored.name := by
  decide +kernel

end SelfTraining.Monitor
