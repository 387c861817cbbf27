import SelfTraining.Lib.Framing
import SelfTraining.Chat.Client

/-!
What the client keeps of the lines that it is sent.

`Recv` takes every read for whole lines and pushes it without its last byte. Where a read ends
is up to the network, and up to the size of the buffer.
-/

namespace SelfTraining.Chat

open SelfTraining.Text

/-- What `Client::Recv` pushes for a read: all but the last of its bytes. -/
def recvMessage (data : Bytes) : Bytes := data.dropLast

/-- The bytes of some lines, each a name and a text. -/
def lineStream (lines : List (Bytes × Bytes)) : Bytes := lines.flatMap fun l => chatLine l.1 l.2

/-- The reads of `Client::Recv` that a stream is cut into. -/
structure RecvReads (stream : Bytes) where
  reads : List Bytes
  sizes : ∀ r ∈ reads, 1 ≤ r.length ∧ r.length ≤ bufferSize
  cut : reads.flatten = stream

/-- What is pushed for the reads, joined in the order of arrival. -/
def RecvReads.pushed {stream : Bytes} (r : RecvReads stream) : Bytes :=
  (r.reads.map recvMessage).flatten

/-- Neither CR nor LF. -/
def isText (c : UInt8) : Bool := decide (c ≠ 13 ∧ c ≠ 10)

/-- Of the bytes of the lines none but CR and LF is missing, and the rest is in order. -/
structure Preserved (lines : List (Bytes × Bytes)) (pushed : Bytes) : Prop where
  kept : ((lineStream lines).filter isText).Sublist pushed
  part : pushed.Sublist (lineStream lines)

lemma Preserved.contents {lines : List (Bytes × Bytes)} {pushed : Bytes}
    (h : Preserved lines pushed) (hl : ∀ l ∈ lines, ∀ c ∈ l.1 ++ l.2, isText c = true) :
    (lines.flatMap fun l => l.1 ++ l.2).Sublist pushed := by
  have hall : ∀ c ∈ lines.flatMap fun l => l.1 ++ l.2, isText c = true := by
    intro c hc
    obtain ⟨l, hmem, hc⟩ := List.mem_flatMap.mp hc
    exact hl l hmem c hc
  have hline : ∀ l : Bytes × Bytes, (l.1 ++ l.2).Sublist (chatLine l.1 l.2) := by
    intro l
    unfold chatLine
    exact ((List.sublist_append_left _ _).append (.refl _)).trans (List.sublist_append_left _ _)
  have hstream : (lines.flatMap fun l => l.1 ++ l.2).Sublist (lineStream lines) := by
    clear h hl hall
    unfold lineStream
    induction lines with
    | nil => exact .refl _
    | cons l lines ih => exact (hline l).append ih
  have hfilter := hstream.filter isText
  rw [List.filter_eq_self.mpr hall] at hfilter
  exact hfilter.trans h.kept

/-- Of what was sent, only CR and LF bytes are missing if and only if every read ends in one. -/
lemma kept_iff {lines : List (Bytes × Bytes)} (r : RecvReads (lineStream lines)) :
    ((lineStream lines).filter isText).Sublist r.pushed ↔
      ∀ d ∈ r.reads, ∀ c ∈ d.getLast?, c = 13 ∨ c = 10 := by
  have hkept := @Framing.filter_sublist_dropLast_iff _ isText r.reads
  rw [r.cut] at hkept
  have hends : (∀ d ∈ r.reads, ∀ c ∈ d.getLast?, isText c = false) ↔
      ∀ d ∈ r.reads, ∀ c ∈ d.getLast?, c = 13 ∨ c = 10 := by
    refine forall₂_congr fun d _ => forall₂_congr fun c _ => ?_
    simp only [isText, decide_eq_false_iff_not]
    tauto
  rw [← hends]
  exact hkept

/-- **Received text is preserved** if and only if every read ends in a CR or an LF. -/
theorem received_preserved_iff {lines : List (Bytes × Bytes)} (r : RecvReads (lineStream lines)) :
    Preserved lines r.pushed ↔ ∀ d ∈ r.reads, ∀ c ∈ d.getLast?, c = 13 ∨ c = 10 := by
  constructor
  · intro h
    exact (kept_iff r).mp h.kept
  · intro h
    refine ⟨(kept_iff r).mpr h, ?_⟩
    have hpart := Framing.flatten_dropLast_sublist r.reads
    rwa [r.cut] at hpart

/-! ### Long lines -/

lemma isText_line {name text : Bytes} (hline : ∀ c ∈ name ++ text, isText c = true) :
    ∀ c ∈ name ++ bytes ": " ++ text, isText c = true := by
  intro c hc
  rw [List.append_assoc, List.mem_append, List.mem_append] at hc
  rcases hc with hc | hc | hc
  · exact hline c (List.mem_append_left _ hc)
  · have hcolon : (bytes ": ").all isText = true := rfl
    exact List.all_eq_true.mp hcolon c hc
  · exact hline c (List.mem_append_right _ hc)

/-- The first read of a line that is longer than the buffer, its CR and LF apart, ends before
these. -/
lemma exists_read_in_line {name text : Bytes} (hlen : bufferSize ≤ name.length + 2 + text.length)
    (r : RecvReads (lineStream [(name, text)])) :
    ∃ d ∈ r.reads, ∃ c ∈ d.getLast?, c ∈ name ++ bytes ": " ++ text := by
  obtain ⟨reads, sizes, cut⟩ := r
  have hstream : lineStream [(name, text)] =
      (name ++ bytes ": " ++ text) ++ bytes "\r\n" := by simp [lineStream, chatLine]
  cases reads with
  | nil =>
    rw [hstream] at cut
    simp [bytes] at cut
  | cons d reads =>
    obtain ⟨hpos, hmax⟩ := sizes d (by simp)
    have hlength : d.length ≤ (name ++ bytes ": " ++ text).length := by
      have h2 : (bytes ": ").length = 2 := rfl
      simp only [List.length_append, h2]
      omega
    have hprefix : d <+: name ++ bytes ": " ++ text := by
      have hd : d <+: lineStream [(name, text)] := cut ▸ List.prefix_append d _
      rw [hstream] at hd
      exact (List.isPrefix_append_of_length hlength).mp hd
    have hne : d ≠ [] := List.ne_nil_of_length_pos hpos
    exact ⟨d, by simp, d.getLast hne, List.getLast?_eq_some_getLast hne,
      hprefix.subset (List.getLast_mem hne)⟩

/-- Such a line always loses a byte. -/
theorem long_line_loses {name text : Bytes} (hline : ∀ c ∈ name ++ text, isText c = true)
    (hlen : bufferSize ≤ name.length + 2 + text.length)
    (r : RecvReads (lineStream [(name, text)])) : ¬ Preserved [(name, text)] r.pushed := by
  intro hpreserved
  obtain ⟨d, hd, c, hlast, hc⟩ := exists_read_in_line hlen r
  have hend := (kept_iff r).mp hpreserved.kept d hd c hlast
  have htext := isText_line hline c hc
  simp only [isText, decide_eq_true_eq] at htext
  exact hend.elim htext.1 htext.2

/-- A name of two bytes and the longest line that can be typed. -/
theorem longest_line_loses : ¬ ∀ (lines : List (Bytes × Bytes))
    (r : RecvReads (lineStream lines)), Preserved lines r.pushed := by
  intro h
  let line := lineStream [(bytes "al", List.replicate maxLine 97)]
  have hlen : line.length = 261 := by decide +kernel
  refine @long_line_loses (bytes "al") (List.replicate maxLine 97)
    (by decide +kernel) (by decide +kernel)
    ⟨[line.take bufferSize, line.drop bufferSize], ?_, ?_⟩ (h _ _)
  · simp [bufferSize, hlen]
  · simp [line]

end SelfTraining.Chat
