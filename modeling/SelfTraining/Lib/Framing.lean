import Mathlib.Data.List.TakeWhile
import Mathlib.Data.List.Forall2
import Mathlib.Algebra.Order.BigOperators.Group.List
import Mathlib.Algebra.Order.Ring.Nat

/-!
Messages that are ended by a terminator and sent over a stream.

The stream is cut into chunks in any way. A reader takes each chunk for one message, the part
before the first terminator. `map_upTo_eq_iff` says when it reads the messages that were sent.
-/

namespace SelfTraining.Framing

variable {α : Type*} [DecidableEq α] {z : α}

/-- The part before the first terminator. -/
def upTo (z : α) (b : List α) : List α := b.takeWhile (· ≠ z)

/-- The stream of the messages `l`. -/
def stream (z : α) (l : List (List α)) : List α := l.flatMap fun m => m ++ [z]

/-- The chunk holds the message, and after it nothing but terminators. -/
def Whole (z : α) (chunk message : List α) : Prop := ∃ k, chunk = message ++ List.replicate k z

lemma upTo_of_notMem {b : List α} (h : z ∉ b) : upTo z b = b := by
  apply List.takeWhile_eq_self_iff.mpr
  intro x hx
  have : x ≠ z := fun h0 => h (h0 ▸ hx)
  simpa using this

lemma upTo_append_of_mem {b : List α} (h : z ∈ b) (rest : List α) :
    upTo z (b ++ rest) = upTo z b := by
  induction b with
  | nil => simp at h
  | cons a b ih =>
    by_cases ha : a = z
    · simp [upTo, ha]
    · have hb : z ∈ b := (List.mem_cons.mp h).resolve_left fun h0 => ha h0.symm
      have := ih hb
      simp_all [upTo]

lemma upTo_append_cons {b : List α} (h : z ∉ b) (rest : List α) :
    upTo z (b ++ z :: rest) = b := by
  unfold upTo
  rw [List.takeWhile_append_of_pos (fun x hx => by
    have : x ≠ z := fun h0 => h (h0 ▸ hx)
    simpa using this)]
  simp

lemma append_cons_inj {a b rest rest' : List α} (ha : z ∉ a) (hb : z ∉ b)
    (h : a ++ z :: rest = b ++ z :: rest') : a = b ∧ rest = rest' := by
  have hfirst : a = b := by
    rw [← upTo_append_cons ha rest, h, upTo_append_cons hb]
  subst hfirst
  exact ⟨rfl, List.tail_eq_of_cons_eq (List.append_cancel_left h)⟩

lemma Whole.upTo {chunk message : List α} (h : Whole z chunk message) (hm : z ∉ message) :
    upTo z chunk = message := by
  obtain ⟨k, rfl⟩ := h
  cases k with
  | zero => simpa using upTo_of_notMem hm
  | succ k => exact upTo_append_cons hm _

/-! ### Nothing is dropped -/

/-- The number of elements that are not the terminator. -/
def weight (z : α) (b : List α) : ℕ := b.countP (· ≠ z)

lemma weight_append (a b : List α) : weight z (a ++ b) = weight z a + weight z b :=
  List.countP_append

lemma weight_of_notMem {b : List α} (h : z ∉ b) : weight z b = b.length := by
  apply List.countP_eq_length.mpr
  intro x hx
  have : x ≠ z := fun h0 => h (h0 ▸ hx)
  simpa using this

lemma notMem_upTo (b : List α) : z ∉ upTo z b := fun h => by
  simpa using List.mem_takeWhile_imp h

lemma weight_eq (b : List α) :
    weight z b = (upTo z b).length + weight z (b.dropWhile (· ≠ z)) := by
  conv_lhs => rw [← List.takeWhile_append_dropWhile (p := fun x => decide (x ≠ z)) (l := b)]
  rw [weight_append]
  exact congrArg (· + _) (weight_of_notMem (notMem_upTo b))

lemma whole_of_weight {b : List α} (h : weight z b = (upTo z b).length) :
    Whole z b (upTo z b) := by
  have hrest : weight z (b.dropWhile (· ≠ z)) = 0 := by
    have := weight_eq (z := z) b
    omega
  refine ⟨(b.dropWhile (· ≠ z)).length, ?_⟩
  have hall : b.dropWhile (· ≠ z) = List.replicate (b.dropWhile (· ≠ z)).length z := by
    apply List.eq_replicate_iff.mpr
    refine ⟨rfl, fun x hx => ?_⟩
    have := List.countP_eq_zero.mp hrest x hx
    simpa using this
  rw [← hall]
  exact List.takeWhile_append_dropWhile.symm

lemma weight_flatten (l : List (List α)) : weight z l.flatten = (l.map (weight z)).sum := by
  induction l with
  | nil => rfl
  | cons b l ih => rw [List.flatten_cons, weight_append, ih, List.map_cons, List.sum_cons]

lemma weight_stream {l : List (List α)} (h : ∀ m ∈ l, z ∉ m) :
    weight z (stream z l) = (l.map List.length).sum := by
  unfold stream
  rw [List.flatMap_def, weight_flatten, List.map_map]
  refine congrArg List.sum (List.map_congr_left fun m hm => ?_)
  rw [Function.comp_apply, weight_append, weight_of_notMem (h m hm)]
  simp [weight]

/-- Two sums of the same length that agree, with one bounded by the other term by term, agree
term by term. -/
lemma eq_of_sum_eq {β : Type*} {f g : β → ℕ} {l : List β} (hle : ∀ x ∈ l, f x ≤ g x)
    (h : (l.map f).sum = (l.map g).sum) : ∀ x ∈ l, f x = g x := by
  induction l with
  | nil => simp
  | cons a l ih =>
    simp only [List.map_cons, List.sum_cons] at h
    have ha := hle a (by simp)
    have hl : (l.map f).sum ≤ (l.map g).sum :=
      List.sum_le_sum fun x hx => hle x (by simp [hx])
    intro x hx
    rcases List.mem_cons.mp hx with rfl | hx
    · omega
    · exact ih (fun y hy => hle y (by simp [hy])) (by omega) x hx

/-- **One message a chunk.** Reading each chunk up to its first terminator gives the messages
that were sent if and only if each chunk is one of them, in order, with nothing after it but
terminators. -/
theorem map_upTo_eq_iff {messages chunks : List (List α)} (hm : ∀ m ∈ messages, z ∉ m)
    (h : chunks.flatten = stream z messages) :
    chunks.map (upTo z) = messages ↔ List.Forall₂ (Whole z) chunks messages := by
  constructor
  · rintro rfl
    have hsum : (chunks.map fun c => (upTo z c).length).sum = (chunks.map (weight z)).sum := by
      rw [← weight_flatten, h, weight_stream hm, List.map_map]
      rfl
    have heq := eq_of_sum_eq (fun c _ => by have := weight_eq (z := z) c; omega) hsum
    rw [List.forall₂_map_right_iff, List.forall₂_same]
    exact fun c hc => whole_of_weight (heq c hc).symm
  · intro hf
    clear h
    induction hf with
    | nil => rfl
    | cons hw _ ih =>
      rw [List.map_cons, hw.upTo (hm _ (by simp)), ih fun m h => hm m (by simp [h])]

omit [DecidableEq α] in
lemma length_le_of_notMem {n : ℕ} {messages : List (List α)}
    (hm : ∀ m ∈ messages, z ∉ m ∧ m.length ≤ n) {pre c post : List α}
    (h : stream z messages = pre ++ c ++ post) (hc : z ∉ c) : c.length ≤ n := by
  induction messages generalizing pre with
  | nil =>
    have : c = [] := by simp_all [stream]
    simp [this]
  | cons m messages ih =>
    have hstream : stream z (m :: messages) = m ++ z :: stream z messages := by simp [stream]
    rw [hstream, List.append_assoc] at h
    rcases List.append_eq_append_iff.mp h with ⟨a, -, ha⟩ | ⟨a, hma, ha⟩
    · -- the stretch starts after the message
      rcases a with _ | ⟨x, a⟩
      · rcases c with _ | ⟨x, c⟩
        · simp
        · obtain ⟨rfl, -⟩ : z = x ∧ _ := by simpa using ha
          simp at hc
      · obtain ⟨-, ha⟩ : z = x ∧ stream z messages = a ++ (c ++ post) := by simpa using ha
        exact ih (fun m h => hm m (by simp [h])) (by rw [ha, List.append_assoc])
    · -- the stretch starts inside the message, so it stays there
      have hma' : a.length ≤ n := by
        have := (hm m (by simp)).2
        rw [hma, List.length_append] at this
        omega
      rcases List.append_eq_append_iff.mp ha with ⟨b, hb, -⟩ | ⟨b, hb, hb'⟩
      · rw [hb, List.length_append] at hma'
        omega
      · rcases b with _ | ⟨x, b⟩
        · simpa [hb] using hma'
        · obtain ⟨rfl, -⟩ : z = x ∧ _ := by simpa using hb'
          simp [hb] at hc

/-! ### One message at a time -/

lemma stream_take {messages : List (List α)} (hm : ∀ m ∈ messages, z ∉ m) {c : List α}
    (hc : z ∉ c) {k : ℕ} (h : (stream z messages).take k = c ++ [z]) :
    ∃ rest, messages = c :: rest ∧ (stream z messages).drop k = stream z rest := by
  have hsplit : stream z messages = c ++ z :: (stream z messages).drop k := by
    conv_lhs => rw [← List.take_append_drop k (stream z messages), h]
    rw [List.append_assoc, List.singleton_append]
  cases messages with
  | nil => simp [stream] at hsplit
  | cons m messages =>
    have hstream : stream z (m :: messages) = m ++ z :: stream z messages := by simp [stream]
    rw [hstream] at hsplit
    obtain ⟨rfl, hrest⟩ := append_cons_inj (hm m (by simp)) hc hsplit
    exact ⟨messages, rfl, by rw [hstream, ← hrest]⟩

lemma stream_inj {l l' : List (List α)} (hl : ∀ m ∈ l, z ∉ m) (hl' : ∀ m ∈ l', z ∉ m)
    (h : stream z l = stream z l') : l = l' := by
  have hcons : ∀ (m : List α) l, stream z (m :: l) = m ++ z :: stream z l := by simp [stream]
  induction l generalizing l' with
  | nil =>
    cases l' with
    | nil => rfl
    | cons m' l' =>
      rw [hcons] at h
      simp [stream] at h
  | cons m l ih =>
    cases l' with
    | nil =>
      rw [hcons] at h
      simp [stream] at h
    | cons m' l' =>
      rw [hcons, hcons] at h
      obtain ⟨rfl, hrest⟩ := append_cons_inj (hl m (by simp)) (hl' m' (by simp)) h
      rw [ih (fun x hx => hl x (by simp [hx])) (fun x hx => hl' x (by simp [hx])) hrest]

omit [DecidableEq α] in
/-- Pieces whose elements say which piece they belong to: one that is taken is the first. -/
lemma flatMap_take {β : Type*} {f : β → List α} {tag : α → β} (htag : ∀ b, ∀ x ∈ f b, tag x = b)
    {l : List β} (hl : ∀ b ∈ l, f b ≠ []) {b : β} (hb : f b ≠ []) {k : ℕ}
    (h : (l.flatMap f).take k = f b) :
    ∃ rest, l = b :: rest ∧ (l.flatMap f).drop k = rest.flatMap f := by
  cases l with
  | nil => exact absurd (by simpa using h.symm) hb
  | cons b' l =>
    rw [List.flatMap_cons] at h ⊢
    obtain ⟨x, t, hx⟩ := List.exists_cons_of_ne_nil (hl b' (by simp))
    have hk : k ≠ 0 := by
      rintro rfl
      exact hb (by simpa using h.symm)
    obtain ⟨k, rfl⟩ := Nat.exists_eq_succ_of_ne_zero hk
    have hfirst : x ∈ f b := by simp [← h, hx]
    obtain rfl : b' = b := (htag b' x (by simp [hx])).symm.trans (htag b x hfirst)
    refine ⟨l, rfl, ?_⟩
    have hlen := congrArg List.length h
    rw [List.length_take, List.length_append] at hlen
    rcases Nat.lt_or_ge (k + 1) ((f b').length + (l.flatMap f).length) with hlt | hge
    · exact List.drop_left' (by omega)
    · -- the read takes all there is, which is this piece
      have hnil : l.flatMap f = [] := List.eq_nil_of_length_eq_zero (by omega)
      rw [hnil, List.append_nil]
      exact List.drop_of_length_le (by omega)

/-! ### Chunks that lose their last element -/

section LastLost

omit [DecidableEq α]

variable {p : α → Bool}

lemma countP_dropLast_le (c : List α) : c.dropLast.countP p ≤ c.countP p :=
  (List.dropLast_sublist c).countP_le

lemma countP_dropLast_eq_iff (c : List α) :
    c.dropLast.countP p = c.countP p ↔ ∀ x ∈ c.getLast?, p x = false := by
  rcases List.eq_nil_or_concat c with rfl | ⟨c, x, rfl⟩
  · simp
  · rw [List.concat_eq_append, List.dropLast_concat, List.countP_append, List.getLast?_concat]
    simp [List.countP_singleton]

lemma flatten_dropLast_sublist (chunks : List (List α)) :
    (chunks.map List.dropLast).flatten.Sublist chunks.flatten := by
  induction chunks with
  | nil => exact .refl _
  | cons c chunks ih => exact (List.dropLast_sublist c).append ih

/-- **What the last elements take away.** Everything of which `p` holds is left, in order, if and
only if `p` holds of no chunk's last element. -/
theorem filter_sublist_dropLast_iff {chunks : List (List α)} :
    (chunks.flatten.filter p).Sublist (chunks.map List.dropLast).flatten ↔
      ∀ c ∈ chunks, ∀ x ∈ c.getLast?, p x = false := by
  constructor
  · intro h
    have hle : (chunks.map (List.countP p)).sum ≤
        (chunks.map fun c => c.dropLast.countP p).sum := by
      have hcount := (h.filter p).length_le
      rw [List.filter_filter, ← List.countP_eq_length_filter, ← List.countP_eq_length_filter,
        List.countP_flatten, List.countP_flatten, List.map_map] at hcount
      simpa [Function.comp_def] using hcount
    have heq : (chunks.map fun c => c.dropLast.countP p).sum =
        (chunks.map (List.countP p)).sum :=
      (List.sum_le_sum fun c _ => countP_dropLast_le c).antisymm hle
    intro c hc
    exact (countP_dropLast_eq_iff c).mp
      (eq_of_sum_eq (fun c _ => countP_dropLast_le c) heq c hc)
  · intro h
    have hfilter : chunks.flatten.filter p = (chunks.map List.dropLast).flatten.filter p := by
      rw [List.filter_flatten, List.filter_flatten, List.map_map]
      refine congrArg List.flatten (List.map_congr_left fun c hc => ?_)
      have hcount := (countP_dropLast_eq_iff c).mpr (h c hc)
      rw [List.countP_eq_length_filter, List.countP_eq_length_filter] at hcount
      exact (((List.dropLast_sublist c).filter p).eq_of_length hcount).symm
    rw [hfilter]
    exact List.filter_sublist

end LastLost

end SelfTraining.Framing
