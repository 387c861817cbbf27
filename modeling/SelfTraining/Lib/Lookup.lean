import Mathlib.Data.Option.Basic
import Mathlib.Data.List.Basic
import Mathlib.Data.Int.Notation

/-!
Lookups by number that may find nothing, and loops made of them.

A loop whose turns all finish finishes, and comes to what the turns come to.
-/

namespace SelfTraining.Lookup

variable {α β : Type*}

/-- The element with a number, and nothing when no element has it. -/
def elementAt (v : List α) : ℤ → Option α
  | .ofNat n => v[n]?
  | .negSucc _ => none

lemma elementAt_isSome (v : List α) (i : ℤ) :
    (elementAt v i).isSome ↔ 0 ≤ i ∧ i < (v.length : ℤ) := by
  cases i with
  | ofNat n => simp [elementAt]
  | negSucc n => simp [elementAt]

lemma mem_of_elementAt {v : List α} {i : ℤ} {x : α} (h : elementAt v i = some x) : x ∈ v := by
  cases i with
  | ofNat n => exact List.mem_of_getElem? h
  | negSucc n => cases h

lemma foldlM_eq_some {f : β → α → Option β} {g : β → α → β} {l : List α}
    (h : ∀ b, ∀ a ∈ l, f b a = some (g b a)) (b : β) :
    l.foldlM f b = some (l.foldl g b) := by
  induction l generalizing b with
  | nil => rfl
  | cons a l ih =>
    rw [List.foldlM_cons, h b a (by simp), List.foldl_cons]
    exact ih (fun b a ha => h b a (by simp [ha])) (g b a)

lemma foldlM_bind {γ : Type*} {f : α → Option γ} {g : β → γ → Option β} {l : List α}
    {l' : List γ} (h : l.map f = l'.map some) (b : β) :
    l.foldlM (fun b a => (f a).bind (g b)) b = l'.foldlM g b := by
  induction l generalizing l' b with
  | nil =>
    obtain rfl : l' = [] := by simpa using h.symm
    rfl
  | cons a l ih =>
    cases l' with
    | nil => cases h
    | cons c l' =>
      obtain ⟨ha, hl⟩ := List.cons_eq_cons.mp h
      rw [List.foldlM_cons, ha, List.foldlM_cons]
      exact bind_congr fun b' => ih hl b'

lemma foldlM_read {γ : Type*} {f : α → Option γ} {g : β → γ → β} {l : List α} {l' : List γ}
    (h : l.map f = l'.map some) (b : β) :
    l.foldlM (fun b a => (f a).map (g b)) b = some (l'.foldl g b) := by
  have hmap : ∀ b a, (f a).map (g b) = (f a).bind fun c => some (g b c) :=
    fun b a => Option.map_eq_bind
  simp only [hmap]
  rw [foldlM_bind h]
  exact foldlM_eq_some (fun _ _ _ => rfl) b

lemma foldlM_isSome {f : β → α → Option β} {l : List α}
    (h : ∀ b, ∀ a ∈ l, (f b a).isSome) (b : β) : (l.foldlM f b).isSome := by
  induction l generalizing b with
  | nil => rfl
  | cons a l ih =>
    obtain ⟨b', hb'⟩ := Option.isSome_iff_exists.mp (h b a (by simp))
    rw [List.foldlM_cons, hb']
    exact ih (fun b a ha => h b a (by simp [ha])) b'

lemma mapM_isSome {f : α → Option β} {l : List α} (h : ∀ a ∈ l, (f a).isSome) :
    (l.mapM f).isSome := by
  induction l with
  | nil => rfl
  | cons a l ih =>
    obtain ⟨b, hb⟩ := Option.isSome_iff_exists.mp (h a (by simp))
    obtain ⟨bs, hbs⟩ := Option.isSome_iff_exists.mp (ih fun a ha => h a (by simp [ha]))
    rw [List.mapM_cons, hb, Option.bind_eq_bind, Option.bind_some, hbs]
    rfl

/-- Where what is looked up tells what it has been looked up by, a loop of lookups gives an element
for each key, in their order. -/
lemma mapM_key {f : α → Option β} {key : β → α} {l : List α} {l' : List β}
    (h : l.mapM f = some l') (hkey : ∀ a ∈ l, ∀ b, f a = some b → key b = a) :
    l'.map key = l ∧ ∀ b ∈ l', f (key b) = some b := by
  induction l generalizing l' with
  | nil =>
    obtain rfl : [] = l' := Option.some.inj h
    exact ⟨rfl, by simp⟩
  | cons a l ih =>
    rw [List.mapM_cons] at h
    simp only [Option.bind_eq_bind, Option.bind_eq_some_iff, Option.pure_def] at h
    obtain ⟨b, hb, bs, hbs, heq⟩ := h
    obtain rfl : b :: bs = l' := Option.some.inj heq
    obtain ⟨hkeys, hall⟩ := ih hbs fun a ha => hkey a (by simp [ha])
    have hb_key : key b = a := hkey a (by simp) b hb
    exact ⟨by rw [List.map_cons, hb_key, hkeys],
      List.forall_mem_cons.mpr ⟨hb_key.symm ▸ hb, hall⟩⟩

lemma find?_of_nodup {κ : Type*} [DecidableEq κ] {key : α → κ} {l : List α} {x : α}
    (hl : (l.map key).Nodup) (hx : x ∈ l) : l.find? (fun y => key y = key x) = some x := by
  induction l with
  | nil => simp at hx
  | cons a l ih =>
    rw [List.map_cons, List.nodup_cons] at hl
    by_cases h : key a = key x
    · rcases List.mem_cons.mp hx with rfl | hx
      · simp
      · exact absurd (h ▸ List.mem_map_of_mem hx) hl.1
    · rcases List.mem_cons.mp hx with rfl | hx
      · exact absurd rfl h
      · rw [List.find?_cons_of_neg (by simpa using h)]
        exact ih hl.2 hx

end SelfTraining.Lookup
