import SelfTraining.Chat.EndToEnd

/-!
When everything under way can still arrive.

A read that takes one message takes it whole, and a client reads into a buffer of a fixed size.
So a text that does not go into it stays where it is, with all that comes behind it; and there is
nothing else that holds a message up.
-/

namespace SelfTraining.Chat

open SelfTraining.Text SelfTraining.Steps SelfTraining.Board

/-- The texts on the way to the clients that are online go into their buffers, and so will the
lines on the way that become such texts. -/
structure AllFit (n : Network) : Prop where
  texts : ∀ r, n.clients r = some .online → ∀ x ∈ n.toClient r, x.1.payload.length ≤ bufferSize
  lines : ∀ fd r name lines, n.clients fd = some .online → n.clients r = some .online → r ≠ fd →
    n.server.conList fd = some (name, .online) → LinesAhead n fd lines →
    ∀ l ∈ lines, (chatLine name l).length ≤ bufferSize

section

variable {sql : Sqlite} {n n' : Network} {fd r : Int32} {name l : Bytes} {ls : List Bytes}

lemma LinesAhead.unique {lines lines' : List Bytes} (h : LinesAhead n fd lines)
    (h' : LinesAhead n fd lines') : lines = lines' :=
  Framing.stream_inj (fun l hl => (h.2 l hl).1) (fun l hl => (h'.2 l hl).1) (h.1.symm.trans h'.1)

/-! ### The server reads a line -/

lemma AllFit.receive (h : AllFit n) (r : Int32) (k : ℕ) : AllFit (n.move (.receive r k)) where
  texts g hp x hx := by
    by_cases hg : g = r
    · subst hg
      simp only [Network.move, Network.dropClient, Function.update_self] at hx
      exact h.texts g hp x (List.mem_of_mem_drop hx)
    · rw [(n.move_of_ne (a := .receive r k) hg).2.2.1] at hx
      exact h.texts g hp x hx
  lines := h.lines

end

/-! ### Everything arrives -/

section

variable {sql : Sqlite} {n₀ n n' m : Network} {ds : List Deed} {fd r : Int32} {l : Bytes}

lemma length_le_of_pushed {ds : List Deed} (hrun : Trace (DeliveryStep sql) n ds n')
    {t : Bytes} (ht : recvMessage t ∈ pushed r ds) : t.length ≤ bufferSize := by
  obtain ⟨d, hd, hpushed⟩ := List.mem_filterMap.mp ht
  obtain ⟨ds₁, ds₂, rfl⟩ := List.append_of_mem hd
  obtain ⟨u, v, -, hstep⟩ := hrun.step_at
  obtain rfl := hstep.here
  have hen := hstep.step.1
  rcases d with ⟨u, a⟩
  cases a with
  | receive g k =>
    obtain ⟨-, hpos, hmax, -⟩ := hen
    obtain ⟨-, hfront⟩ : g = r ∧ recvMessage (u.front g k) = recvMessage t := by
      simpa [Deed.pushed] using hpushed
    have hlen := congrArg List.length hfront
    simp only [recvMessage, Network.front, List.length_dropLast, List.length_map,
      List.length_take] at hlen
    omega
  | _ => simp [Deed.pushed] at hpushed

lemma ShownBetween.fits {ds : List Deed} (h : ShownBetween n n' ds r)
    (hrun : Trace (DeliveryStep sql) n ds n') (hnil : n'.toClient r = []) :
    (∀ x ∈ n.toClient r, x.1.payload.length ≤ bufferSize) ∧
      ∀ fd, r ≠ fd → ∀ t ∈ textsBy fd (board n.server (events ds)), t.length ≤ bufferSize := by
  obtain ⟨before, after, hbefore, hafter, hshown⟩ := h
  rw [hafter.eq_nil hnil, List.map_nil, List.append_nil] at hshown
  refine ⟨fun x hx => ?_, fun fd hne t ht => length_le_of_pushed (r := r) hrun ?_⟩
  · rw [hbefore.1] at hx
    obtain ⟨t, ht, hx⟩ := List.mem_flatMap.mp hx
    rw [fst_of_mem_stamped hx]
    refine length_le_of_pushed (r := r) hrun ?_
    rw [hshown]
    exact List.mem_map_of_mem (List.mem_append_left _ ht)
  · obtain ⟨p, hp, rfl⟩ := List.mem_map.mp ht
    obtain ⟨hp, hauthor⟩ := List.mem_filter.mp hp
    have hfd : p.author = fd := by simpa using hauthor
    rw [hshown]
    refine List.mem_map_of_mem (List.mem_append_right _ ?_)
    refine List.mem_map.mpr ⟨p.signed, List.mem_filter.mpr ⟨List.mem_map_of_mem hp, ?_⟩, rfl⟩
    simpa [Post.signed, hfd] using hne.symm

end

end SelfTraining.Chat
