import SelfTraining.Lib.Board
import SelfTraining.Chat.Relay
import SelfTraining.Chat.Presence

/-!
The broadcasts of the server as a bulletin board.

`NotifyToOnelineUser` reads the table once for each broadcast and sends to one row after the
other. Since the table and `con_list` agree in every state of a run, this comes to a board on
which each broadcast is put up once, for those who have logged in at that moment.
-/

namespace SelfTraining.Chat

open SelfTraining.Text SelfTraining.Steps SelfTraining.Board

/-- A text that is sent to a connection, with the connection that it comes from. -/
def Sent.textTo (r : Int32) (e : Sent) : Option (Int32 × Bytes) :=
  match e.message with
  | .text msg => if e.dest = r then some (e.source, msg) else none
  | _ => none

/-- The texts that are sent to a connection, in order. -/
def textsTo (r : Int32) (l : List Sent) : List (Int32 × Bytes) := l.filterMap (Sent.textTo r)

/-- What an event puts up: its broadcast, for the connections that have logged in. -/
def post (s : Server) : Event → Option (Post Int32 Bytes)
  | .incoming _ => none
  | .readable fd data loc =>
    (broadcast s (.readable fd data loc)).map fun b => ⟨fd, b.text, fun r => (s.live r).isSome⟩

/-- The board that the events of a run fill. -/
def board (s : Server) : List Event → List (Post Int32 Bytes)
  | [] => []
  | e :: es => (post s e).toList ++ board (s.next e) es

/-- The connection has logged in and does not leave while the events are handled. -/
def Stays (r : Int32) (s : Server) (es : List Event) : Prop :=
  ∀ es₁ ∈ es.inits, ((es₁.foldl Server.next s).live r).isSome

instance (r : Int32) (s : Server) (es : List Event) : Decidable (Stays r s es) :=
  inferInstanceAs (Decidable (∀ _ ∈ _, _))

/-! ### One event -/

section

variable {s : Server} {fd r : Int32}

lemma textsTo_of_source {l : List Sent} (h : ∀ e ∈ l, e.source = fd) :
    textsTo r l = (relayed fd r l).map fun m => (fd, m) := by
  induction l with
  | nil => rfl
  | cons e l ih =>
    have he := h e (by simp)
    have hrest := ih fun x hx => h x (by simp [hx])
    unfold textsTo relayed at hrest ⊢
    rcases e with ⟨source, dest, message⟩
    obtain rfl : source = fd := he
    rw [List.filterMap_cons, List.filterMap_cons]
    cases message with
    | text m => by_cases hd : dest = r <;> simp [Sent.textTo, Sent.relay, hd, hrest]
    | requestResponse res => exact hrest
    | optionResponse res => exact hrest

lemma source_of_notices {msg : Bytes} {e : Sent} (h : e ∈ s.notices fd msg) : e.source = fd := by
  obtain ⟨row, -, rfl⟩ := List.mem_map.mp h
  rfl

lemma relayed_notices_self (msg : Bytes) : relayed fd fd (s.notices fd msg) = [] := by
  refine List.filterMap_eq_nil_iff.mpr fun e he => ?_
  obtain ⟨row, hrow, rfl⟩ := List.mem_map.mp he
  have hne : row.sockfd ≠ fd := by simpa using (List.mem_filter.mp hrow).2
  simp [Sent.relay, hne]

lemma Consistent.textsTo_notices (h : Consistent s) (fd r : Int32) (msg : Bytes) :
    textsTo r (s.notices fd msg) =
      (Post.bring r ⟨fd, msg, fun r => (s.live r).isSome⟩).toList := by
  rw [textsTo_of_source fun e he => source_of_notices he]
  by_cases hne : fd = r
  · subst hne
    rw [relayed_notices_self]
    simp [Post.bring]
  · cases hr : s.live r with
    | some m =>
      rw [h.relayed_notices (Ne.symm hne) hr]
      simp [Post.bring, Post.signed, hr, hne]
    | none =>
      have hnone : ∀ row ∈ s.usrs, ¬ (row.status = 1 ∧ row.sockfd = r) := by
        rintro row hrow ⟨h1, hsock⟩
        have hl := (h.agree row.username r).mp ⟨row, hrow, rfl, h1, hsock⟩
        rw [hr] at hl
        cases hl
      rw [relayed_notices_eq (Ne.symm hne), List.filter_eq_nil_iff.mpr fun row hrow => by
        simpa using hnone row hrow]
      simp [Post.bring, hr]

/-- When the sender leaves, the row is put offline before the others are told; they get the
same. -/
lemma Consistent.textsTo_notices_offline (h : Consistent s) {name : Bytes}
    (hl : s.live fd = some name) (r : Int32) (msg : Bytes) :
    textsTo r ((s.offline name).notices fd msg) = textsTo r (s.notices fd msg) := by
  rw [textsTo_of_source fun e he => source_of_notices he,
    textsTo_of_source fun e he => source_of_notices he]
  by_cases hne : r = fd
  · subst hne
    rw [relayed_notices_self, relayed_notices_self]
  · rw [relayed_notices_eq hne, relayed_notices_eq hne]
    have hrow : ∀ row ∈ s.usrs, row.username = name →
        ¬ (row.status = 1 ∧ row.sockfd = r) := by
      rintro row hrow hn ⟨h1, hsock⟩
      have hr := (h.agree name r).mp ⟨row, hrow, hn, h1, hsock⟩
      exact hne (h.one_connection hr hl)
    have hsame : s.usrs.filter ((fun row => decide (row.status = 1 ∧ row.sockfd = r)) ∘
          fun row => if row.username = name then { row with status := 0, sockfd := -1 } else row) =
        s.usrs.filter fun row => row.status = 1 ∧ row.sockfd = r := by
      refine List.filter_congr fun row hmem => ?_
      by_cases hn : row.username = name
      · have hno := hrow row hmem hn
        simp [hn, hno]
      · simp [hn]
    unfold Server.offline Server.setUsrs Stmt.run
    rw [List.filter_map, hsame]
    simp only [List.map_map, Function.comp_def]

/-- **One event** sends what it puts up, to those it is put up for. -/
lemma Consistent.posts (h : Consistent s) (e : Event) :
    ∃ l, (s.next e).sent = s.sent ++ l ∧ ∀ r, textsTo r l = inbox r (post s e).toList := by
  cases e with
  | incoming accepted =>
    refine ⟨[], ?_, fun r => rfl⟩
    simp [Server.next, Server.add, Server.touch, Server.setEntry]
  | readable fd data loc =>
    rcases hentry : s.entry fd with ⟨name, st⟩
    have hst : (s.entry fd).2 = st := by rw [hentry]
    have hname : (s.entry fd).1 = name := by rw [hentry]
    have hbring : ∀ r msg, post s (.readable fd data loc) =
        some ⟨fd, msg, fun r => (s.live r).isSome⟩ →
        textsTo r (s.notices fd msg) = inbox r (post s (.readable fd data loc)).toList := by
      intro r msg hp
      rw [hp, h.textsTo_notices]
      cases hb : Post.bring r (⟨fd, msg, fun r => (s.live r).isSome⟩ : Post Int32 Bytes) <;>
        simp [inbox, hb]
    have ht := next_turn s fd data loc
    generalize s.next (.readable fd data loc) = s' at ht
    cases ht with
    | dropped hst' hd =>
      refine ⟨[], by simp [Server.del], fun r => ?_⟩
      simp [post, broadcast, hentry, hst.symm.trans hst', inbox, textsTo]
    | answered hst' hd =>
      refine ⟨_, rfl, fun r => ?_⟩
      simp [post, broadcast, hentry, hst.symm.trans hst', inbox, textsTo, Sent.textTo]
    | exited hst' hleave =>
      refine ⟨_, rfl, fun r => hbring r _ ?_⟩
      simp [post, broadcast, hentry, hst.symm.trans hst', hleave, Broadcast.text]
    | chose hst' hleave =>
      refine ⟨_, rfl, fun r => ?_⟩
      have hpost := hbring r (isOnline name) (by
        simp [post, broadcast, hentry, hst.symm.trans hst', hleave, Broadcast.text])
      rw [hname, ← hpost]
      rfl
    | left hst' hd =>
      refine ⟨_, rfl, fun r => ?_⟩
      have hlive : s.live fd = some (s.entry fd).1 := live_of_entry (by rw [hst']; decide)
      rw [h.textsTo_notices_offline hlive]
      apply hbring
      simp [post, broadcast, hentry, hst.symm.trans hst', hd, Broadcast.text]
    | relayed hst' hd =>
      refine ⟨_, rfl, fun r => hbring r _ ?_⟩
      simp [post, broadcast, hentry, hst.symm.trans hst', hd, Broadcast.text]

end

/-! ### Runs -/

section

variable {sql : Sqlite} {s s' : Server} {es : List Event} {r : Int32}

lemma Stays.present (h : Stays r s es) : ∀ p ∈ board s es, p.present r := by
  induction es generalizing s with
  | nil => simp [board]
  | cons e es ih =>
    intro p hp
    rcases List.mem_append.mp hp with hp | hp
    · have hs : (s.live r).isSome := h [] (by simp)
      cases e with
      | incoming accepted => simp [post] at hp
      | readable fd data loc =>
        obtain ⟨b, -, rfl⟩ := Option.map_eq_some_iff.mp (Option.mem_toList.mp hp)
        exact hs
    · refine ih (fun es₁ hes => h (e :: es₁) ?_) p hp
      simpa using hes

end

end SelfTraining.Chat
