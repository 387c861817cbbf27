import SelfTraining.Chat.Session
import SelfTraining.Chat.Client

/-!
The relay of chat lines from one user to another.

The server takes each read from a connection that is online for one message. Over any run, the
texts it relays are the parts of the reads before their first zero byte; whether these are the
lines that were typed depends on how the stream was cut.
-/

namespace SelfTraining.Chat

open SelfTraining.Text SelfTraining.Steps SelfTraining.Framing

/-- What an event delivers from a connection. -/
def Event.dataOf (fd : Int32) : Event → Option Bytes
  | .readable g data _ => if g = fd then some data else none
  | .incoming _ => none

/-- The results of the reads from a connection, in order. -/
def readsOf (fd : Int32) (es : List Event) : List Bytes := es.filterMap (Event.dataOf fd)

/-- A text that is sent from one connection to another. -/
def Sent.relay (fd r : Int32) (e : Sent) : Option Bytes :=
  match e.message with
  | .text msg => if e.source = fd ∧ e.dest = r then some msg else none
  | _ => none

/-- The texts that are relayed from one connection to another, in order. -/
def relayed (fd r : Int32) (l : List Sent) : List Bytes := l.filterMap (Sent.relay fd r)

lemma relayed_append (fd r : Int32) (l l' : List Sent) :
    relayed fd r (l ++ l') = relayed fd r l ++ relayed fd r l' := List.filterMap_append

lemma relayed_of_source_ne {fd r : Int32} {l : List Sent} (h : ∀ e ∈ l, e.source ≠ fd) :
    relayed fd r l = [] := by
  refine List.filterMap_eq_nil_iff.mpr fun e he => ?_
  unfold Sent.relay
  split <;> simp [h e he]

/-- A read that leaves room in the buffer, or that holds a zero byte, is taken up to its first
zero byte. -/
lemma textOf_eq {data : Bytes} (hlen : data.length ≤ recvSize)
    (h : data.length < recvSize ∨ 0 ∈ data) (loc : Locals) : textOf data loc = cstr data := by
  unfold textOf filled cstr
  rw [List.take_of_length_le hlen, List.append_assoc]
  by_cases hz : 0 ∈ data
  · exact upTo_append_of_mem hz _
  · have hroom : data.length < recvSize := h.resolve_right hz
    obtain ⟨k, hk⟩ : ∃ k, recvSize - data.length = k + 1 := ⟨recvSize - data.length - 1, by omega⟩
    rw [List.drop_replicate, hk, List.replicate_succ, List.cons_append, upTo_append_cons hz,
      upTo_of_notMem hz]

section

variable {s : Server} {fd r : Int32}

lemma relayed_notices_eq (hne : r ≠ fd) (msg : Bytes) : relayed fd r (s.notices fd msg) =
    (s.usrs.filter fun row => row.status = 1 ∧ row.sockfd = r).map fun _ => msg := by
  unfold relayed Server.notices Stmt.rows
  induction s.usrs with
  | nil => rfl
  | cons row t ih =>
    by_cases h1 : row.status = 1
    · by_cases hr : row.sockfd = r
      · have hfd : row.sockfd ≠ fd := hr ▸ hne
        simp_all [Sent.relay]
      · by_cases hfd : row.sockfd = fd <;> simp_all [Sent.relay]
    · simp_all

lemma Consistent.relayed_notices (h : Consistent s) (hne : r ≠ fd) {m : Bytes}
    (hr : s.live r = some m) (msg : Bytes) : relayed fd r (s.notices fd msg) = [msg] := by
  obtain ⟨row, hrow, hm, h1, hsock⟩ := (h.agree m r).mpr hr
  have honly : ∀ r' ∈ s.usrs, (r'.status = 1 ∧ r'.sockfd = r) ↔ r' = row := by
    intro r' hr'
    constructor
    · rintro ⟨h1', hs'⟩
      have hl := (h.agree r'.username r).mp ⟨r', hr', rfl, h1', hs'⟩
      rw [hr, Option.some.injEq] at hl
      exact eq_of_username h.unique hr' hrow (hl.symm.trans hm.symm)
    · rintro rfl
      exact ⟨h1, hsock⟩
  have hfilter : (s.usrs.filter fun r' => r'.status = 1 ∧ r'.sockfd = r) = [row] := by
    rw [List.filter_congr (q := fun r' => r' == row) fun r' hr' => by
      rw [Bool.eq_iff_iff]
      simpa using honly r' hr']
    rw [List.filter_beq, List.count_eq_one_of_mem (List.Nodup.of_map _ h.unique) hrow]
    rfl
  rw [relayed_notices_eq hne, hfilter]
  rfl

end

/-! ### Runs -/

/-- Both connections are online, and what they stand for is consistent. -/
structure Chatting (fd r : Int32) (name : Bytes) (s : Server) : Prop extends Consistent s where
  typist : s.conList fd = some (name, .online)
  reader : ∃ m, s.conList r = some (m, .online)

section

variable {s s' : Server} {fd r : Int32} {name : Bytes}

lemma entry_of_conList {e : Bytes × State} (h : s.conList fd = some e) : s.entry fd = e := by
  simp [Server.entry, h]

lemma conList_add_of_some {g : Int32} {e : Bytes × State} (h : s.conList fd = some e) :
    (s.add g).conList fd = some e := by
  by_cases hg : fd = g
  · subst hg
    simp [Server.add, Server.touch, Server.setEntry, Server.entry, h]
  · simpa [Server.add, Server.touch, Server.setEntry, hg] using h

lemma Turn.conList_of_online {data : Bytes} {loc : Locals} (h : Turn s fd data loc s')
    (hst : s.conList fd = some (name, .online)) (hd : data ≠ []) :
    s' = s.record (s.notices fd (chatLine name (textOf data loc))) := by
  have he := entry_of_conList hst
  cases h <;> simp_all

lemma Chatting.next (h : Chatting fd r name s) (hne : r ≠ fd) {e : Event} (he : Allowed s e)
    (hreg : Registered s e) (hfd : ∀ d, e.dataOf fd = some d → d ≠ [] ∧
      ∀ loc, textOf d loc = cstr d) (hr : ∀ d, e.dataOf r = some d → d ≠ []) :
    Chatting fd r name (s.next e) ∧ ∃ l, (s.next e).sent = s.sent ++ l ∧
      relayed fd r l = (e.dataOf fd).toList.map fun d => chatLine name (cstr d) := by
  obtain ⟨m, hm⟩ := h.reader
  have hc := h.toConsistent.next he hreg
  cases e with
  | incoming accepted =>
    exact ⟨{ hc with
      typist := conList_add_of_some h.typist
      reader := ⟨m, conList_add_of_some hm⟩ }, [], by simp [Server.next, Server.add, Server.touch,
        Server.setEntry], rfl⟩
  | readable g data loc =>
    have ht := next_turn s g data loc
    by_cases hg : g = fd
    · -- the typist: the data is relayed
      subst hg
      obtain ⟨hd, htext⟩ := hfd data (by simp [Event.dataOf])
      have hnext := ht.conList_of_online h.typist hd
      refine ⟨{ hc with typist := ?_, reader := ⟨m, ?_⟩ }, _, congrArg Server.sent hnext, ?_⟩
      · rw [hnext]; exact h.typist
      · rw [hnext]; exact hm
      · rw [h.relayed_notices hne (live_eq_some.mpr ⟨_, .inr rfl, hm⟩), htext]
        simp [Event.dataOf]
    · obtain ⟨l, hl, hsource⟩ := ht.sent
      have hkeep : (s.next (.readable g data loc)).conList r = some (m, .online) := by
        by_cases hgr : g = r
        · subst hgr
          rw [ht.conList_of_online hm (hr data (by simp [Event.dataOf]))]
          exact hm
        · rw [ht.conList_of_ne (Ne.symm hgr)]
          exact hm
      refine ⟨{ hc with typist := ?_, reader := ⟨m, hkeep⟩ }, l, hl, ?_⟩
      · rw [ht.conList_of_ne (Ne.symm hg)]
        exact h.typist
      · rw [relayed_of_source_ne fun e he => by rw [hsource e he]; exact hg]
        simp [Event.dataOf, hg]

lemma Chatting.run {sql : Sqlite} (hw : sql.Works) (h : Chatting fd r name s) (hne : r ≠ fd)
    {es : List Event} (hrun : Trace (SessionEvent sql) s es s')
    (hfd : ∀ d ∈ readsOf fd es, d ≠ [] ∧ ∀ loc, textOf d loc = cstr d)
    (hr : ∀ d ∈ readsOf r es, d ≠ []) :
    Chatting fd r name s' ∧ ∃ l, s'.sent = s.sent ++ l ∧
      relayed fd r l = (readsOf fd es).map fun d => chatLine name (cstr d) := by
  induction hrun with
  | nil => exact ⟨h, [], by simp, rfl⟩
  | @snoc es e u v _ hstep ih =>
    have hsplit : ∀ g, readsOf g (es ++ [e]) = readsOf g es ++ (e.dataOf g).toList := by
      intro g
      cases hg : e.dataOf g <;> simp [readsOf, hg]
    rw [hsplit] at hfd hr
    obtain ⟨hu, l, hl, hrel⟩ :=
      ih (fun d hd => hfd d (by simp [hd])) fun d hd => hr d (by simp [hd])
    obtain rfl := hstep.eq_next hw hu.toKeys
    obtain ⟨hv, l', hl', hrel'⟩ := hu.next hne hstep.1 hstep.2.1
      (fun d hd => hfd d (by simp [hd])) fun d hd => hr d (by simp [hd])
    refine ⟨hv, l ++ l', by rw [hl', hl, List.append_assoc], ?_⟩
    rw [relayed_append, hrel, hrel', hsplit, List.map_append]

end

lemma chatLine_injective (name : Bytes) : Function.Injective (chatLine name) := by
  intro a b h
  unfold chatLine at h
  simpa using h

/-- Two users are online, and a run goes on in which both stay so. The first types `lines`;
`chunks` are the results of the server's reads from that connection, some way to cut the
stream. -/
structure Typing (sql : Sqlite) (fd r : Int32) (name : Bytes) (lines chunks : List Bytes)
    (s : Server) (es : List Event) (s' : Server) : Prop where
  run : Trace (SessionEvent sql) s es s'
  typist : s.conList fd = some (name, .online)
  reader : ∃ m, s.conList r = some (m, .online)
  ne : r ≠ fd
  typed : ∀ l ∈ lines, Line l
  reads : readsOf fd es = chunks
  sizes : ∀ c ∈ chunks, 1 ≤ c.length ∧ c.length ≤ recvSize
  cut : chunks.flatten = lines.flatMap sendLine
  stays : ∀ c ∈ readsOf r es, c ≠ []

/-- **What the relay keeps of the lines.** The texts that reach the other user are the lines,
each once and in order, if and only if each read of the server returned one line with nothing
after it but zero bytes. -/
theorem relay_iff {sql : Sqlite} (hw : sql.Works) {s₀ s s' : Server} (h0 : Fresh s₀)
    (hreach : Reaches (SessionStep sql) s₀ s) {fd r : Int32} {name : Bytes}
    {lines chunks : List Bytes} {es : List Event}
    (h : Typing sql fd r name lines chunks s es s') :
    relayed fd r (s'.sent.drop s.sent.length) = lines.map (chatLine name) ↔
      List.Forall₂ (Framing.Whole 0) chunks lines := by
  have hc : Consistent s :=
    hreach.invariant h0.consistent fun u v hu huv => huv.consistent hw hu
  have htext : ∀ d ∈ readsOf fd es, d ≠ [] ∧ ∀ loc, textOf d loc = cstr d := by
    intro d hd
    rw [h.reads] at hd
    obtain ⟨hpos, hmax⟩ := h.sizes d hd
    refine ⟨List.ne_nil_of_length_pos hpos, textOf_eq hmax ?_⟩
    -- a read that fills the buffer is longer than any line, so it holds the end of one
    by_contra hfull
    obtain ⟨hlen, hz⟩ := not_or.mp hfull
    obtain ⟨pre, post, hsplit⟩ := List.append_of_mem hd
    have hle : d.length ≤ maxLine := by
      have hcut := h.cut
      rw [hsplit, List.flatten_append, List.flatten_cons, ← List.append_assoc] at hcut
      exact length_le_of_notMem (fun l hl => h.typed l hl) hcut.symm hz
    unfold recvSize maxLine at *
    omega
  obtain ⟨-, l, hl, hrel⟩ := Chatting.run hw { hc with typist := h.typist, reader := h.reader }
    h.ne h.run htext h.stays
  rw [hl, List.drop_left, hrel, h.reads]
  rw [← map_upTo_eq_iff (fun l hl => (h.typed l hl).1) h.cut]
  have hinj := (List.map_injective_iff.mpr (chatLine_injective name)).eq_iff
    (a := chunks.map cstr) (b := lines)
  rwa [List.map_map] at hinj

/-! ### Two users -/

/-- A user registers and goes online. -/
def signIn (fd : Int32) (name : Bytes) : List Event :=
  [.incoming fd, .readable fd (requestBytes 2 name (bytes "pw")) ⟨7, []⟩,
    .readable fd [1] ⟨7, []⟩]

def twoOnlineEvents : List Event := signIn 5 (bytes "al") ++ signIn 6 (bytes "bo")

def twoOnline : Server := twoOnlineEvents.foldl Server.next emptyServer

lemma twoOnline_reached : Reaches (SessionStep .reference) emptyServer twoOnline := by
  have hes : Schedule emptyServer twoOnlineEvents := by decide +kernel
  exact (hes.trace Sqlite.reference_works emptyServer_fresh.consistent).reaches

lemma typing_twoOnline (chunks : List Bytes)
    (hsched : Schedule twoOnline (chunks.map fun c => .readable 5 c ⟨7, []⟩))
    (hsizes : ∀ c ∈ chunks, 1 ≤ c.length ∧ c.length ≤ recvSize)
    (hcut : chunks.flatten = [bytes "hi", bytes "yo"].flatMap sendLine) :
    Typing .reference 5 6 (bytes "al") [bytes "hi", bytes "yo"] chunks twoOnline
      (chunks.map fun c => .readable 5 c ⟨7, []⟩)
      ((chunks.map fun c => .readable 5 c ⟨7, []⟩).foldl Server.next twoOnline) where
  run := hsched.trace Sqlite.reference_works
    (twoOnline_reached.invariant emptyServer_fresh.consistent fun u v hu huv =>
      huv.consistent Sqlite.reference_works hu)
  typist := by decide +kernel
  reader := ⟨bytes "bo", by decide +kernel⟩
  ne := by decide
  typed := by decide
  reads := by simp [readsOf, List.filterMap_map, Function.comp_def, Event.dataOf]
  sizes := hsizes
  cut := hcut
  stays := by simp [readsOf, List.filterMap_map, Function.comp_def, Event.dataOf]

/-- When both lines come in one read, only the first is relayed. -/
theorem two_lines_in_one_read : ¬ ∀ (s₀ s s' : Server) (fd r : Int32) (name : Bytes)
    (lines chunks : List Bytes) (es : List Event), Fresh s₀ →
    Reaches (SessionStep .reference) s₀ s → Typing .reference fd r name lines chunks s es s' →
    relayed fd r (s'.sent.drop s.sent.length) = lines.map (chatLine name) := by
  intro h
  have hrel := h _ _ _ _ _ _ _ _ _ emptyServer_fresh twoOnline_reached
    (typing_twoOnline [sendLine (bytes "hi") ++ sendLine (bytes "yo")]
      (by decide +kernel) (by decide) (by decide))
  revert hrel
  decide +kernel

/-- When each line comes in a read of its own, both are relayed. -/
theorem relay_iff_two_lines : relayed 5 6 (([sendLine (bytes "hi"), sendLine (bytes "yo")].map
      fun c => Event.readable 5 c ⟨7, []⟩).foldl Server.next twoOnline |>.sent.drop
        twoOnline.sent.length) =
    [chatLine (bytes "al") (bytes "hi"), chatLine (bytes "al") (bytes "yo")] :=
  (relay_iff Sqlite.reference_works emptyServer_fresh twoOnline_reached
    (typing_twoOnline [sendLine (bytes "hi"), sendLine (bytes "yo")]
      (by decide +kernel) (by decide) (by decide))).mpr
    (.cons ⟨1, rfl⟩ (.cons ⟨1, rfl⟩ .nil))

end SelfTraining.Chat
