import SelfTraining.Lib.Terminal
import SelfTraining.Chat.Received

/-!
The message window of the client.

`Recv` and `Send` push onto one queue, each update under the queue's mutex, and `ShowMessage`
writes the queue into the window, the newest message lowest. What it writes depends on whether
a message looks like a notice of the server.
-/

namespace SelfTraining.Chat

open SelfTraining.Text SelfTraining.Terminal

/-- `MAX_MSG_DISPLAY`. -/
def maxMsgDisplay : ℕ := 20

/-- What `Client::Send` pushes for a line. -/
def sendMessage (line : Bytes) : Bytes := bytes "You: " ++ line

/-- The queue, newest message first, after an update: a full one loses its oldest message. -/
def pushMessage (queue : List Bytes) (msg : Bytes) : List Bytes :=
  msg :: if queue.length = maxMsgDisplay then queue.dropLast else queue

/-- `std::regex_search` for a pattern of plain letters. -/
def regexSearch (msg pattern : Bytes) : Bool := decide (pattern <:+: msg)

section ShowMessage

variable {cols : ℕ} (C : Curses (maxMsgDisplay + 1) cols)

/-- One turn of the loop of `ShowMessage`. -/
def showRow (w : C.Window) (row : ℤ) (msg : Bytes) : C.Window :=
  let w := C.wclrtoeol (C.wmove w (maxMsgDisplay - row) 1)
  if regexSearch msg (bytes "INFO:") then
    if regexSearch msg (bytes "online") then
      C.wattroff (C.mvwprintw (C.wattron w 2) (maxMsgDisplay - row) 1 (cstr msg)) 2
    else if regexSearch msg (bytes "offline") then
      C.wattroff (C.mvwprintw (C.wattron w 1) (maxMsgDisplay - row) 1 (cstr msg)) 1
    else w
  else C.mvwprintw w (maxMsgDisplay - row) 1 (cstr msg)

/-- The loop of `ShowMessage` from a row on. -/
def showRows (w : C.Window) (row : ℤ) : List Bytes → C.Window
  | [] => w
  | msg :: queue => showRows (showRow C w row msg) (row + 1) queue

def showMessage (w : C.Window) (queue : List Bytes) : C.Window := showRows C w 0 queue

end ShowMessage

/-! ### The two threads -/

/-- What the client's threads do to the queue and the window. -/
inductive DisplayEvent where
  | recv (data : Bytes)
  | send (line : Bytes)
  | showMessage

/-- The message that an event puts on the queue. -/
def DisplayEvent.message : DisplayEvent → Option Bytes
  | .recv data => some (recvMessage data)
  | .send line => some (sendMessage line)
  | .showMessage => none

structure Display {cols : ℕ} (C : Curses (maxMsgDisplay + 1) cols) where
  msgQueue : List Bytes
  msgWin : C.Window

namespace Display

variable {cols : ℕ} (C : Curses (maxMsgDisplay + 1) cols)

/-- After `InitMsgWin`. -/
def init : Display C := ⟨[], C.newwin⟩

variable {C}

def next (d : Display C) : DisplayEvent → Display C
  | .recv data => { d with msgQueue := pushMessage d.msgQueue (recvMessage data) }
  | .send line => { d with msgQueue := pushMessage d.msgQueue (sendMessage line) }
  | .showMessage => { d with msgWin := showMessage C d.msgWin d.msgQueue }

end Display

/-- The client's display after some events. -/
def displayed {cols : ℕ} (C : Curses (maxMsgDisplay + 1) cols) (es : List DisplayEvent) :
    Display C :=
  es.foldl Display.next (Display.init C)

/-! ### What is to be shown -/

/-- The most recent messages, newest first. -/
def recent (es : List DisplayEvent) : List Bytes :=
  (es.filterMap DisplayEvent.message).reverse.take maxMsgDisplay

/-- A row with a message in it, or a blank one. -/
def rowOf (cols : ℕ) : Option Bytes → Bytes
  | none => List.replicate cols 32
  | some msg => 32 :: (visible msg ++ List.replicate (cols - 1 - (visible msg).length) 32)

/-- The message looks like a notice of the server only if it says who is online or offline. -/
def NoFalseNotice (msg : Bytes) : Prop :=
  bytes "INFO:" <:+: msg → bytes "online" <:+: msg ∨ bytes "offline" <:+: msg

instance (msg : Bytes) : Decidable (NoFalseNotice msg) := inferInstanceAs (Decidable (_ → _))

section

variable {cols : ℕ} {C : Curses (maxMsgDisplay + 1) cols}

/-- The window shows exactly these messages, each whole on a row of its own and the first on
the lowest. -/
def Shows (w : C.Window) (msgs : List Bytes) : Prop :=
  ∀ y ≤ maxMsgDisplay, C.row w y = rowOf cols msgs[maxMsgDisplay - y]?

end

/-! ### The queue -/

lemma length_pushMessage {queue : List Bytes} (h : queue.length ≤ maxMsgDisplay) (msg : Bytes) :
    queue.length ≤ (pushMessage queue msg).length ∧
      (pushMessage queue msg).length ≤ maxMsgDisplay := by
  have hpos : 0 < maxMsgDisplay := by decide
  unfold pushMessage
  split
  · rw [List.length_cons, List.length_dropLast]
    omega
  · rw [List.length_cons]
    omega

lemma pushMessage_take (msgs : List Bytes) (msg : Bytes) :
    pushMessage (msgs.take maxMsgDisplay) msg = (msg :: msgs).take maxMsgDisplay := by
  have hsucc : maxMsgDisplay = 19 + 1 := rfl
  unfold pushMessage
  rw [hsucc, List.take_succ_cons]
  split
  · next hlen =>
    rw [List.dropLast_eq_take, hlen, List.take_take]
    rfl
  · next hlen =>
    have hshort : msgs.length ≤ 19 := by
      rw [List.length_take] at hlen
      omega
    rw [List.take_of_length_le (by omega), List.take_of_length_le hshort]

lemma recent_snoc (es : List DisplayEvent) (e : DisplayEvent) :
    recent (es ++ [e]) =
      match e.message with
      | none => recent es
      | some msg => pushMessage (recent es) msg := by
  unfold recent
  rw [List.filterMap_append, List.reverse_append]
  cases h : e.message with
  | none => simp [h]
  | some msg =>
    have hpush := pushMessage_take (es.filterMap DisplayEvent.message).reverse msg
    simpa [h] using hpush.symm

lemma displayed_snoc {cols : ℕ} (C : Curses (maxMsgDisplay + 1) cols) (es : List DisplayEvent)
    (e : DisplayEvent) : displayed C (es ++ [e]) = (displayed C es).next e := by
  simp [displayed]

lemma displayed_msgQueue {cols : ℕ} (C : Curses (maxMsgDisplay + 1) cols)
    (es : List DisplayEvent) : (displayed C es).msgQueue = recent es := by
  induction es using List.reverseRecOn with
  | nil => rfl
  | append_singleton es e ih =>
    rw [displayed_snoc, recent_snoc]
    cases e with
    | recv data => exact congrArg (pushMessage · _) ih
    | send line => exact congrArg (pushMessage · _) ih
    | showMessage => exact ih

lemma length_recent (es : List DisplayEvent) : (recent es).length ≤ maxMsgDisplay :=
  List.length_take_le _ _

/-! ### One row -/

section

variable {cols : ℕ} {C : Curses (maxMsgDisplay + 1) cols} {w : C.Window} {msg : Bytes}
  {msgs : List Bytes}

/-- The row that `ShowMessage` is to write, whether it writes it or leaves it blank. -/
def written (cols : ℕ) (msg : Bytes) : Bytes :=
  if NoFalseNotice msg then rowOf cols (some msg) else rowOf cols none

/-- The first cell of every row is blank. -/
def Margin (w : C.Window) : Prop := ∀ y ≤ maxMsgDisplay, (C.row w y).take 1 = [32]

lemma row_cleared (hm : Margin w) {y : ℕ} (hy : y ≤ maxMsgDisplay) (y' : ℕ) :
    C.row (C.wclrtoeol (C.wmove w y 1)) y' =
      if y' = y then rowOf cols none else C.row w y' := by
  have hcols := C.one_lt_cols
  have hcursor : C.cursor (C.wmove w y 1) = (y, 1) :=
    C.cursor_wmove w y (Nat.lt_succ_of_le hy) 1 hcols
  rw [C.row_wclrtoeol, hcursor, C.row_wmove]
  by_cases hy' : y' = y
  · subst hy'
    have hsucc : cols = cols - 1 + 1 := by omega
    rw [if_pos rfl, if_pos rfl, hm y' hy, rowOf]
    conv_rhs => rw [hsucc, List.replicate_succ]
    rfl
  · rw [if_neg hy', if_neg hy']

lemma row_printed {w' : C.Window} {y : ℕ} (hy : y ≤ maxMsgDisplay) (hfit : C.Fits msg)
    (hw : ∀ y', C.row w' y' = if y' = y then rowOf cols none else C.row w y') (y' : ℕ) :
    C.row (C.mvwprintw w' y 1 (cstr msg)) y' =
      if y' = y then rowOf cols (some msg) else C.row w y' := by
  obtain ⟨k, hk⟩ := visible_append msg
  have hcols := C.one_lt_cols
  have hprint := C.row_mvwprintw w' y (Nat.lt_succ_of_le hy) 1 hcols (visible msg) k y' hfit.1
    hfit.2
  have hstr : cstr msg = visible msg ++ List.replicate k 13 := hfit.cstr_eq.trans hk
  rw [hstr]
  rw [hw y, hw y', if_pos rfl] at hprint
  refine hprint.trans ?_
  by_cases hy' : y' = y
  · subst hy'
    have hlen := hfit.1
    have htake : (rowOf cols none).take 1 = [32] := by
      simp only [rowOf, List.take_replicate]
      rw [min_eq_left (by omega)]
      rfl
    rw [if_pos rfl, if_pos rfl, htake]
    simp only [rowOf, List.drop_replicate]
    rw [show cols - (1 + (visible msg).length) = cols - 1 - (visible msg).length by omega]
    rfl
  · rw [if_neg hy', if_neg hy', if_neg hy']

/-- **One row.** A message that fits is written into its row, or leaves it blank, and the other
rows stay as they are. -/
lemma row_showRow (hm : Margin w) (hfit : C.Fits msg) {row y : ℕ}
    (hy : y + row = maxMsgDisplay) (y' : ℕ) :
    C.row (showRow C w row msg) y' = if y' = y then written cols msg else C.row w y' := by
  have hrow : (maxMsgDisplay : ℤ) - row = y := by omega
  have hle : y ≤ maxMsgDisplay := by omega
  have hclear := row_cleared hm hle
  unfold showRow regexSearch written NoFalseNotice
  simp only [hrow, decide_eq_true_eq]
  by_cases hinfo : bytes "INFO:" <:+: msg
  · by_cases honline : bytes "online" <:+: msg
    · simp only [hinfo, honline, if_true, true_or, imp_self, C.row_wattroff]
      exact row_printed hle hfit (fun y' => by rw [C.row_wattron, hclear]) y'
    · by_cases hoffline : bytes "offline" <:+: msg
      · simp only [hinfo, honline, hoffline, if_true, if_false, or_true, imp_self, C.row_wattroff]
        exact row_printed hle hfit (fun y' => by rw [C.row_wattron, hclear]) y'
      · simp only [hinfo, honline, hoffline, if_true, if_false, or_self, forall_const]
        exact hclear y'
  · simp only [hinfo, if_false, IsEmpty.forall_iff, if_true]
    exact row_printed hle hfit hclear y'

/-! ### The whole queue -/

lemma rowOf_take_one (m : Option Bytes) (hcols : 1 < cols) : (rowOf cols m).take 1 = [32] := by
  cases m with
  | some msg => rfl
  | none =>
    simp only [rowOf, List.take_replicate]
    rw [min_eq_left (by omega)]
    rfl

lemma Margin.showRow (hm : Margin w) (hfit : C.Fits msg) {row y : ℕ}
    (hy : y + row = maxMsgDisplay) : Margin (showRow C w row msg) := by
  intro y' hy'
  rw [row_showRow hm hfit hy]
  split
  · unfold written
    split
    · exact rowOf_take_one _ C.one_lt_cols
    · exact rowOf_take_one _ C.one_lt_cols
  · exact hm y' hy'

/-- **All rows.** Messages that fit are written from the lowest row up. -/
lemma row_showRows (hm : Margin w) (hfit : ∀ msg ∈ msgs, C.Fits msg) (row : ℕ)
    (hlen : row + msgs.length ≤ maxMsgDisplay) (y : ℕ) :
    C.row (showRows C w row msgs) y =
      if y + row ≤ maxMsgDisplay then
        (msgs[maxMsgDisplay - row - y]?.map (written cols)).getD (C.row w y)
      else C.row w y := by
  induction msgs generalizing w row with
  | nil => simp [showRows]
  | cons msg msgs ih =>
    simp only [List.length_cons] at hlen
    obtain ⟨y₀, hy₀⟩ : ∃ y₀, y₀ + row = maxMsgDisplay := ⟨maxMsgDisplay - row, by omega⟩
    have hrow := row_showRow hm (hfit msg (by simp)) hy₀
    have hrest := ih (hm.showRow (hfit msg (by simp)) hy₀) (fun m h => hfit m (by simp [h]))
      (row + 1) (by omega)
    change C.row (showRows C (showRow C w row msg) ((row + 1 : ℕ) : ℤ) msgs) y = _
    rw [hrest]
    rcases lt_trichotomy y y₀ with hlt | rfl | hgt
    · -- a row above
      have hindex : maxMsgDisplay - row - y = maxMsgDisplay - (row + 1) - y + 1 := by omega
      rw [if_pos (by omega), if_pos (by omega), hindex, List.getElem?_cons_succ, hrow,
        if_neg (by omega)]
    · have hindex : maxMsgDisplay - row - y = 0 := by omega
      rw [if_neg (by omega), if_pos (by omega), hindex, List.getElem?_cons_zero, hrow, if_pos rfl]
      rfl
    · rw [if_neg (by omega), if_neg (by omega), hrow, if_neg (by omega)]

/-- A window of which at most `n` rows have been written. -/
structure Clean (w : C.Window) (n : ℕ) : Prop where
  margin : Margin w
  above : ∀ y, n + y ≤ maxMsgDisplay → C.row w y = rowOf cols none

lemma fits_of_row {y : ℕ} (hy : y ≤ maxMsgDisplay) (h : C.row w y = rowOf cols (some msg)) :
    C.Fits msg := by
  have hlen := C.row_length w y (Nat.lt_succ_of_le hy)
  have hprint := C.row_isPrint w y (Nat.lt_succ_of_le hy)
  rw [h] at hlen hprint
  simp only [rowOf, List.length_cons, List.length_append, List.length_replicate] at hlen
  refine ⟨by omega, fun c hc => hprint c ?_⟩
  exact List.mem_cons_of_mem _ (List.mem_append_left _ hc)

lemma noFalseNotice_of_written (h : written cols msg = rowOf cols (some msg)) :
    NoFalseNotice msg := by
  by_contra hno
  rw [written, if_neg hno] at h
  have hinfo : bytes "INFO:" <:+: msg := by
    by_contra hinfo
    exact hno fun hi => absurd hi hinfo
  have hmem : (73 : UInt8) ∈ visible msg :=
    (mem_visible (by decide)).mpr (hinfo.subset (by decide))
  have hblank : (73 : UInt8) ∈ rowOf cols none := by
    rw [h]
    exact List.mem_cons_of_mem _ (List.mem_append_left _ hmem)
  exact absurd (List.mem_replicate.mp hblank).2 (by decide)

/-- **One call of `ShowMessage`** shows the queue if and only if each message fits and none looks
like a notice without being one. -/
lemma shows_iff {n : ℕ} (hw : Clean w n) (hn : n ≤ msgs.length)
    (hlen : msgs.length ≤ maxMsgDisplay) :
    Shows (showMessage C w msgs) msgs ↔ ∀ msg ∈ msgs, C.Fits msg ∧ NoFalseNotice msg := by
  have hrows : (∀ msg ∈ msgs, C.Fits msg) → ∀ y ≤ maxMsgDisplay,
      C.row (showMessage C w msgs) y =
        (msgs[maxMsgDisplay - y]?.map (written cols)).getD (C.row w y) := by
    intro hfit y hy
    have hrow := row_showRows hw.margin hfit 0 (by omega) y
    rwa [if_pos (by omega), Nat.sub_zero] at hrow
  constructor
  · intro h
    have hfit : ∀ msg ∈ msgs, C.Fits msg := by
      intro msg hmsg
      obtain ⟨k, hk, rfl⟩ := List.mem_iff_getElem.mp hmsg
      have hrow := h (maxMsgDisplay - k) (Nat.sub_le _ _)
      rw [Nat.sub_sub_self (by omega), List.getElem?_eq_getElem hk] at hrow
      exact fits_of_row (Nat.sub_le _ _) hrow
    intro msg hmsg
    refine ⟨hfit msg hmsg, ?_⟩
    obtain ⟨k, hk, rfl⟩ := List.mem_iff_getElem.mp hmsg
    have hrow := h (maxMsgDisplay - k) (Nat.sub_le _ _)
    rw [hrows hfit _ (Nat.sub_le _ _), Nat.sub_sub_self (by omega),
      List.getElem?_eq_getElem hk] at hrow
    exact noFalseNotice_of_written hrow
  · intro h y hy
    rw [hrows (fun msg hmsg => (h msg hmsg).1) y hy]
    cases hmsg : msgs[maxMsgDisplay - y]? with
    | none =>
      have hout := List.getElem?_eq_none_iff.mp hmsg
      exact hw.above y (by omega)
    | some msg => exact if_pos (h msg (List.mem_of_getElem? hmsg)).2

lemma Shows.clean (h : Shows w msgs) : Clean w msgs.length where
  margin y hy := by
    rw [h y hy]
    exact rowOf_take_one _ C.one_lt_cols
  above y hy := by
    rw [h y (by omega), List.getElem?_eq_none (by omega)]

end

/-! ### Every run -/

section

variable {cols : ℕ} (C : Curses (maxMsgDisplay + 1) cols)

/-- After each call of `ShowMessage` the window shows the most recent messages. -/
def AlwaysShows (es : List DisplayEvent) : Prop :=
  ∀ es', es' ++ [.showMessage] <+: es →
    Shows (displayed C (es' ++ [.showMessage])).msgWin (recent es')

/-- At each call of `ShowMessage` each of the most recent messages fits into a row, and none
looks like a notice without being one. -/
def AlwaysShowable (es : List DisplayEvent) : Prop :=
  ∀ es', es' ++ [.showMessage] <+: es → ∀ msg ∈ recent es', C.Fits msg ∧ NoFalseNotice msg

lemma clean_newwin : Clean C.newwin 0 where
  margin y hy := by
    rw [C.row_newwin y (Nat.lt_succ_of_le hy)]
    exact rowOf_take_one none C.one_lt_cols
  above y hy := C.row_newwin y (Nat.lt_succ_of_le (by omega))

lemma length_recent_le (es : List DisplayEvent) (e : DisplayEvent) :
    (recent es).length ≤ (recent (es ++ [e])).length := by
  rw [recent_snoc]
  cases e with
  | recv data => exact (length_pushMessage (length_recent es) _).1
  | send line => exact (length_pushMessage (length_recent es) _).1
  | showMessage => exact le_rfl

/-- As long as every call has shown the queue, no more rows are written than it is long. -/
lemma AlwaysShows.clean {es : List DisplayEvent} (h : AlwaysShows C es) :
    ∃ n ≤ (recent es).length, Clean (displayed C es).msgWin n := by
  induction es using List.reverseRecOn with
  | nil => exact ⟨0, Nat.zero_le _, clean_newwin C⟩
  | append_singleton es e ih =>
    obtain ⟨n, hn, hclean⟩ := ih fun es' hes' => h es' (hes'.trans (List.prefix_append _ _))
    have hle := length_recent_le es e
    cases e with
    | recv data => exact ⟨n, hn.trans hle, by rw [displayed_snoc]; exact hclean⟩
    | send line => exact ⟨n, hn.trans hle, by rw [displayed_snoc]; exact hclean⟩
    | showMessage =>
      exact ⟨_, hle, (h es (List.prefix_refl _)).clean⟩

lemma forall_calls_snoc {P : List DisplayEvent → Prop} {es : List DisplayEvent}
    {e : DisplayEvent} :
    (∀ es', es' ++ [.showMessage] <+: es ++ [e] → P es') ↔
      (∀ es', es' ++ [.showMessage] <+: es → P es') ∧ (e = .showMessage → P es) := by
  constructor
  · intro h
    refine ⟨fun es' hes' => h es' (hes'.trans (List.prefix_append _ _)), ?_⟩
    rintro rfl
    exact h es (List.prefix_refl _)
  · rintro ⟨h, hlast⟩ es' hes'
    rcases List.prefix_concat_iff.mp hes' with heq | hes'
    · obtain ⟨rfl, hshow⟩ := List.append_inj' heq rfl
      exact hlast (List.singleton_inj.mp hshow).symm
    · exact h es' hes'

/-- **Every recent message is shown**, each whole and on a row of its own, after every call of
`ShowMessage`, if and only if at every call each of them fits into a row, and none that holds
`INFO:` says neither `online` nor `offline`. -/
theorem always_shows_iff (es : List DisplayEvent) : AlwaysShows C es ↔ AlwaysShowable C es := by
  induction es using List.reverseRecOn with
  | nil =>
    unfold AlwaysShows AlwaysShowable
    simp
  | append_singleton es e ih =>
    have hcall : AlwaysShows C es → (Shows (displayed C (es ++ [.showMessage])).msgWin (recent es) ↔
        ∀ msg ∈ recent es, C.Fits msg ∧ NoFalseNotice msg) := by
      intro h
      obtain ⟨n, hn, hclean⟩ := h.clean
      rw [displayed_snoc]
      change Shows (showMessage C _ (displayed C es).msgQueue) _ ↔ _
      rw [displayed_msgQueue]
      exact shows_iff hclean hn (length_recent es)
    unfold AlwaysShows AlwaysShowable at *
    rw [forall_calls_snoc, forall_calls_snoc, ← ih]
    exact and_congr_right fun h => forall_congr' fun _ => hcall h

end

/-! ### A user who types a notice -/

/-- A line that holds `INFO:` is not shown. -/
theorem typed_notice_hidden : ¬ ∀ (cols : ℕ) (C : Curses (maxMsgDisplay + 1) cols)
    (es : List DisplayEvent), AlwaysShows C es := by
  intro h
  let C := plain (maxMsgDisplay + 1) 80 (by decide)
  let typed : List DisplayEvent := [.send (bytes "INFO: hi")]
  have hshows : Shows (showMessage C C.newwin (recent typed)) (recent typed) :=
    h 80 C (typed ++ [.showMessage]) typed (List.prefix_refl _)
  have hshowable := (shows_iff (clean_newwin C) (Nat.zero_le _) (length_recent typed)).mp hshows
  have hnotice := (hshowable (sendMessage (bytes "INFO: hi")) (by simp [typed, recent,
    DisplayEvent.message, maxMsgDisplay])).2
  revert hnotice
  decide

end SelfTraining.Chat
