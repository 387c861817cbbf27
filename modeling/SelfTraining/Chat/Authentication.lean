import SelfTraining.Chat.Serving

/-!
When `CheckUserInfo` answers with success. Statements may fail here, in any pattern; what a
failure leaves of a turn is read off the code, not off `Server.next`.

A request is granted when it registers a new name or logs in a user who is offline with the
right password. Otherwise the answer is a success only by chance: no branch assigns the local
`res`, and the value that it happens to hold is zero.
-/

namespace SelfTraining.Chat

open SelfTraining.Text SelfTraining.Steps

/-! ### What a call leaves behind -/

section

variable {sql : Sqlite} {s s' : Server} {fd : Int32}

/-- What a call of `CheckUserInfo` has gone through when it returns a response and a table. The
table that it found is `t₀`, and the query has given `answer`. -/
inductive Outcome (sql : Sqlite) (t₀ : Table) (fd : Int32) (msg : RequestMsg)
    (garbage : Response) : Option (Bytes × Int32 × Int32) → Response → Table → Prop where
  | registered {done : Bool} {t : Table} : msg.option = 2 →
    addNewUserToDatabase sql t₀ msg.name msg.pass 1 fd = .ok (done, t) →
    Outcome sql t₀ fd msg garbage none (if done then success else errorUnkown) t
  | loggedIn {sockfd : Int32} {done : Bool} {t : Table} : msg.option = 1 →
    updateUserStatus sql t₀ msg.name 1 fd = .ok (done, t) →
    Outcome sql t₀ fd msg garbage (some (msg.pass, 0, sockfd)) success t
  | refused {answer : Option (Bytes × Int32 × Int32)} {res : Response} : res ≠ success →
    Outcome sql t₀ fd msg garbage answer res t₀
  | unknownOption {answer : Option (Bytes × Int32 × Int32)} : msg.option ≠ 1 →
    msg.option ≠ 2 → Outcome sql t₀ fd msg garbage answer garbage t₀
  | unknownStatus {status sockfd : Int32} : msg.option = 1 → status ≠ 0 → status ≠ 1 →
    Outcome sql t₀ fd msg garbage (some (msg.pass, status, sockfd)) garbage t₀

lemma outcome_refusal {t₀ : Table} {msg : RequestMsg} {garbage : Response}
    {answer : Option (Bytes × Int32 × Int32)} (h : statementOf msg fd answer = none) :
    Outcome sql t₀ fd msg garbage answer (refusal msg garbage answer) t₀ := by
  rcases answer with _ | ⟨storedPass, status, sockfd⟩
  · by_cases h1 : msg.option = 1
    · exact .refused (by simp [refusal, h1, errorUsernameNotFound, success])
    · have h2 : msg.option ≠ 2 := by simpa [statementOf] using h
      simpa [refusal, h1] using Outcome.unknownOption h1 h2
  · by_cases h2 : msg.option = 2
    · exact .refused (by simp [refusal, h2, errorDuplicateUsername, success])
    by_cases h1 : msg.option = 1
    · by_cases hp : msg.pass = storedPass
      · subst hp
        have h0 : status ≠ 0 := by simpa [statementOf, h1] using h
        by_cases hs1 : status = 1
        · exact .refused (by simp [refusal, h1, hs1, errorUserLoggedIn, success])
        · simpa [refusal, h1, hs1] using Outcome.unknownStatus h1 h0 hs1
      · exact .refused (by simp [refusal, h1, hp, errorPasswordNotMatching, success])
    · simpa [refusal, h1, h2] using Outcome.unknownOption h1 h2

lemma outcome_executed {t₀ t : Table} {msg : RequestMsg} {garbage : Response}
    {answer : Option (Bytes × Int32 × Int32)} {st : Stmt} {done : Bool}
    (h : statementOf msg fd answer = some st) (hex : execute sql t₀ st = .ok (done, t)) :
    Outcome sql t₀ fd msg garbage answer (responseOf msg done) t := by
  rcases answer with _ | ⟨storedPass, status, sockfd⟩
  · obtain ⟨h2, rfl⟩ : msg.option = 2 ∧ Stmt.insert msg.name msg.pass 1 fd = st := by
      simpa [statementOf] using h
    have hres : responseOf msg done = if done then success else errorUnkown := by
      simp [responseOf, h2]
    rw [hres]
    exact .registered h2 hex
  · obtain ⟨⟨h1, rfl, rfl⟩, rfl⟩ : (msg.option = 1 ∧ msg.pass = storedPass ∧ status = 0) ∧
        Stmt.update 1 fd msg.name = st := by
      simpa [statementOf] using h
    have hres : responseOf msg done = success := by simp [responseOf, h1]
    rw [hres]
    exact .loggedIn h1 hex

/-- Every call that returns has gone through one of the branches. -/
theorem checkUserInfo_ok {msg : RequestMsg} {garbage res : Response}
    (h : checkUserInfo sql msg fd garbage s = .ok res s') :
    ∃ answer t, queryUserInfo sql s.usrs msg.name = .ok answer ∧ s' = s.setUsrs t ∧
      Outcome sql s.usrs fd msg garbage answer res t := by
  rw [checkUserInfo_run] at h
  split at h
  · cases h
  · next answer hq =>
    split at h
    · next hnone =>
      obtain ⟨rfl, rfl⟩ := by simpa using h
      exact ⟨answer, s.usrs, hq, rfl, outcome_refusal hnone⟩
    · next st hst =>
      split at h
      · cases h
      · next done t hex =>
        obtain ⟨rfl, rfl⟩ := by simpa using h
        exact ⟨answer, t, hq, rfl, outcome_executed hst hex⟩

/-! ### Single calls -/

/-- The request registers a name that was not taken, and the row is inserted; or it logs in a
user with the right password whose row was offline. -/
def Granted (msg : RequestMsg) (fd : Int32) (s s' : Server) : Prop :=
  (msg.option = 2 ∧ userOf s.usrs msg.name = none ∧
    s'.usrs = s.usrs ++ [⟨msg.name, msg.pass, 1, fd⟩]) ∨
  (msg.option = 1 ∧ ∃ row, userOf s.usrs msg.name = some row ∧ row.password = msg.pass ∧
    row.status = 0)

/-- Every success of the call is a request that is granted. -/
def AuthenticatesOnly (sql : Sqlite) (s : Server) (msg : RequestMsg) (fd : Int32)
    (garbage : Response) : Prop :=
  ∀ s', checkUserInfo sql msg fd garbage s = .ok success s' → Granted msg fd s s'

/-- The query comes back, no branch assigns the local, and the local holds zero. -/
def ByChance (sql : Sqlite) (t : Table) (msg : RequestMsg) (garbage : Response) : Prop :=
  (∃ answer, queryUserInfo sql t msg.name = .ok answer) ∧ Unassigned t msg ∧ garbage = success

lemma authenticatesOnly_of (hf : sql.Faithful) {msg : RequestMsg} {garbage : Response}
    (hq : QuoteFree msg) (hc : ¬ ByChance sql s.usrs msg garbage) :
    AuthenticatesOnly sql s msg fd garbage := by
  intro s' h
  obtain ⟨answer, t, hquery, rfl, hout⟩ := checkUserInfo_ok h
  have hanswer : msg.option = 1 ∨ msg.option = 2 →
      answer = (userOf s.usrs msg.name).map fun r => (r.password, r.status, r.sockfd) :=
    fun ho => queryUserInfo_sound hf (hq.1 ho) hquery
  -- the row behind an answer that has found one
  have hrow : ∀ {pass status sockfd}, msg.option = 1 → answer = some (pass, status, sockfd) →
      ∃ row, userOf s.usrs msg.name = some row ∧ row.password = pass ∧ row.status = status := by
    intro pass status sockfd h1 ha
    obtain ⟨row, hu, hrow⟩ := Option.map_eq_some_iff.mp ((hanswer (.inl h1)).symm.trans ha)
    exact ⟨row, hu, by simp_all⟩
  generalize hres : success = res at hout
  cases hout with
  | @registered done t h2 hadd =>
    have hnone : userOf s.usrs msg.name = none := by simpa [eq_comm] using hanswer (.inr h2)
    cases done with
    | false => simp [success, errorUnkown] at hres
    | true =>
      have hplain : (Stmt.insert msg.name msg.pass 1 fd).Quoteless :=
        ⟨hq.1 (.inr h2), hq.2 h2⟩
      have hrun := execute_sound hf hplain hadd
      exact .inl ⟨h2, hnone, hrun⟩
  | loggedIn h1 =>
    obtain ⟨row, hu, hp, h0⟩ := hrow h1 rfl
    exact .inr ⟨h1, row, hu, hp, h0⟩
  | refused hne => exact absurd hres.symm hne
  | unknownOption h1 h2 => exact absurd ⟨⟨answer, hquery⟩, .inl ⟨h1, h2⟩, hres.symm⟩ hc
  | unknownStatus h1 h0 hs1 =>
    obtain ⟨row, hu, hp, rfl⟩ := hrow h1 rfl
    exact absurd ⟨⟨_, hquery⟩, .inr ⟨h1, row, hu, hp.symm, h0, hs1⟩, hres.symm⟩ hc

lemma not_byChance_of (hf : sql.Faithful) {msg : RequestMsg} {garbage : Response}
    (hq : QuoteFree msg) (ha : AuthenticatesOnly sql s msg fd garbage) :
    ¬ ByChance sql s.usrs msg garbage := by
  rintro ⟨⟨answer, hquery⟩, hun, rfl⟩
  have hdb := query_ok.mpr ⟨hquery, (rfl : s = s)⟩
  rcases hun with ⟨h1, h2⟩ | ⟨h1, row, hu, hp, h0, h1'⟩
  · have hrun : checkUserInfo sql msg fd success s = .ok success s := by
      cases answer <;> simp [checkUserInfo, bind, EStateM.bind, hdb, h1, h2, pure, EStateM.pure]
    rcases ha s hrun with ⟨h, -⟩ | ⟨h, -⟩
    · exact h2 h
    · exact h1 h
  · have hrun : checkUserInfo sql msg fd success s = .ok success s := by
      obtain rfl := queryUserInfo_sound hf (hq.1 (.inl h1)) hquery
      simp only [hu, Option.map_some] at hdb
      simp [checkUserInfo, bind, EStateM.bind, hdb, h1, hp, h0, h1', pure, EStateM.pure]
    rcases ha s hrun with ⟨h, -⟩ | ⟨-, row', hu', -, h0'⟩
    · rw [h1] at h
      exact absurd h (by decide)
    · obtain rfl : row = row' := Option.some.inj (hu.symm.trans hu')
      exact h0 h0'

/-! ### Turns -/

/-- The connection has logged in and has not chosen an option yet. -/
def Authenticated (fd : Int32) (s : Server) : Prop :=
  ∃ name, s.conList fd = some (name, .authenticated)

lemma authenticated_of_entry (h : (s.entry fd).2 = .authenticated) : Authenticated fd s := by
  cases hc : s.conList fd with
  | none => simp [Server.entry, hc] at h
  | some e => exact ⟨e.1, by simp [hc, ← h, Server.entry]⟩

lemma authenticated_of_write {g : Int32} {x : Option (Bytes × State)}
    (hx : s'.conList = Function.update s.conList g x) (hs : ¬ Authenticated fd s)
    (hs' : Authenticated fd s') : fd = g ∧ ∃ name, x = some (name, .authenticated) := by
  obtain ⟨name, hname⟩ := hs'
  rw [hx] at hname
  by_cases hg : fd = g
  · subst hg
    exact ⟨rfl, name, by simpa using hname⟩
  · rw [Function.update_of_ne hg] at hname
    exact absurd ⟨name, hname⟩ hs

lemma authenticated_of_step {e : Event} (h : Step sql e s s') (hs : ¬ Authenticated fd s)
    (hs' : Authenticated fd s') :
    ∃ data loc s₁, e = .readable fd data loc ∧ (s.entry fd).2 = .request ∧ data ≠ [] ∧
      checkUserInfo sql (requestOf data loc) fd loc.res (s.touch fd) = .ok success s₁ ∧
      s'.usrs = s₁.usrs := by
  cases e with
  | incoming accepted =>
    obtain rfl : s.add (accept accepted) = s' := by simpa [handleEvent, accept_ne] using h.2
    obtain ⟨rfl, name, hentry⟩ := authenticated_of_write (g := accept accepted) rfl hs hs'
    refine absurd (authenticated_of_entry ?_) hs
    rw [Option.some.inj hentry]
  | readable g data loc =>
    have hrun : handleSingleSocketCon sql g data loc s = .ok () s' := h.2
    obtain ⟨l, x, t, hserved, hafter⟩ := handleSingleSocketCon_served hrun
    obtain ⟨rfl, name, rfl⟩ := authenticated_of_write hafter.conList hs hs'
    generalize hx : some (name, State.authenticated) = x at hserved
    cases hserved with
    | dropped | exited | left => cases hx
    | chose => simp at hx
    | relayed hst => simp [← Option.some.inj hx] at hst
    | @answered hst hd res t hcheck =>
      have hres : res = success := by
        by_contra hne
        simp [hne] at hx
      subst hres
      exact ⟨data, loc, _, rfl, hst, hd, hcheck, hafter.usrs⟩

end

/-! ### Runs -/

/-- The server handles an event, with statements failing or not; a request it reads holds no
quote and is not answered by chance. -/
def AuthStep (e : Event) (s s' : Server) : Prop :=
  ∃ sql : Sqlite, sql.Faithful ∧ Step sql e s s' ∧
    ∀ fd data loc, e = .readable fd data loc → (s.entry fd).2 = .request → data ≠ [] →
      QuoteFree (requestOf data loc) ∧ ¬ ByChance sql s.usrs (requestOf data loc) loc.res

/-- **Authentication soundness.** For requests without quotes, `CheckUserInfo` answers with
success only to a request that is granted if and only if it does not answer by chance: the
local `res` is assigned, or what it holds is not zero. In every run in which no request is
answered by chance, a connection gets to be authenticated only through a request that is
granted. -/
theorem authentication_sound {sql : Sqlite} (hf : sql.Faithful) :
    (∀ s msg fd garbage,
      (QuoteFree msg ∧ ¬ ByChance sql s.usrs msg garbage →
        AuthenticatesOnly sql s msg fd garbage) ∧
      (QuoteFree msg → AuthenticatesOnly sql s msg fd garbage →
        ¬ ByChance sql s.usrs msg garbage)) ∧
    ∀ s₀ es s fd, Trace AuthStep s₀ es s → ¬ Authenticated fd s₀ → Authenticated fd s →
      ∃ es₁ data loc es₂ u v, es = es₁ ++ .readable fd data loc :: es₂ ∧
        Trace AuthStep s₀ es₁ u ∧ AuthStep (.readable fd data loc) u v ∧
        (u.entry fd).2 = .request ∧ Granted (requestOf data loc) fd u v := by
  refine ⟨fun s msg fd garbage => ⟨fun h => authenticatesOnly_of hf h.1 h.2,
    fun hq ha => not_byChance_of hf hq ha⟩, fun s₀ es s fd hrun h0 hs => ?_⟩
  obtain ⟨es₁, e, es₂, u, v, rfl, hpre, hstep, hu, hv⟩ := hrun.exists_entry h0 hs
  obtain ⟨sql', hf', hst, hcond⟩ := id hstep
  obtain ⟨data, loc, s₁, rfl, hreq, hd, hcheck, husrs⟩ := authenticated_of_step hst hu hv
  obtain ⟨hq, hc⟩ := hcond fd data loc rfl hreq hd
  have hgranted : Granted (requestOf data loc) fd (u.touch fd) s₁ :=
    authenticatesOnly_of (s := u.touch fd) hf' hq hc s₁ hcheck
  refine ⟨es₁, data, loc, es₂, u, v, rfl, hpre, hstep, hreq, ?_⟩
  unfold Granted at *
  rwa [husrs]

/-- A request with option 7 and a local that holds zero: the connection is authenticated,
though nobody is registered. -/
theorem unknown_option_authenticated :
    ¬ AuthenticatesOnly .reference emptyServer ⟨7, bytes "al", bytes "pw"⟩ 5 0 := by
  intro h
  have hrun : checkUserInfo .reference ⟨7, bytes "al", bytes "pw"⟩ 5 0 emptyServer =
      .ok success emptyServer := by
    have hq : queryUserInfo .reference [] (bytes "al") = .ok none := by decide +kernel
    have hdb := query_ok.mpr ⟨hq, (rfl : emptyServer = emptyServer)⟩
    simp [checkUserInfo, bind, EStateM.bind, hdb, pure, EStateM.pure, success]
  rcases h _ hrun with ⟨h2, -⟩ | ⟨h1, -⟩
  · simp at h2
  · simp at h1

/-- A connection registers a user: its request is the one that is granted. -/
theorem authentication_sound_registration : ∃ data loc u v,
    AuthStep (.readable 5 data loc) u v ∧ Granted (requestOf data loc) 5 u v := by
  let data := requestBytes 2 (bytes "al") (bytes "pw")
  let e₁ : Event := .incoming 5
  let e₂ : Event := .readable 5 data ⟨0, []⟩
  let s₁ := emptyServer.next e₁
  have hreq : requestOf data ⟨0, []⟩ = ⟨2, bytes "al", bytes "pw"⟩ := by decide +kernel
  have hplain : Stmt.Plain (bytes "al") ∧ Stmt.Plain (bytes "pw") := by decide
  have hchance : ¬ ByChance .reference s₁.usrs (requestOf data ⟨0, []⟩) 0 := by
    rw [hreq]
    rintro ⟨-, ⟨-, h2⟩ | ⟨h1, -⟩, -⟩
    · exact h2 rfl
    · simp at h1
  have hq : Quoteless s₁ e₂ := fun _ => by rw [hreq]; exact hplain
  have hrun : Trace AuthStep emptyServer ([] ++ [e₁] ++ [e₂]) (s₁.next e₂) := by
    refine .snoc (.snoc .nil ⟨.reference, Sqlite.reference_faithful,
      ⟨trivial, handleEvent_eq Sqlite.reference_works trivial⟩, by simp [e₁]⟩)
      ⟨.reference, Sqlite.reference_faithful,
        ⟨by decide, handleEvent_eq Sqlite.reference_works hq⟩, ?_⟩
    rintro fd d loc he - -
    obtain ⟨rfl, rfl, rfl⟩ : 5 = fd ∧ data = d ∧ (⟨0, []⟩ : Locals) = loc := by
      simpa [e₂] using he
    exact ⟨by rw [hreq]; exact ⟨fun _ => hplain.1, fun _ => hplain.2⟩, hchance⟩
  obtain ⟨es₁, d, loc, es₂, u, v, -, -, hstep, -, hgranted⟩ :=
    (authentication_sound Sqlite.reference_faithful).2 emptyServer _ _ 5 hrun
      (by simp [Authenticated, emptyServer]) ⟨bytes "al", by decide +kernel⟩
  exact ⟨d, loc, u, v, hstep, hgranted⟩

end SelfTraining.Chat
