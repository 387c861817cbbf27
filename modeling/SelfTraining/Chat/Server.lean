import SelfTraining.Chat.Database
import Mathlib.Data.Finset.Insert
import Mathlib.Logic.Function.Basic

/-!
The chat server: `CheckUserInfo`, `HandleSingleSocketCon` and one turn of
`HandleConnections`.

The server's functions run in a monad that keeps the state when an exception escapes. What a
call of `read` returns comes from outside, as do the bytes that a local variable held before
it was written. Nothing is ever sent by a file descriptor that the program does not name, so
the calls of `send` are recorded, in order, with the place they come from.
-/

namespace SelfTraining.Chat

open SelfTraining.Text

/-! ### Requests and responses -/

/-- The enumeration is four bytes on the wire, and a local of that type holds any value until
it is assigned. -/
abbrev Response := UInt32

def success : Response := 0
def errorDuplicateUsername : Response := 1
def errorUsernameNotFound : Response := 2
def errorPasswordNotMatching : Response := 3
def errorUserLoggedIn : Response := 4
def errorUnkown : Response := 5

/-- What the server makes of a request: the option byte and the two fields up to their first
zero byte. -/
structure RequestMsg where
  option : UInt8
  name : Bytes
  pass : Bytes
  deriving DecidableEq

/-- `sizeof(RequestMsg)`: the option and two fields of a hundred bytes. -/
def requestSize : ℕ := 201

/-- A field that is full runs on into what lies behind it. -/
def RequestMsg.ofBytes (mem : Bytes) : RequestMsg where
  option := mem.headD 0
  name := cstr (mem.drop 1)
  pass := cstr (mem.drop 101)

/-- The bytes of a request: the option and the two fields, padded with zeros. -/
def requestBytes (option : UInt8) (name pass : Bytes) : Bytes :=
  option :: (name ++ List.replicate (100 - name.length) 0) ++
    (pass ++ List.replicate (100 - pass.length) 0)

/-- Memory after `read` has put `data` at its start. -/
def filled (data mem : Bytes) : Bytes := data ++ mem.drop data.length

/-- The bytes of an `int`, least significant first. -/
def leBytes (n : UInt32) : Bytes :=
  [n.toNat.toUInt8, (n.toNat / 256).toUInt8, (n.toNat / 65536).toUInt8,
    (n.toNat / 16777216).toUInt8]

/-- The `int` at the start of `mem`. -/
def ofLeBytes (mem : Bytes) : UInt32 :=
  ((mem.getD 0 0).toNat + 256 * (mem.getD 1 0).toNat + 65536 * (mem.getD 2 0).toNat +
    16777216 * (mem.getD 3 0).toNat).toUInt32

lemma ofLeBytes_leBytes (n : UInt32) (rest : Bytes) : ofLeBytes (leBytes n ++ rest) = n := by
  have hn := n.toNat_lt
  have h8 : ∀ k : ℕ, k.toUInt8.toNat = k % 256 := fun _ => rfl
  have hsum : n.toNat % 256 + 256 * (n.toNat / 256 % 256) + 65536 * (n.toNat / 65536 % 256) +
      16777216 * (n.toNat / 16777216 % 256) = n.toNat := by
    omega
  simp only [ofLeBytes, leBytes, List.cons_append, List.nil_append, List.getD_cons_zero,
    List.getD_cons_succ, h8, hsum]
  exact UInt32.ofNat_toNat

/-- The contents of locals before they are written: the response of `CheckUserInfo`, and the
memory from the buffer of a `read` on. -/
structure Locals where
  res : Response
  mem : Bytes

/-! ### The server -/

inductive State where
  | request
  | authenticated
  | online
  deriving DecidableEq

/-- What a call of `send` carries: the response to a request, the response to the option
choice, or a text for the users that are online. -/
inductive Message where
  | requestResponse (res : Response)
  | optionResponse (res : Response)
  | text (msg : Bytes)
  deriving DecidableEq

def Message.payload : Message → Bytes
  | requestResponse res => leBytes res
  | optionResponse res => leBytes res
  | text msg => msg

/-- A call of `send`: while an event of connection `source` is handled, `message` goes to
`dest`. -/
structure Sent where
  source : Int32
  dest : Int32
  message : Message
  deriving DecidableEq

structure Server where
  conList : Int32 → Option (Bytes × State)
  epoll : Finset Int32
  usrs : Table
  sent : List Sent

/-- A function of the server: it may throw, and then what it has done so far stays. -/
abbrev ServerM := EStateM SqlException Server

namespace Server

/-- The entry at `fd`, made new when there is none. -/
def entry (s : Server) (fd : Int32) : Bytes × State := (s.conList fd).getD ([], .request)

def setEntry (s : Server) (fd : Int32) (e : Bytes × State) : Server :=
  { s with conList := Function.update s.conList fd (some e) }

/-- `con_list[fd]` puts a new entry in when there is none. -/
def touch (s : Server) (fd : Int32) : Server := s.setEntry fd (s.entry fd)

/-- A new connection keeps an entry that is there already. -/
def add (s : Server) (fd : Int32) : Server := { s.touch fd with epoll := insert fd s.epoll }

def del (s : Server) (fd : Int32) : Server :=
  { s with epoll := s.epoll.erase fd, conList := Function.update s.conList fd none }

def record (s : Server) (sends : List Sent) : Server := { s with sent := s.sent ++ sends }

end Server

/-- `con_list[fd].first = name`. -/
def setName (fd : Int32) (name : Bytes) : ServerM Unit :=
  modify fun s => s.setEntry fd (name, (s.entry fd).2)

/-- `con_list[fd].second = state`. -/
def setState (fd : Int32) (state : State) : ServerM Unit :=
  modify fun s => s.setEntry fd ((s.entry fd).1, state)

/-- `con_list[fd]`. -/
def lookup (fd : Int32) : ServerM (Bytes × State) :=
  modifyGet fun s => (s.entry fd, s.touch fd)

def send (source dest : Int32) (message : Message) : ServerM Unit :=
  modify fun s => s.record [⟨source, dest, message⟩]

/-- A call into `MyDatabase`. -/
def database {α : Type} (f : Table → Except SqlException (α × Table)) : ServerM α := fun s =>
  match f s.usrs with
  | .ok (a, t) => .ok a { s with usrs := t }
  | .error e => .error e s

def addSocketToEpoll (fd : Int32) : ServerM Unit := modify fun s => s.add fd

def delFromEpoll (fd : Int32) : ServerM Unit := modify fun s => s.del fd

section

variable (sql : Sqlite)

/-- The rows that come before the query fails have been sent to. -/
def notifyToOnelineUser (fd : Int32) (msg : Bytes) : ServerM Unit := fun s =>
  if sql.prepares Stmt.selectOnline.text then
    let (rows, done) := sql.query Stmt.selectOnline.text s.usrs
    let others := rows.filter fun r => r.sockfd ≠ fd
    let s := s.record (others.map fun r => ⟨fd, r.sockfd, .text msg⟩)
    if done then .ok () s else .error .execute s
  else .error .prepare s

/-- `res` starts with what the local happens to hold. -/
def checkUserInfo (msg : RequestMsg) (confd : Int32) (garbage : Response) : ServerM Response := do
  let mut res := garbage
  match ← database fun t => (queryUserInfo sql t msg.name).map fun a => (a, t) with
  | none =>
    if msg.option = 1 then res := errorUsernameNotFound
    if msg.option = 2 then
      if ← database fun t => addNewUserToDatabase sql t msg.name msg.pass 1 confd then
        res := success
      else
        res := errorUnkown
  | some (storedPass, status, _) =>
    if msg.option = 2 then res := errorDuplicateUsername
    if msg.option = 1 then
      if msg.pass = storedPass then
        if status = 0 then
          let _ ← database fun t => updateUserStatus sql t msg.name 1 confd
          res := success
        if status = 1 then res := errorUserLoggedIn
      else
        res := errorPasswordNotMatching
  return res

/-- The connection has sent a login or a registration, or has gone. -/
def handleRequest (fd : Int32) (data : Bytes) (loc : Locals) : ServerM Unit := do
  if data = [] then delFromEpoll fd
  else
    let reqmsg := RequestMsg.ofBytes (filled data loc.mem)
    let res ← checkUserInfo sql reqmsg fd loc.res
    setName fd reqmsg.name
    send fd fd (.requestResponse res)
    if res = success then setState fd .authenticated

def isOffline (name : Bytes) : Bytes := bytes "INFO: " ++ name ++ bytes " is offline\r\n"
def isOnline (name : Bytes) : Bytes := bytes "INFO: " ++ name ++ bytes " is online\r\n"

/-- The connection has chosen how to chat, or has gone. Its option is read into the low bytes
of an `int`. -/
def handleAuthenticated (fd : Int32) (data : Bytes) (loc : Locals) : ServerM Unit := do
  let (name, _) ← lookup fd
  if data = [] ∨ ofLeBytes (filled data loc.mem) = 3 then
    notifyToOnelineUser sql fd (isOffline name)
    let _ ← database fun t => updateUserStatus sql t name 0 (-1)
    delFromEpoll fd
  else
    send fd fd (.optionResponse success)
    notifyToOnelineUser sql fd (isOnline name)
    setState fd .online

/-- A line of chat as it is relayed. -/
def chatLine (name text : Bytes) : Bytes := name ++ bytes ": " ++ text ++ bytes "\r\n"

/-- `sizeof(recv_buff)`. -/
def recvSize : ℕ := 1000

/-- The buffer is zero before the read; a text that fills it runs on into what lies behind. -/
def handleOnline (fd : Int32) (data : Bytes) (loc : Locals) : ServerM Unit := do
  let (name, _) ← lookup fd
  if data = [] then
    let _ ← database fun t => updateUserStatus sql t name 0 (-1)
    notifyToOnelineUser sql fd (isOffline name)
    delFromEpoll fd
  else
    let recvBuff := filled data (List.replicate recvSize 0) ++ loc.mem
    notifyToOnelineUser sql fd (chatLine name (cstr recvBuff))

/-- How much a read asks for. -/
def readSize : State → ℕ
  | .request => requestSize
  | .authenticated => 4
  | .online => recvSize

/-- `data` is what arrives for `fd`; the read takes as much of it as it has room for. No data
stands for a read that returns nothing or fails. -/
def handleSingleSocketCon (fd : Int32) (data : Bytes) (loc : Locals) : ServerM Unit := do
  let (_, state) ← lookup fd
  let data := data.take (readSize state)
  match state with
  | .request => handleRequest sql fd data loc
  | .authenticated => handleAuthenticated sql fd data loc
  | .online => handleOnline sql fd data loc

/-- An event that `epoll_wait` reports: a connection is waiting, with what `accept` returns for
it, or a socket can be read. -/
inductive Event where
  | incoming (accepted : Int32)
  | readable (fd : Int32) (data : Bytes) (loc : Locals)

/-- A failed `accept` is turned into descriptor 0. -/
def accept (accepted : Int32) : Int32 := if accepted < 0 then 0 else accepted

/-- One turn of the loop in `HandleConnections`. -/
def handleEvent : Event → ServerM Unit
  | .incoming accepted =>
    let confd := accept accepted
    if confd = -1 then pure () else addSocketToEpoll confd
  | .readable fd data loc => handleSingleSocketCon sql fd data loc

/-- Only sockets that are registered are reported. -/
def Registered (s : Server) : Event → Prop
  | .incoming _ => True
  | .readable fd _ _ => fd ∈ s.epoll

instance (s : Server) : (e : Event) → Decidable (Registered s e)
  | .incoming _ => isTrue trivial
  | .readable _ _ _ => inferInstanceAs (Decidable (_ ∈ _))

/-- The server handles an event, and no exception escapes. -/
def Step (e : Event) (s s' : Server) : Prop := Registered s e ∧ handleEvent sql e s = .ok () s'

end

end SelfTraining.Chat
