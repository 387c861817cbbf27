import SelfTraining.Chat.Server

/-!
The client: the states of `HandleConnection`, with a state of its own for each of the two
places where it waits in `read`, and the messages it sends.
-/

namespace SelfTraining.Chat

open SelfTraining.Text

/-- Where a client stands. `SENREQUEST` and `SELECTCHATOPT` are split at their `read`. -/
inductive Phase where
  | sendRequest
  | awaitResponse
  | selectChatOpt
  | awaitOption
  | online
  | exited
  deriving DecidableEq

/-- `Response res = SUCCESS` before the read puts `data` over it. -/
def readResponse (data : Bytes) : Response := ofLeBytes (filled data (leBytes success))

/-- After the response to a request: on to the options, or back to the menu. -/
def Phase.afterResponse (data : Bytes) : Phase :=
  if readResponse data = success then .selectChatOpt else .sendRequest

/-- After the option is sent: a client that chose an option past 3 leaves. -/
def Phase.afterOption (option : UInt8) : Phase := if 3 < option then .exited else .awaitOption

/-- `MSG_SIZE - 1`: the longest line that `wgetnstr` takes. -/
def maxLine : ℕ := 255

/-- A typed line: no zero byte, and no longer than the buffer. -/
def Line (line : Bytes) : Prop := 0 ∉ line ∧ line.length ≤ maxLine

instance (line : Bytes) : Decidable (Line line) := inferInstanceAs (Decidable (_ ∧ _))

/-- `Client::Send` sends a line with the zero byte that ends it. -/
def sendLine (line : Bytes) : Bytes := line ++ [0]

/-- `Client::Recv` reads into a buffer of this size. -/
def bufferSize : ℕ := 256

end SelfTraining.Chat
