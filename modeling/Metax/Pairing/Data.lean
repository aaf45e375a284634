import Metax.Library.Ledger
import Metax.Library.Run
import Metax.Protocol.LinkData

/-!
# Pairing

A user moves the keys to another device by starting a pairing session: the link task opens a server
socket and generates a code, and a client that presents the code is sent the keys. The session ends
when its timer expires or when it is cancelled.

Three kinds of threads share `m_pairing_socket` and `m_generated_code`: the link task, which starts
and cancels, the timer, which runs `on_expired_start_pairing`, and one thread for each connection.
An `Event` is one step of one of them, with a shared variable read or written in it; a step that is
not possible has no result. Connections go on when the server has stopped.

The sockets and the cryptography of the connection are left out, and so are the texts of the
messages: a client says a code or something else.
-/

namespace Metax

namespace Pairing

/-- The identity of a connection. -/
abbrev ConnectionId := ℕ

/-- Where the end of a session stands, in `on_expired_start_pairing` and in `cancel_pairing`: the
pointer was found set, the server was stopped, the pointer was reset. The code is cleared last. -/
inductive Ending
  | idle
  | entered
  | stopped
  | released
  deriving DecidableEq

/-- Where the link task stands. -/
inductive LinkTask
  | idle
  /-- In `handle_config_start_pairing`, with the socket created. -/
  | created
  /-- And with the code sent to the user. -/
  | coded
  /-- In `cancel_pairing`. -/
  | cancelling (e : Ending)
  deriving DecidableEq

/-- Where `newConnection::run` stands. -/
inductive Connection
  /-- The handshake is sent. -/
  | connected
  /-- The code was found not to be empty. -/
  | waiting
  /-- The message of the client is there. -/
  | presented (code : Bytes)
  /-- Its code was found to be the generated one. -/
  | matched (code : Bytes)
  | closed
  deriving DecidableEq

/-- The connection is about to send the keys. -/
def Connection.isMatched : Connection → Bool
  | matched _ => true
  | _ => false

/-- The keys were sent: to whom, for which code, and the code of the session that was open. -/
structure Transfer where
  client : ConnectionId
  code : Bytes
  openCode : Option Bytes
  deriving DecidableEq

/-- The shared variables and where the threads stand. `serverRuns` and `issued` describe the open
session: its server accepts connections, and its code was given to the user. -/
structure State where
  pairingSocket : Bool
  generatedCode : Bytes
  serverRuns : Bool
  issued : Option Bytes
  timerStarted : Bool
  timer : Ending
  linkTask : LinkTask
  connections : Ledger.Table ConnectionId Connection
  sent : List Transfer
  deriving DecidableEq

/-- Steps of the threads. -/
inductive Event
  | startPairing
  | sendGeneratedCode (code : Bytes)
  | startTimer (started : Bool)
  | cancelPairing
  | cancelStop
  | cancelRelease
  | cancelClear
  | timerExpires
  | timerStop
  | timerRelease
  | timerClear
  | accept (c : ConnectionId)
  | checkCode (c : ConnectionId)
  | readMessage (c : ConnectionId) (message : Received)
  | compare (c : ConnectionId)
  | sendUserKeys (c : ConnectionId)
  | fail (c : ConnectionId)

/-- The characters of `generate_code`. -/
def alphanum : Bytes :=
  "0123456789ABCDEFGHIJKLMNOPQRSTUVWXYZabcdefghijklmnopqrstuvwxyz".toList.map fun c =>
    c.toNat.toUInt8

/-- What `generate_code (7)` can give. -/
def IsCode (code : Bytes) : Prop := code.length = 7 ∧ ∀ b ∈ code, b ∈ alphanum

instance (code : Bytes) : Decidable (IsCode code) :=
  have : Decidable (∀ b ∈ code, b ∈ alphanum) := List.decidableBAll _ _
  inferInstanceAs (Decidable (_ ∧ _))

namespace State

/-- Nothing was started yet. -/
def init : State := ⟨false, [], false, none, false, .idle, .idle, ∅, []⟩

variable (s : State)

/-- The code of the session that is open. -/
def openCode : Option Bytes := if s.serverRuns then s.issued else none

/-- Let a connection go on. -/
def setConnection (c : ConnectionId) (x : Connection) : State :=
  { s with connections := s.connections.insert c x }

/-- The beginning of `handle_config_start_pairing`. With a session open, or when the port is taken,
nothing else happens. -/
def startPairing : Option State :=
  if s.linkTask = .idle ∧ s.pairingSocket = false then
    some { s with pairingSocket := true, serverRuns := true, issued := none, linkTask := .created }
  else none

/-- `send_generated_code`. -/
def sendGeneratedCode (code : Bytes) : Option State :=
  if s.linkTask = .created ∧ IsCode code then
    some { s with generatedCode := code, issued := some code, linkTask := .coded }
  else none

/-- The end of `handle_config_start_pairing`: `stop` waits for a callback that is running, `start`
may find no thread. -/
def startTimer (started : Bool) : Option State :=
  if s.linkTask = .coded ∧ s.timer = .idle then
    some { s with timerStarted := started, linkTask := .idle }
  else none

/-- The beginning of `cancel_pairing`: the timer is stopped. -/
def cancelPairing : Option State :=
  if s.linkTask = .idle ∧ s.timer = .idle then
    some { s with
      timerStarted := false
      linkTask := if s.pairingSocket then .cancelling .entered else .idle }
  else none

/-- The end of a session, one statement after the other. -/
def stopServer : State := { s with serverRuns := false }

/-- The pointer is reset. -/
def releaseSocket : State := { s with pairingSocket := false }

/-- The code is cleared. -/
def clearCode : State := { s with generatedCode := [] }

/-- The statements of `cancel_pairing`. -/
def cancelStep (e : Ending) (next : LinkTask) (f : State → State) : Option State :=
  if s.linkTask = .cancelling e then some { f s with linkTask := next } else none

/-- The timer calls `on_expired_start_pairing`, once. -/
def timerExpires : Option State :=
  if s.timerStarted ∧ s.timer = .idle then
    some { s with timerStarted := false, timer := if s.pairingSocket then .entered else .idle }
  else none

/-- The statements of `on_expired_start_pairing`. -/
def timerStep (e e' : Ending) (f : State → State) : Option State :=
  if s.timer = e then some { f s with timer := e' } else none

/-- A new connection. -/
def accept (c : ConnectionId) : Option State :=
  if s.serverRuns ∧ c ∉ s.connections then some (s.setConnection c .connected) else none

/-- `m_generated_code.empty()`. -/
def checkCode (c : ConnectionId) : Option State :=
  if s.connections.lookup c = some .connected then
    some (s.setConnection c (if s.generatedCode = [] then .closed else .waiting))
  else none

/-- `read_message` and `extract_header`: the code is what the client says. -/
def readMessage (c : ConnectionId) (message : Received) : Option State :=
  if s.connections.lookup c = some .waiting then
    some (s.setConnection c
      (.presented (KeyTransfer.extractHeader.run message.memory (.start 0)).1.code))
  else none

/-- `ktp.code == m_generated_code`. -/
def compare (c : ConnectionId) : Option State :=
  match s.connections.lookup c with
  | some (.presented code) =>
    some (s.setConnection c (if code = s.generatedCode then .matched code else .closed))
  | _ => none

/-- `send_user_keys`. -/
def sendUserKeys (c : ConnectionId) : Option State :=
  match s.connections.lookup c with
  | some (.matched code) =>
    some { s.setConnection c .closed with sent := s.sent ++ [⟨c, code, s.openCode⟩] }
  | _ => none

/-- An exception in a connection. -/
def fail (c : ConnectionId) : Option State :=
  if c ∈ s.connections then some (s.setConnection c .closed) else none

/-- One step of one thread. -/
def step : Event → Option State
  | .startPairing => s.startPairing
  | .sendGeneratedCode code => s.sendGeneratedCode code
  | .startTimer started => s.startTimer started
  | .cancelPairing => s.cancelPairing
  | .cancelStop => s.cancelStep .entered (.cancelling .stopped) stopServer
  | .cancelRelease => s.cancelStep .stopped (.cancelling .released) releaseSocket
  | .cancelClear => s.cancelStep .released .idle clearCode
  | .timerExpires => s.timerExpires
  | .timerStop => s.timerStep .entered .stopped stopServer
  | .timerRelease => s.timerStep .stopped .released releaseSocket
  | .timerClear => s.timerStep .released .idle clearCode
  | .accept c => s.accept c
  | .checkCode c => s.checkCode c
  | .readMessage c message => s.readMessage c message
  | .compare c => s.compare c
  | .sendUserKeys c => s.sendUserKeys c
  | .fail c => s.fail c

end State

end Pairing

end Metax
