import NetworkAccess.Library.Reaction
import NetworkAccess.Validator.Checker
import NetworkAccess.Validator.Requests

/-! What `main` of the validator does with its connection and with its checks.
-/

namespace NetworkAccess

/-- A call on the connection. -/
inductive NetworkCall where
  | write (bytes : Bytes)
  | getReply (answer : Except Failure EmulatorReply)
  | close
  | reconnected (succeeds : Bool)
deriving DecidableEq

/-- Why the validator ends before its report: one of its calls does not return, or `exit(1)`. -/
inductive Halt where
  | fails (failure : Failure)
  | exits
deriving DecidableEq

/-- A connection with the results of the coming writes, and of all writes behind them. A write that
does not fail is taken to send its bytes: the count that it returns is not looked at.
-/
structure Socket where
  connection : Connection
  writes : List (Option IoError)
  later : Option IoError

/-- The connection, what connecting again gives, and the checks. -/
structure Session where
  socket : Socket
  again : Option Socket
  checker : NWAChecker

/-- A part of the program, with its calls on the connection. It goes on with its value or ends the
program.
-/
abbrev Validator := StateT Session (Reaction NetworkCall Halt)

/-- What is done with the checks only. -/
abbrev Judging := StateT NWAChecker (Except Failure)

namespace Judging

/-- Begin a check. -/
def newCheck (shortDescription description : Bytes) : Judging Unit := fun checker =>
  .ok ((), checker.newCheck shortDescription description)

/-- Decide the current check. -/
def setPassed (passed : Bool) : Judging Unit := fun checker =>
  (checker.setPassed passed).map (fun checker => ((), checker))

/-- Decide the current check by whether the reply is a map. -/
def expectAsciiHash (reply : EmulatorReply) : Judging Bool :=
  NWAChecker.currentCheckExpectAsciiHash reply

/-- Decide the current check by whether the reply is the empty one. -/
def expectAsciiOk (reply : EmulatorReply) : Judging Bool :=
  NWAChecker.currentCheckExpectAsciiOk reply

/-- Decide the current check by whether the reply is a block of this size. -/
def expectBinaryBlock (reply : EmulatorReply) (size : Nat) : Judging Bool :=
  NWAChecker.currentCheckExpectBinaryBlock reply size

/-- Decide the current check by whether the reply is an error of this kind. -/
def expectError (reply : EmulatorReply) (kind : NWAErrorKind) : Judging Bool :=
  NWAChecker.currentCheckExpectError reply kind

/-- Add the sub-check about a key. -/
def addKeyCheck (reply : EmulatorReply) (key : Bytes) (value : Option Bytes)
    : Judging (Option Bytes) :=
  NWAChecker.currentCheckAddKeyCheck reply key value

/-- Add a sub-check that is already decided. -/
def addSubcheck (name description : Bytes) (passed : Bool) : Judging Unit := fun checker =>
  (checker.currentCheckAddSubcheck name description passed).map (fun checker => ((), checker))

end Judging

namespace Validator

variable {Value : Type}

/-- End the program. -/
def halt (reason : Halt) : Validator Value := fun _ => .stop [] reason

/-- End the program with a panic. -/
def panic : Validator Value := halt (.fails .panics)

/-- Do something with the checks; where that panics, the program does. -/
def judge (judging : Judging Value) : Validator Value := fun session =>
  match judging session.checker with
  | .ok (value, checker) => .emit [] (value, { session with checker })
  | .error failure => .stop [] (.fails failure)

/-- `TcpStream::write`. -/
def write (bytes : Bytes) : Validator (Option IoError) := fun session =>
  let socket := session.socket
  let rest := { socket with writes := socket.writes.tail }
  .emit [.write bytes] (socket.writes.head?.getD socket.later, { session with socket := rest })

/-- `get_reply`, which may also wait or panic. -/
def getReply : Validator (Except IoError EmulatorReply) := fun session =>
  let (answer, connection) := NetworkAccess.getReply session.socket.connection
  let after := { session with socket := { session.socket with connection } }
  match answer with
  | .ok reply => .emit [.getReply answer] (.ok reply, after)
  | .error (.io error) => .emit [.getReply answer] (.error error, after)
  | .error failure => .stop [.getReply answer] (.fails failure)

/-- `execute_command`: no reply is read if the write fails. -/
def executeCommand (cmd : Bytes) (argString : Option Bytes)
    : Validator (Except IoError EmulatorReply) := do
  match ← write (executeRawCommand cmd argString) with
  | some error => pure (.error error)
  | none => getReply

/-- `execute_raw_command` does not look at the result of its write. -/
def executeRaw (cmd : Bytes) (argString : Option Bytes) : Validator Unit := do
  let _ ← write (executeRawCommand cmd argString)

/-- `send_data`, which does not look at the results of its two writes either. -/
def sendBlock (data : Bytes) : Validator Unit := do
  let _ ← write (blockHeader data.length)
  let _ ← write data

/-- Writing to a socket that was shut down fails. -/
def close : Validator Unit := fun session =>
  let shut := { session.socket with writes := [], later := some ⟨.other, ascii "Broken pipe"⟩ }
  .emit [.close] ((), { session with socket := shut })

/-- `reconnected`, whose result is not looked at: when it fails, the old connection stays. -/
def reconnected : Validator Unit := fun session =>
  .emit [.reconnected session.again.isSome]
    ((), { session with socket := session.again.getD session.socket })

/-- `expect("Error with socket")`. -/
def expectReply : Except IoError EmulatorReply → Validator EmulatorReply
  | .ok reply => pure reply
  | .error _ => panic

/-- `execute_command` with `expect`. -/
def ask (cmd : Bytes) (argString : Option Bytes) : Validator EmulatorReply := do
  expectReply (← executeCommand cmd argString)

end Validator
end NetworkAccess
