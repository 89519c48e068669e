import Mathlib.Logic.Function.Basic
import ProtoCore.Service.ServiceServer

/-!
# A service client

The user's calls run one at a time under `usr_operation_mtx`, in several steps each. The
reader thread does not take that lock: it handles a reply or the end of the stream
between any two of them.
-/

set_option autoImplicit false

namespace ProtoCore.Service

inductive Outcome (Reply : Type) where
  | value (reply : Option Reply)
  | streamClose
  deriving DecidableEq, Repr

/-- Where the call under `usr_operation_mtx` stands. -/
inductive UserStep (Request : Type) where
  | idle
  | requestWrite (request : ServiceRPCRequest Request)
  | requestSent
  | requestFuture
  | cancelWrite
  | join
  deriving DecidableEq, Repr

/-- A client whose stream is open. Promises are numbered as they are created. The last
three fields record the history: the requests written, the futures that successful calls
of `request` have returned and the final replies received. -/
structure ServiceClient (Request Reply : Type) where
  connected : Bool
  requested : Bool
  status : ServiceCallStatus
  replyPromise : Nat
  retrieved : Bool
  completions : Nat → List (Outcome Reply)
  reading : Bool
  user : UserStep Request
  sent : List (ServiceRPCRequest Request)
  futures : List Nat
  finals : List (Option Reply)

inductive ClientAction (Request Reply : Type) where
  | request (payload : Request)
  | cancel
  | write (ok : Bool)
  | user
  | receive (reply : ServiceRPCReply Reply)
  | close
  deriving DecidableEq, Repr

/-- The statuses that end a call for the client. -/
def ServiceCallStatus.isFinal : ServiceCallStatus → Bool
  | .success | .failed | .aborted => true
  | .suspend | .process | .prompted => false

namespace ServiceClient

variable {Request Reply : Type}

/-- The state in which `create_connection` enters its loop. -/
def opened : ServiceClient Request Reply where
  connected := true
  requested := false
  status := .suspend
  replyPromise := 0
  retrieved := false
  completions _ := []
  reading := true
  user := .idle
  sent := []
  futures := []
  finals := []

/-- The guard of `request`. A call that it refuses returns false. -/
def request (client : ServiceClient Request Reply) (payload : Request) :
    Option (ServiceClient Request Reply) :=
  match client.user with
  | .idle =>
      if !client.connected || client.requested then some client
      else some { client with user := .requestWrite ⟨.pullNewReq, some payload⟩ }
  | _ => none

def cancel (client : ServiceClient Request Reply) : Option (ServiceClient Request Reply) :=
  match client.user with
  | .idle =>
      if !client.connected || !client.requested then some client
      else some { client with user := .cancelWrite }
  | _ => none

/-- The message that `stream_->Write` is called with. -/
def writing (client : ServiceClient Request Reply) : Option (ServiceRPCRequest Request) :=
  match client.user with
  | .requestWrite request => some request
  | .cancelWrite => some { setting := .setCanceled, payload := none }
  | _ => none

/-- `stream_->Write`. It cannot succeed after the stream has ended for the reader. -/
def write (client : ServiceClient Request Reply) (ok : Bool) :
    Option (ServiceClient Request Reply) :=
  if ok && !client.reading then none
  else
    match client.user with
    | .requestWrite request =>
        if ok then some { client with user := .requestSent, sent := client.sent ++ [request] }
        else some { client with user := .join }
    | .cancelWrite => some { client with user := if ok then .idle else .join }
    | _ => none

/-- The rest of `request` after its write, one line at a time, or the wait for the reader
thread. Taking the future of a promise a second time throws. -/
def userStep (client : ServiceClient Request Reply) : Option (ServiceClient Request Reply) :=
  match client.user with
  | .requestSent => some { client with requested := true, user := .requestFuture }
  | .requestFuture =>
      if client.retrieved then some { client with user := .idle }
      else some { client with
        retrieved := true
        futures := client.futures ++ [client.replyPromise]
        user := .idle }
  | .join => if client.reading then none else some { client with user := .idle }
  | _ => none

/-- The current promise is completed, and replaced by a new one. -/
def fulfil (client : ServiceClient Request Reply) (outcomes : List (Outcome Reply)) :
    ServiceClient Request Reply :=
  { client with
    completions := Function.update client.completions client.replyPromise
      (client.completions client.replyPromise ++ outcomes)
    replyPromise := client.replyPromise + 1
    retrieved := false
    requested := false }

def receive (client : ServiceClient Request Reply) (reply : ServiceRPCReply Reply) :
    Option (ServiceClient Request Reply) :=
  if client.reading then
    if reply.status.isFinal then
      some { client.fulfil [.value reply.payload] with
        status := reply.status
        finals := client.finals ++ [reply.payload] }
    else some { client with status := reply.status }
  else none

/-- The reader's loop at the end of the stream. -/
def close (client : ServiceClient Request Reply) : Option (ServiceClient Request Reply) :=
  if client.reading then
    some { client.fulfil (if client.requested then [.streamClose] else []) with
      connected := false
      reading := false }
  else none

def step (client : ServiceClient Request Reply) :
    ClientAction Request Reply → Option (ServiceClient Request Reply)
  | .request payload => client.request payload
  | .cancel => client.cancel
  | .write ok => client.write ok
  | .user => client.userStep
  | .receive reply => client.receive reply
  | .close => client.close

end ServiceClient

end ProtoCore.Service
