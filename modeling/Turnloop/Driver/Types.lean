import Turnloop.Timer.Heap

/-! What the driver, the backend and the host say to each other. -/

namespace Turnloop

open Table (Key)

abbrev Token := ℕ

inductive ErrorKind where
  | cancelled
  | unsupported
  | invalidInput
  | notFound
  | wouldBlock
  | timedOut
  | connectionRefused
  | connectionReset
  | brokenPipe
  | resourceLimit
  | permissionDenied
  | alreadyExists
  | notADirectory
  | isADirectory
  | directoryNotEmpty
  | other
  deriving DecidableEq

structure Error where
  kind : ErrorKind
  os : Option Int
  deriving DecidableEq

def Error.new (kind : ErrorKind) : Error := ⟨kind, none⟩

abbrev Result (α : Type) := Except Error α

structure Handle where
  owner : ℕ
  key : Key
  deriving DecidableEq

structure OpId where
  owner : ℕ
  key : Key
  deriving DecidableEq

inductive Filesystem where
  | pool
  | backend
  | unsupported
  deriving DecidableEq

structure Config where
  maxHandles : ℕ
  maxOperations : ℕ
  eventsPerTurn : ℕ
  pooledBufferSize : ℕ
  postCapacity : ℕ
  maxUndelivered : ℕ
  deriving DecidableEq

abbrev SocketAddr := ℕ
abbrev Payload := ℕ
abbrev ExitStatus := ℕ
abbrev Signal := ℕ
abbrev WaitResult := ℕ
abbrev FileMetadata := ℕ

abbrev Transport := ℕ

structure BufLease where
  buffer : ℕ
  len : ℕ
  deriving DecidableEq

def BufLease.setLen (lease : BufLease) (n : ℕ) : BufLease := { lease with len := n }

inductive Operation where
  | processExit
  | watchSignal
  | sendHandle (h : Handle)
  | recvHandle
  | connect
  | accept (multishot : Bool)
  | read (multishot : Bool)
  | write
  | writev
  | sendTo
  | recvFrom
  | shutdown
  | watchFs
  deriving DecidableEq

/-- A typed filesystem request: `Open` and `OpenDir`, those that name a file, and those that name a path. -/
inductive FsRequest where
  | opening
  | on (file : Handle)
  | path
  deriving DecidableEq

def FsRequest.handle : FsRequest → Option Handle
  | .on file => some file
  | .opening | .path => none

def FsRequest.opens : FsRequest → Bool
  | .opening => true
  | .on _ | .path => false

inductive FsOutput where
  | opened
  | read (n : ℕ)
  | wrote (n : ℕ)
  | metadata (m : FileMetadata)
  | directory (n : ℕ) (eof : Bool)
  | bytes (n : ℕ)
  | done
  deriving DecidableEq

inductive FsResult where
  | opened (h : Handle)
  | read (n : ℕ) (lease : Option BufLease)
  | wrote (n : ℕ)
  | metadata (m : FileMetadata)
  | directory (n : ℕ) (lease : Option BufLease) (eof : Bool)
  | bytes (n : ℕ) (lease : Option BufLease)
  | done
  deriving DecidableEq

inductive Outcome where
  | resolved (addresses : List SocketAddr)
  | exited (status : ExitStatus)
  | signal (signal : Signal)
  | pipeAccepted (transport : Transport)
  | handleReceived (transport : Transport)
  | handleSent
  | connected
  | accepted (transport : Transport) (peer : SocketAddr)
  | read (n : ℕ) (lease : Option BufLease)
  | eof
  | wrote (n : ℕ)
  | recvFrom (n : ℕ) (sender : SocketAddr) (lease : Option BufLease)
  | shutdown
  | watch (events : BufLease) (overflow : Bool)
  | fs (output : FsOutput) (lease : Option BufLease)
  | cancelled
  deriving DecidableEq

def Outcome.connection : Outcome → Bool
  | .pipeAccepted _ | .handleReceived _ | .accepted .. => true
  | _ => false

structure Event where
  op : OpId
  terminal : Bool
  result : Result Outcome
  deriving DecidableEq

def Event.connection (e : Event) : Bool :=
  match e.result with
  | .ok outcome => outcome.connection
  | .error _ => false

inductive OpResult where
  | fs (result : FsResult)
  | watch (events : BufLease) (overflow : Bool)
  | externalWait (result : WaitResult)
  | exited (status : ExitStatus)
  | signal (signal : Signal)
  | pipeAccepted (conn : Handle)
  | handleReceived (handle : Handle)
  | handleSent
  | connected
  | accepted (conn : Handle) (peer : SocketAddr)
  | read (n : ℕ) (lease : Option BufLease)
  | eof
  | wrote (n : ℕ)
  | recvFrom (n : ℕ) (sender : SocketAddr) (lease : Option BufLease)
  | shutdown
  | timer
  | posted (payload : Payload)
  | blocking (payload : Payload)
  | resolved (addresses : List SocketAddr)
  | cancelled
  | closed
  | stopped
  | err (error : Error)
  deriving DecidableEq

def OpResult.handle : OpResult → Option Handle
  | .fs (.opened h) | .pipeAccepted h | .handleReceived h | .accepted h _ => some h
  | _ => none

structure Completion where
  token : Token
  op : Option OpId
  handle : Option Handle
  terminal : Bool
  result : OpResult
  deriving DecidableEq

namespace Completion

def names (c : Completion) (h : Handle) : Prop := c.handle = some h ∨ c.result.handle = some h

def finishes (c : Completion) (id : OpId) : Prop := c.terminal = true ∧ c.op = some id

def closes (c : Completion) (h : Handle) : Prop := c.result = .closed ∧ c.handle = some h

instance (c : Completion) (h : Handle) : Decidable (c.names h) := inferInstanceAs (Decidable (_ ∨ _))

instance (c : Completion) (id : OpId) : Decidable (c.finishes id) := inferInstanceAs (Decidable (_ ∧ _))

instance (c : Completion) (h : Handle) : Decidable (c.closes h) := inferInstanceAs (Decidable (_ ∧ _))

end Completion

inductive WorkOutput where
  | fs (output : FsOutput)
  | externalWait (result : WaitResult)
  | blocking (payload : Payload)
  | resolved (addresses : List SocketAddr)
  deriving DecidableEq

/-- A result popped from the work port, with the lease that `files.complete` returns for a filesystem request. -/
structure WorkResult where
  op : OpId
  result : Result WorkOutput
  lease : Option BufLease
  deriving DecidableEq

structure Post where
  token : Token
  payload : Payload
  deriving DecidableEq

inductive Timeout where
  | now
  | after (d : Duration)
  | until (t : Instant)
  | forever
  deriving DecidableEq

def Timeout.deadline (now : Instant) : Timeout → Option Instant
  | .now => some now
  | .after d => checkedAdd now d
  | .until t => some t
  | .forever => none

structure PollInfo where
  waits : ℕ
  discoveryPolls : ℕ
  zeroEventWaits : ℕ
  deriving DecidableEq

structure TurnInfo where
  completions : ℕ
  waited : Duration
  alive : Bool
  osWaits : ℕ
  discoveryPolls : ℕ
  zeroEventWaits : ℕ
  deriving DecidableEq

inductive ChildEnd where
  | lent (source : Handle)
  | made
  | absent
  deriving DecidableEq

structure ChildFd where
  number : ℕ
  source : ChildEnd
  deriving DecidableEq

structure ProcessSpec where
  stdio : List ChildEnd
  extra : List ChildFd
  controllingTerminal : Bool
  detached : Bool
  deriving DecidableEq

def MAX_CHILD_FD : ℕ := 255

structure Process where
  handle : Handle
  pid : ℕ
  pipes : List (Option Handle)
  parents : List (Option Handle)
  deriving DecidableEq

end Turnloop
