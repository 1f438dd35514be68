import Turnloop.Mongodb.Bson

/-! Server discovery and monitoring. -/

namespace Turnloop.Mongodb

inductive ServerType
  | unknown | possiblePrimary | standalone | mongos | rsPrimary | rsSecondary | rsArbiter | rsOther | rsGhost
  deriving DecidableEq

inductive TopologyType
  | unknown | single | replicaSetNoPrimary | replicaSetWithPrimary | sharded
  deriving DecidableEq

def TopologyType.isReplicaSet : TopologyType → Bool
  | .replicaSetNoPrimary | .replicaSetWithPrimary => true
  | _ => false

-- Instants and durations are counted in nanoseconds.
structure Server where
  kind : ServerType
  setName : Option String
  hosts : List String
  me : Option String
  primary : Option String
  setVersion : Option ℤ
  electionId : Option ObjectId
  minWireVersion : ℤ
  maxWireVersion : ℤ
  sessionTimeout : Option ℤ
  topologyVersion : Option Document
  error : Option String
  generation : ℕ
  rtt : Option ℕ
  lastUpdate : ℕ
  lastWriteMs : Option ℤ
  tags : Std.TreeMap String String
  nextCheck : Option ℕ
  helloOk : Bool
  operationCount : ℕ

/-- From the language's library: `str::to_lowercase`, and `old.mul_f64(0.8) + rtt.mul_f64(0.2)`. -/
structure Platform where
  toLowercase : String → String
  average : ℕ → ℕ → ℕ

variable (env : Platform)

namespace Server

def unknown (now generation : ℕ) : Server where
  kind := .unknown
  setName := none
  hosts := []
  me := none
  primary := none
  setVersion := none
  electionId := none
  minWireVersion := 0
  maxWireVersion := 0
  sessionTimeout := none
  topologyVersion := none
  error := none
  generation := generation
  rtt := none
  lastUpdate := now
  lastWriteMs := none
  tags := ∅
  nextCheck := some now
  helloOk := false
  operationCount := 0

def outdated (s : Server) : Server := { s with generation := s.generation + 1 }

def parseKind (d : Document) : ServerType :=
  if Document.getStr d "msg" = some "isdbgrid" then .mongos
  else if Document.getBool d "isreplicaset" = some true then .rsGhost
  else if Document.containsKey d "setName" then
    if Document.getBool d "hidden" = some true then .rsOther
    else if ((Document.getBool d "isWritablePrimary").or (Document.getBool d "ismaster")).getD false then .rsPrimary
    else if Document.getBool d "secondary" = some true then .rsSecondary
    else if Document.getBool d "arbiterOnly" = some true then .rsArbiter
    else .rsOther
  else .standalone

def parseHosts (d : Document) : List String :=
  ["hosts", "passives", "arbiters"].flatMap fun key =>
    ((Document.getArray d key).getD []).filterMap fun b => b.asStr.map env.toLowercase

def parseTags (d : Document) : Std.TreeMap String String :=
  match Document.getDocument d "tags" with
  | some tags => Std.TreeMap.ofList (tags.filterMap fun kv => kv.2.asStr.map fun s => (kv.1, s))
  | none => ∅

def parse (d : Document) (now : ℕ) (old : Server) (rtt heartbeat : ℕ) : Server :=
  if !Document.succeeded d then
    { unknown now old.generation with
      nextCheck := some (now + heartbeat)
      helloOk := (Document.getBool d "helloOk").getD false
      error := some ((Document.getStr d "errmsg").getD "hello failed") }
  else
    { kind := parseKind d
      setName := Document.getStr d "setName"
      hosts := parseHosts env d
      me := (Document.getStr d "me").map env.toLowercase
      primary := (Document.getStr d "primary").map env.toLowercase
      setVersion := Document.getI32 d "setVersion"
      electionId := Document.getObjectId d "electionId"
      minWireVersion := (Document.getI32 d "minWireVersion").getD 0
      maxWireVersion := (Document.getI32 d "maxWireVersion").getD 0
      sessionTimeout := Document.integer d "logicalSessionTimeoutMinutes"
      topologyVersion := Document.getDocument d "topologyVersion"
      error := none
      generation := old.generation
      rtt := some (old.rtt.elim rtt fun before => env.average before rtt)
      lastUpdate := now
      lastWriteMs := (Document.getDocument d "lastWrite").bind fun w => Document.getDatetime w "lastWriteDate"
      tags := parseTags d
      nextCheck := some (now + heartbeat)
      helloOk := (Document.getBool d "helloOk").getD false
      operationCount := old.operationCount }

end Server

inductive TopologyEvent
  | check (address : String) (hello : Bool)
  | serverAdded (address : String)
  | serverRemoved (address : String)
  | serverChanged (address : String)
  | topologyChanged (kind : TopologyType)
  | clearPool (address : String) (generation : ℕ)

structure Topology where
  kind : TopologyType
  setName : Option String
  servers : Std.TreeMap String Server
  maxSetVersion : Option ℤ
  maxElectionId : Option ObjectId
  heartbeat : ℕ
  seedCount : ℕ
  events : List TopologyEvent

structure Address where
  host : String
  port : ℕ

def Address.authority (a : Address) : String :=
  if a.host.toList.contains ':' then "[" ++ a.host ++ "]:" ++ toString a.port else a.host ++ ":" ++ toString a.port

structure Options where
  direct : Bool
  replicaSet : Option String
  seeds : List Address
  heartbeat : ℕ

/-- `incoming` is older than `current`, or with `equal` not newer: versions of one process compare by counters. -/
def older (current incoming : Option Document) (equal : Bool) : Bool :=
  match current, incoming with
  | some c, some i =>
    if Document.getObjectId c "processId" ≠ Document.getObjectId i "processId" then false
    else match Document.integer c "counter", Document.integer i "counter" with
      | some c, some i => if equal then decide (c ≥ i) else decide (c > i)
      | _, _ => false
  | _, _ => false

namespace Topology

def new (options : Options) (now : ℕ) : Topology where
  kind := if options.direct then .single else if options.replicaSet.isSome then .replicaSetNoPrimary else .unknown
  setName := options.replicaSet
  servers := options.seeds.foldl (fun servers a => servers.insert a.authority (Server.unknown now 0)) ∅
  maxSetVersion := none
  maxElectionId := none
  heartbeat := options.heartbeat
  seedCount := options.seeds.length
  events := []

variable (t : Topology)

def push (event : TopologyEvent) : Topology := { t with events := t.events ++ [event] }

def put (address : String) (s : Server) : Topology := { t with servers := t.servers.insert address s }

def addHost (now : ℕ) (host : String) : Topology :=
  if host ∈ t.servers then t else (t.put host (Server.unknown now 0)).push (.serverAdded host)

def addHosts (hosts : List String) (now : ℕ) : Topology := hosts.foldl (addHost · now) t

def remove (address : String) : Topology :=
  if address ∈ t.servers then { t with servers := t.servers.erase address }.push (.serverRemoved address) else t

def checkPrimary : Topology :=
  { t with kind :=
      if t.servers.toList.any fun (_, s) => s.kind = .rsPrimary then .replicaSetWithPrimary else .replicaSetNoPrimary }

def recheck : Topology := if t.kind.isReplicaSet then t.checkPrimary else t

def stale (s : Server) : Bool :=
  if s.maxWireVersion ≥ 17 then decide (ranked s.electionId s.setVersion < ranked t.maxElectionId t.maxSetVersion)
  else
    s.setVersion.isSome && s.electionId.isSome && t.maxSetVersion.isSome && t.maxElectionId.isSome &&
      decide (ranked s.setVersion s.electionId < ranked t.maxSetVersion t.maxElectionId)

def putUnknown (address : String) (now generation : ℕ) (error : Option String) : Topology :=
  t.put address { Server.unknown now generation with nextCheck := some (now + t.heartbeat), error := error }

def recordMaxima (s : Server) : Topology :=
  if s.maxWireVersion ≥ 17 then { t with maxElectionId := s.electionId, maxSetVersion := s.setVersion }
  else
    { t with
      maxElectionId := if s.electionId.isSome && s.setVersion.isSome then s.electionId else t.maxElectionId
      maxSetVersion := max (t.maxSetVersion : WithBot ℤ) s.setVersion }

def demoteOthers (address : String) (now : ℕ) : Topology :=
  { t with servers := t.servers.map fun a other =>
      if a ≠ address ∧ other.kind = .rsPrimary then
        { Server.unknown now other.generation with
          error := some "primary marked stale due to discovery of newer primary" }
      else other }

def keepOnly (hosts : List String) : Topology :=
  (t.servers.keys.filter fun a => !hosts.contains a).foldl remove t

def acceptPrimary (address : String) (s : Server) (now : ℕ) : Topology :=
  (((t.recordMaxima s).demoteOthers address now).addHosts s.hosts now).keepOnly s.hosts

def receivePrimary (address : String) (s : Server) (now : ℕ) : Topology :=
  if t.stale s then
    t.putUnknown address now s.generation (some "primary marked stale due to electionId/setVersion mismatch")
  else t.acceptPrimary address s now

def hintPrimary (primary : Option String) : Topology :=
  match primary with
  | none => t
  | some address =>
    match t.servers[address]? with
    | none => t
    | some p => if p.kind = .unknown then t.put address { p with kind := .possiblePrimary } else t

def receiveMember (address : String) (s : Server) (now : ℕ) : Topology :=
  let known := if t.kind ≠ .replicaSetWithPrimary then (t.addHosts s.hosts now).hintPrimary s.primary else t
  if s.me.any fun me => me ≠ address then known.remove address else known

def learnName (s : Server) : Topology := if t.setName.isNone then { t with setName := s.setName } else t

def receiveInSet (address : String) (s : Server) (now : ℕ) : Topology :=
  if t.setName ≠ s.setName then t.remove address
  else if s.kind = .rsPrimary then t.receivePrimary address s now
  else t.receiveMember address s now

def becomeSet : Topology := if t.kind = .unknown then { t with kind := .replicaSetNoPrimary } else t

def discover (address : String) (s : Server) (now : ℕ) : Topology :=
  match s.kind with
  | .standalone => if t.kind = .unknown ∧ t.seedCount = 1 then { t with kind := .single } else t.remove address
  | .mongos => if t.kind = .unknown then { t with kind := .sharded } else t.remove address
  | .rsPrimary | .rsSecondary | .rsArbiter | .rsOther => ((t.learnName s).receiveInSet address s now).becomeSet
  | .unknown | .possiblePrimary | .rsGhost => t

def classify (address : String) (s : Server) (now : ℕ) : Topology :=
  match t.kind with
  | .single => if t.setName.isSome ∧ t.setName ≠ s.setName then t.putUnknown address now s.generation none else t
  | .sharded => if s.kind = .unknown ∨ s.kind = .mongos then t else t.remove address
  | .unknown | .replicaSetNoPrimary | .replicaSetWithPrimary => (t.discover address s now).recheck

def announce (before : TopologyType) (address : String) : Topology :=
  let told := if address ∈ t.servers then t.push (.serverChanged address) else t
  if before ≠ told.kind then told.push (.topologyChanged told.kind) else told

def record (address : String) (s : Server) (now : ℕ) : Topology :=
  ((t.put address s).classify address s now).announce t.kind address

/-- A hello that failed outdates the connections made before it. -/
def receive (address : String) (s : Server) (now : ℕ) : Topology :=
  if s.kind = .unknown then (t.push (.clearPool address s.outdated.generation)).record address s.outdated now
  else t.record address s now

def update (address : String) (hello : Document) (now rtt : ℕ) : Topology :=
  match t.servers[address.toLower]? with
  | none => t
  | some old =>
    if older old.topologyVersion (Document.getDocument hello "topologyVersion") false then t
    else t.receive address.toLower (Server.parse env hello now old rtt t.heartbeat) now

end Topology

inductive ApplicationErrorKind
  | command | network | timeout
  deriving DecidableEq

structure ApplicationError where
  generation : ℕ
  maxWireVersion : ℤ
  handshakeComplete : Bool
  kind : ApplicationErrorKind
  response : Option Document

namespace ApplicationError

variable (e : ApplicationError)

def topologyVersion : Option Document := e.response.bind fun d => Document.getDocument d "topologyVersion"

def detail : Option Document :=
  (e.response.bind fun d => Document.getDocument d "writeConcernError").or e.response

def code : Option ℤ := e.detail.bind fun d => Document.getI32 d "code"

def message : String := (e.detail.bind fun d => Document.getStr d "errmsg").getD ""

def mentions (text : String) : Bool := decide (text.toList <:+: e.message.toList)

def stateChange : Bool :=
  match e.code with
  | some c => [11600, 11602, 13436, 189, 91, 10107, 13435, 10058].contains c
  | none => e.mentions "not master" || e.mentions "not primary" || e.mentions "node is recovering"

def clears : Bool :=
  e.kind != .command || !e.handshakeComplete || e.code = some 11600 || e.code = some 91 || e.maxWireVersion < 8

end ApplicationError

namespace Topology

variable (t : Topology)

def faulty (s : Server) (e : ApplicationError) (now : ℕ) : Server :=
  { Server.unknown now (s.generation + e.clears.toNat) with
    error := some e.message
    topologyVersion := if e.stateChange then e.topologyVersion else none
    nextCheck := some (now + 500000000) }

def fault (address : String) (s : Server) (e : ApplicationError) (now : ℕ) : Topology :=
  if e.clears then
    ((t.put address (faulty s e now)).push (.clearPool address (faulty s e now).generation)).recheck
  else (t.put address (faulty s e now)).recheck

def applicationError (address : String) (e : ApplicationError) (now : ℕ) : Topology :=
  match t.servers[address]? with
  | none => t
  | some s =>
    if e.generation < s.generation || older s.topologyVersion e.topologyVersion true then t
    else if e.kind = .timeout ∧ !e.stateChange then t
    else if e.stateChange ∨ e.kind = .network ∨ !e.handshakeComplete then t.fault address s e now
    else t

def due (s : Server) (now : ℕ) : Bool := s.nextCheck.any (· ≤ now)

def handleTimeout (now : ℕ) : Topology :=
  { t with
    servers := t.servers.map fun _ s => if due s now then { s with nextCheck := none } else s
    events := t.events ++ t.servers.toList.filterMap fun (a, s) =>
      if due s now then some (.check a s.helloOk) else none }

def hasten (s : Server) (now : ℕ) : Server :=
  { s with
    nextCheck :=
      some (s.nextCheck.elim (max (s.lastUpdate + 500000000) now) (min (max (s.lastUpdate + 500000000) now))) }

def requestCheck (now : ℕ) : Topology := { t with servers := t.servers.map fun _ s => hasten s now }

def pollEvent : Topology × Option TopologyEvent :=
  ({ t with events := t.events.tail }, t.events.head?)

end Topology

inductive TopologyCall
  | update (address : String) (hello : Document) (now rtt : ℕ)
  | applicationError (address : String) (e : ApplicationError) (now : ℕ)
  | handleTimeout (now : ℕ)
  | requestCheck (now : ℕ)
  | pollEvent

namespace Topology

def exec (t : Topology) : TopologyCall → Topology
  | .update address hello now rtt => t.update env address hello now rtt
  | .applicationError address e now => t.applicationError address e now
  | .handleTimeout now => t.handleTimeout now
  | .requestCheck now => t.requestCheck now
  | .pollEvent => t.pollEvent.1

def run (t : Topology) (calls : List TopologyCall) : Topology := calls.foldl (exec env) t

end Topology

end Turnloop.Mongodb
