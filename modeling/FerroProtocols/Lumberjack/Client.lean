import FerroProtocols.Lumberjack.Protocol

/-! The client: building the bytes of a window, classifying its ack, and failing over between hosts. -/

namespace FerroProtocols.Lumberjack

/-- How an operation under a timeout ends. -/
inductive Outcome (α : Type) where
  | timedOut
  | failed (error : IoError)
  | done (value : α)

/-- The error of an operation under its own name, or its value. -/
def Outcome.await {α : Type} (operation : String) : Outcome α → Except ProtocolError α
  | .timedOut => .error (.timeout operation)
  | .failed error => .error (.io error)
  | .done value => .ok value

/-- The six bytes a read of an ack fills. -/
structure AckBytes where
  bytes : Bytes
  exact : bytes.length = 6

/-- How the network answers one attempt to send a window. -/
structure Attempt where
  connect : Outcome Unit
  -- Whether the host names a valid TLS server, or why it does not.
  serverName : Except String Unit
  tlsHandshake : Outcome Unit
  write : Outcome Unit
  flush : Outcome Unit
  ack : Outcome AckBytes

/-- An open connection: the host it was opened to, and what has been written to it. -/
structure Connection where
  host : String
  written : Bytes
  deriving DecidableEq

/-- A client and the state it keeps between batches. -/
structure Client where
  hosts : List String
  loadBalance : Bool
  compressionLevel : UInt32
  hostCursor : UInt64
  seq : Sequence
  connection : Option Connection
  tls : Bool
  -- Connecting refuses an empty list of hosts.
  configured : hosts ≠ []
  -- A vector holds fewer elements than half of the address space.
  addressable : hosts.length < 2 ^ 63

/-- The data frames of a batch, numbered from the one after the base. -/
def dataFrames (baseSeq : Sequence) (events : List Bytes) : Bytes :=
  (events.zipIdx.map fun (event, i) =>
    encodeJsonFrame (baseSeq.advance (u32OfLength i + 1)).value event).flatten

/-- The bytes of a window: its header, and its data frames or a batch that holds them. -/
def buildWindowPayload (zlib : Zlib) (compressionLevel : UInt32) (events : List Bytes)
    (baseSeq : Sequence) : Bytes :=
  let inner := dataFrames baseSeq events
  let header := encodeWindow (u32OfLength events.length)
  if compressionLevel > 0 then
    match encodeCompressed zlib compressionLevel inner with
    -- Compression is used only when it shrinks the bytes.
    | .ok compressed =>
      if compressed.length < inner.length then header ++ compressed else header ++ inner
    | .error _ => header ++ inner
  else header ++ inner

/-- What six bytes received in answer to a window acknowledge. -/
def classifyAck (ack : AckBytes) (baseSeq count : UInt32) : Except ProtocolError UInt32 :=
  let expectedSeq := baseSeq + count
  let version := ack.bytes.getD 0 0
  let frameType := ack.bytes.getD 1 0
  let ackedSeq := (BigEndian.wordAt ack.bytes 2).getD 0
  if version ≠ protocolVersion ∨ frameType ≠ frameTypeAck then
    .error (.unexpectedAck version frameType ackedSeq expectedSeq)
  else if (Sequence.mk expectedSeq).isExactlyAckedBy ackedSeq then .ok count
  else
    let ackedCount := ackedSeq - baseSeq
    if ackedCount = 0 ∨ ackedCount > count then
      .error (.unexpectedAck version frameType ackedSeq expectedSeq)
    else .error (.partialAck ackedCount count)

namespace Client

/-- The host the cursor selects; load balancing moves the cursor on with every pick. -/
def pickHost (client : Client) : String × Client :=
  let host := client.hosts.getD (client.hostCursor.toNat % client.hosts.length) ""
  if client.loadBalance then (host, { client with hostCursor := client.hostCursor + 1 })
  else (host, client)

/-- Connect to the host that is picked. -/
def reconnect (attempt : Attempt) (client : Client) : Except ProtocolError Unit × Client :=
  let (host, picked) := client.pickHost
  match attempt.connect.await "connect" with
  | .error error => (.error error, picked)
  | .ok () =>
    if picked.tls then
      match attempt.serverName with
      | .error message => (.error (.tls message), picked)
      | .ok () =>
        match attempt.tlsHandshake.await "tls handshake" with
        | .error error => (.error error, picked)
        | .ok () => (.ok (), { picked with connection := some ⟨host, []⟩ })
    else (.ok (), { picked with connection := some ⟨host, []⟩ })

/-- Write a window on an open connection and classify the ack that comes back. -/
def exchange (attempt : Attempt) (client : Client) (conn : Connection) (payload : Bytes)
    (baseSeq count : UInt32) : Except ProtocolError UInt32 × Client :=
  match attempt.write.await "write" with
  | .error error => (.error error, client)
  | .ok () =>
    let sent := { client with
      connection := some { conn with written := conn.written ++ payload } }
    match attempt.flush.await "flush" with
    | .error error => (.error error, sent)
    | .ok () =>
      match attempt.ack.await "ack" with
      | .error error => (.error error, sent)
      | .ok ack => (classifyAck ack baseSeq count, sent)

/-- One attempt against the selected host: connect if needed, write the window, await the ack. -/
def sendPayloadOnce (attempt : Attempt) (client : Client) (payload : Bytes)
    (baseSeq count : UInt32) : Except ProtocolError UInt32 × Client :=
  match client.connection with
  | some conn => exchange attempt client conn payload baseSeq count
  | none =>
    match client.reconnect attempt with
    | (.error error, after) => (.error error, after)
    | (.ok (), after) =>
      match after.connection with
      | some conn => exchange attempt after conn payload baseSeq count
      -- The source expects the connection that a successful reconnect has just stored.
      | none => (.error .noHostsConfigured, after)

/-- The host an attempt goes to: the one still connected, or the one that would be picked. -/
def target (client : Client) : String :=
  match client.connection with
  | some conn => conn.host
  | none => client.pickHost.1

/-- What sending a batch returned, the client it left, and the hosts its attempts went to. -/
structure Sent where
  result : Except ProtocolError UInt32
  client : Client
  tried : List String

/-- Drop the connection after a failed attempt and move the cursor to another host. -/
def giveUp (client : Client) : Client :=
  { client with connection := none, hostCursor := client.hostCursor + 1 }

/-- Attempts that are left, one after the other until one succeeds. -/
def sendAttempts (network : Nat → Attempt) (payload : Bytes) (baseSeq count : UInt32) :
    Nat → Nat → Option ProtocolError → Client → Sent
  | 0, _, lastErr, client =>
    ⟨.error (.allHostsFailed (lastErr.getD .noHostsConfigured)), client, []⟩
  | left + 1, number, _, client =>
    match client.sendPayloadOnce (network number) payload baseSeq count with
    | (.ok acked, after) => ⟨.ok acked, after, [client.target]⟩
    | (.error error, after) =>
      let later :=
        sendAttempts network payload baseSeq count left (number + 1) (some error) after.giveUp
      { later with tried := client.target :: later.tried }

/--
Send a batch as one window, with up to one attempt for each configured host.

There is no answer for a batch whose size is not a 32-bit word: the source aborts the call.
-/
def sendJson (zlib : Zlib) (network : Nat → Attempt) (client : Client) (events : List Bytes) :
    Option Sent :=
  if events.isEmpty then some ⟨.ok 0, client, []⟩
  else if u32Max < events.length then none
  else
    let count := UInt32.ofNat events.length
    -- The sequence range is reserved before anything is sent, and is not given back.
    let reserved := { client with seq := client.seq.advance count }
    let payload := buildWindowPayload zlib client.compressionLevel events client.seq
    some (sendAttempts network payload client.seq.value count client.hosts.length 0 none reserved)

end Client

/-- Open a connection to the first host and return a client ready to send. -/
def ClientBuilder.connect (attempt : Attempt) (hosts : List String) (loadBalance : Bool)
    (compressionLevel : UInt32) (tls : Bool) (addressable : hosts.length < 2 ^ 63) :
    Except ProtocolError Client :=
  if configured : hosts = [] then .error .noHostsConfigured
  else
    match Client.reconnect attempt
      ⟨hosts, loadBalance, compressionLevel, 0, ⟨0⟩, none, tls, configured, addressable⟩ with
    | (.error error, _) => .error error
    | (.ok (), client) => .ok client

end FerroProtocols.Lumberjack
