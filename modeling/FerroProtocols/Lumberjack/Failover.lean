import FerroProtocols.Lib.ResidueWalk
import FerroProtocols.Lumberjack.Client
import Mathlib.Data.List.GetD

/-! Which hosts a failing send has tried. -/

namespace FerroProtocols.Lumberjack.Client

/-- The cursor of the host the next attempt goes to. -/
def position (client : Client) : UInt64 :=
  -- Picking the host of a kept connection has moved a balanced cursor past it.
  if client.loadBalance && client.connection.isSome then client.hostCursor - 1
  else client.hostCursor

/-- How far a failed attempt moves the cursor. -/
def stride (client : Client) : Nat := if client.loadBalance then 2 else 1

/-- The host a cursor selects. -/
def hostAt (client : Client) (cursor : Nat) : String :=
  client.hosts.getD (cursor % client.hosts.length) ""

/-- A kept connection goes to the host the cursor selected for it. -/
def Kept (client : Client) : Prop :=
  ∀ conn ∈ client.connection, conn.host = client.hostAt client.position.toNat

/-- Two clients are configured with the same hosts and the same way of picking them. -/
def SameHosts (left right : Client) : Prop :=
  left.hosts = right.hosts ∧ left.loadBalance = right.loadBalance

variable {client : Client}

/-- An attempt goes to the host at the client's position. -/
theorem target_eq (kept : client.Kept) : client.target = client.hostAt client.position.toNat := by
  unfold target
  cases connected : client.connection with
  | some conn => exact kept conn connected
  | none =>
    -- Without a connection the cursor itself selects the host.
    simp only [pickHost, position, connected, Option.isSome_none, Bool.and_false, Bool.false_eq_true, if_false]
    split <;> rfl

/-- The cursor after a host has been picked. -/
def pickedCursor (client : Client) : UInt64 :=
  if client.loadBalance then client.hostCursor + 1 else client.hostCursor

/-- Picking selects the host at the cursor and may move the cursor. -/
theorem pickHost_eq (client : Client) : client.pickHost = (client.hostAt client.hostCursor.toNat,
        { client with hostCursor := client.pickedCursor }) := by
  unfold pickHost pickedCursor hostAt
  split <;> rfl

/-- Connecting leaves the connection alone when it fails, and opens one to the picked host otherwise. -/
theorem reconnect_eq (attempt : Attempt) (client : Client) : (∃ error, client.reconnect attempt =
      (.error error, { client with hostCursor := client.pickedCursor })) ∨ client.reconnect attempt =
      (.ok (), { client with
        hostCursor := client.pickedCursor,
        connection := some ⟨client.hostAt client.hostCursor.toNat, []⟩ }) := by
  simp only [reconnect, pickHost_eq]
  cases attempt.connect.await "connect" with
  | error error => exact .inl ⟨error, rfl⟩
  | ok _ =>
    dsimp only
    split
    · -- With TLS the server name and the handshake can fail as well.
      cases attempt.serverName with
      | error message => exact .inl ⟨_, rfl⟩
      | ok _ =>
        cases attempt.tlsHandshake.await "tls handshake" with
        | error error => exact .inl ⟨error, rfl⟩
        | ok _ => exact .inr rfl
    · exact .inr rfl

private theorem exchange_eq (attempt : Attempt) (client : Client) {conn : Connection}
    (connected : client.connection = some conn) (payload : Bytes) (base count : UInt32) :
    ∃ written, (client.exchange attempt conn payload base count).2 =
      { client with connection := some { conn with written := written } } := by
  -- A client whose write failed is unchanged, and has the connection it had.
  have same : client = { client with
      connection := some { conn with written := conn.written } } := by
    obtain ⟨hosts, loadBalance, level, cursor, seq, kept, tls, configured, addressable⟩ := client
    cases connected
    rfl
  unfold exchange
  cases attempt.write.await "write" with
  | error error => exact ⟨conn.written, same⟩
  | ok _ =>
    refine ⟨conn.written ++ payload, ?_⟩
    cases attempt.flush.await "flush" with
    | error error => rfl
    | ok _ =>
      cases attempt.ack.await "ack" with
      | error | ok => rfl

/-- The cursor after an attempt, before its host is given up. -/
def attemptedCursor (client : Client) : UInt64 :=
  if client.connection.isSome then client.hostCursor else client.pickedCursor

/-- What one attempt leaves: any connection goes to its target, and a success keeps one. -/
theorem sendPayloadOnce_eq (attempt : Attempt) (client : Client) (payload : Bytes) (base count : UInt32) :
    ∃ conn, (client.sendPayloadOnce attempt payload base count).2 =
        { client with connection := conn, hostCursor := client.attemptedCursor } ∧
      (∀ kept ∈ conn, kept.host = client.target) ∧
      ∀ acked, (client.sendPayloadOnce attempt payload base count).1 = .ok acked → conn.isSome := by
  cases connected : client.connection with
  | some conn =>
    -- A kept connection is used as it is, and no host is picked.
    obtain ⟨written, left⟩ := exchange_eq attempt client connected payload base count
    refine ⟨some { conn with written := written }, ?_, ?_, fun _ _ => rfl⟩
    · simp [sendPayloadOnce, connected, left, attemptedCursor]
    · intro kept same
      cases same
      simp only [target, connected]
  | none =>
    have picked : client.target = client.hostAt client.hostCursor.toNat := by
      simp only [target, connected, pickHost_eq]
    have moved : client.attemptedCursor = client.pickedCursor := by simp [attemptedCursor, connected]
    rcases reconnect_eq attempt client with ⟨error, failed⟩ | opened
    · refine ⟨none, ?_, by simp, ?_⟩
      · simp only [sendPayloadOnce, connected, failed, moved]
      · intro acked success
        simp only [sendPayloadOnce, connected, failed, reduceCtorEq] at success
    · -- The connection that was just opened carries the window.
      obtain ⟨written, left⟩ := exchange_eq attempt
        { client with
          hostCursor := client.pickedCursor,
          connection := some ⟨client.hostAt client.hostCursor.toNat, []⟩ }
        rfl payload base count
      refine ⟨some ⟨client.hostAt client.hostCursor.toNat, written⟩, ?_, ?_, fun _ _ => rfl⟩
      · simp only [sendPayloadOnce, connected, opened, left, moved]
      · intro kept same
        cases same
        exact picked.symm

private theorem attemptedCursor_succ (client : Client) :
    client.attemptedCursor + 1 = client.position + UInt64.ofNat client.stride := by
  cases balanced : client.loadBalance <;> cases connected : client.connection <;>
    simp only [attemptedCursor, pickedCursor, position, stride, balanced, connected,
      Option.isSome_none, Option.isSome_some, Bool.and_true, Bool.and_false, Bool.false_eq_true, if_true,
        if_false] <;>
    grind

private theorem position_attempted (client : Client) {conn : Option Connection} (connected : conn.isSome) :
    ({ client with connection := conn, hostCursor := client.attemptedCursor } :
      Client).position = client.position := by
  cases balanced : client.loadBalance <;> cases kept : client.connection <;>
    simp only [attemptedCursor, pickedCursor, position, balanced, kept, connected,
      Option.isSome_none, Option.isSome_some, Bool.and_true, Bool.and_false, Bool.false_eq_true, if_true, if_false]
  -- Only a balanced client without a connection has moved its cursor, by one.
  grind

private theorem kept_attempted (kept : client.Kept) {conn : Option Connection}
    (connected : conn.isSome) (toTarget : ∀ kept ∈ conn, kept.host = client.target) :
    ({ client with connection := conn, hostCursor := client.attemptedCursor } : Client).Kept := by
  intro held member
  rw [position_attempted client connected, toTarget held member, target_eq kept]
  rfl

/-- The hosts that a number of failing attempts go to, in order. -/
def route (client : Client) (attempts : Nat) : List String :=
  (List.range attempts).map fun step =>
    client.hosts.getD
      (ResidueWalk.place client.hosts.length (2 ^ 64) client.position.toNat client.stride step) ""

private theorem route_succ {next : Client} (same : SameHosts next client)
    (moved : next.position = client.position + UInt64.ofNat client.stride) (attempts : Nat) :
    client.route (attempts + 1) = client.hostAt client.position.toNat :: next.route attempts := by
  have stride : next.stride = client.stride := by simp only [stride, same.2]
  have small : client.stride < 2 ^ 64 := by unfold Client.stride; split <;> decide
  unfold route
  rw [List.range_succ_eq_map, List.map_cons, List.map_map, same.1, stride, moved]
  congr 1
  · have within := client.position.toNat_lt
    simp [ResidueWalk.place, hostAt]
  · apply List.map_congr_left
    intro step _
    -- One more step from here is one step fewer from there, up to the wrap of the cursor.
    simp only [Function.comp_apply, ResidueWalk.place, UInt64.toNat_add,
      UInt64.toNat_ofNat_of_lt' small, Nat.mod_add_mod]
    congr 3
    rw [Nat.succ_eq_add_one, Nat.mul_add_one]
    omega

/-- What a row of attempts leaves, and where its attempts went when none succeeds. -/
structure Tried (client : Client) (attempts : Nat) (sent : Sent) : Prop where
  same : SameHosts sent.client client
  kept : sent.client.Kept
  -- The only error of a call is that all attempts failed, and then it made them all.
  route : ∀ error, sent.result = .error error →
    (∃ last, error = .allHostsFailed last) ∧ sent.tried = client.route attempts

private theorem giveUp_attempted (client : Client) (conn : Option Connection) :
    let next := giveUp
      { client with connection := conn, hostCursor := client.attemptedCursor }
    SameHosts next client ∧ next.Kept ∧ next.position = client.position + UInt64.ofNat client.stride := by
  refine ⟨⟨rfl, rfl⟩, ?_, ?_⟩
  · intro kept none
    cases none
  · rw [← attemptedCursor_succ]
    simp [giveUp, position]

private theorem sendAttempts_tried (network : Nat → Attempt) (payload : Bytes) (base count : UInt32)
    (attempts : Nat) : ∀ (number : Nat) (last : Option ProtocolError) (client : Client), client.Kept →
        Tried client attempts (sendAttempts network payload base count attempts number last client) := by
  induction attempts with
  | zero =>
    intro number last client kept
    refine ⟨⟨rfl, rfl⟩, kept, ?_⟩
    intro error failed
    cases failed
    exact ⟨⟨_, rfl⟩, rfl⟩
  | succ attempts ih =>
    intro number last client kept
    obtain ⟨conn, left, toTarget, keeps⟩ := sendPayloadOnce_eq (network number) client payload base count
    unfold sendAttempts
    cases once : client.sendPayloadOnce (network number) payload base count with
    | mk result after =>
      rw [once] at left keeps
      dsimp only at left keeps
      subst left
      cases result with
      | ok acked =>
        -- The call ends here, and keeps the connection that carried the window.
        exact ⟨⟨rfl, rfl⟩, kept_attempted kept (keeps acked rfl) toTarget, nofun⟩
      | error error =>
        obtain ⟨same, clear, moved⟩ := giveUp_attempted client conn
        have later := ih (number + 1) (some error) _ clear
        refine ⟨⟨later.same.1, later.same.2⟩, later.kept, ?_⟩
        intro final failed
        obtain ⟨all, rest⟩ := later.route final failed
        refine ⟨all, ?_⟩
        rw [route_succ same moved, ← rest, ← target_eq kept]

/-- The clients that connecting and sending batches produce. -/
inductive Reachable : Client → Prop where
  | connected {attempt : Attempt} {hosts : List String} {loadBalance : Bool} {level : UInt32}
      {tls : Bool} {addressable : hosts.length < 2 ^ 63} {client : Client}
      (opened : ClientBuilder.connect attempt hosts loadBalance level tls addressable = .ok client) :
      Reachable client
  | sent {zlib : Zlib} {network : Nat → Attempt} {client : Client} {events : List Bytes}
      {sent : Sent} (reachable : Reachable client)
      (returned : client.sendJson zlib network events = some sent) : Reachable sent.client

private theorem connect_kept {attempt : Attempt} {hosts : List String} {loadBalance : Bool}
    {level : UInt32} {tls : Bool} {addressable : hosts.length < 2 ^ 63}
    (opened : ClientBuilder.connect attempt hosts loadBalance level tls addressable = .ok client) : client.Kept := by
  unfold ClientBuilder.connect at opened
  split at opened
  · cases opened
  · rename_i configured
    let fresh : Client :=
      ⟨hosts, loadBalance, level, 0, ⟨0⟩, none, tls, configured, addressable⟩
    have unconnected : fresh.Kept := nofun
    -- A builder makes one attempt, at the host under the cursor.
    rcases reconnect_eq attempt fresh with ⟨error, failed⟩ | success
    · rw [failed] at opened
      cases opened
    · rw [success] at opened
      cases opened
      have first : fresh.target = fresh.hostAt fresh.hostCursor.toNat := congrArg Prod.fst (pickHost_eq fresh)
      apply kept_attempted unconnected rfl
      intro conn member
      cases member
      exact first.symm

private theorem sendJson_tried {zlib : Zlib} {network : Nat → Attempt}
    {events : List Bytes} {sent : Sent} (kept : client.Kept)
    (returned : client.sendJson zlib network events = some sent) : Tried client client.hosts.length sent := by
  unfold sendJson at returned
  split at returned
  · -- An empty batch is answered without an attempt.
    cases returned
    exact ⟨⟨rfl, rfl⟩, kept, nofun⟩
  · split at returned
    · cases returned
    · cases returned
      -- Reserving sequence numbers changes neither the hosts nor the position.
      obtain ⟨same, later, route⟩ := sendAttempts_tried network
        (buildWindowPayload zlib client.compressionLevel events client.seq) client.seq.value
        (UInt32.ofNat events.length) client.hosts.length 0 none
        { client with seq := client.seq.advance (UInt32.ofNat events.length) } kept
      exact ⟨same, later, route⟩

/-- The connection of every reachable client goes to the host at its position. -/
theorem Reachable.kept (reachable : Reachable client) : client.Kept := by
  induction reachable with
  | connected opened => exact connect_kept opened
  | sent _ returned ih => exact (sendJson_tried ih returned).kept

private theorem route_covers_iff (distinct : client.hosts.Nodup) :
    (∀ host ∈ client.hosts, host ∈ client.route client.hosts.length) ↔
      ResidueWalk.VisitsAll client.hosts.length (2 ^ 64) client.position.toNat client.stride := by
  have positive : 0 < client.hosts.length := List.length_pos_of_ne_nil client.configured
  have inside (step : Nat) : ResidueWalk.place client.hosts.length (2 ^ 64)
      client.position.toNat client.stride step < client.hosts.length := Nat.mod_lt _ positive
  constructor
  · intro covers index bound
    obtain ⟨step, within, same⟩ := List.mem_map.mp (covers client.hosts[index] (by simp))
    refine ⟨step, List.mem_range.mp within, ?_⟩
    -- Distinct hosts have one index each.
    rw [List.getD_eq_getElem _ _ (inside step)] at same
    exact (List.Nodup.getElem_inj_iff distinct).mp same
  · intro visits host member
    obtain ⟨index, bound, rfl⟩ := List.getElem_of_mem member
    obtain ⟨step, within, place⟩ := visits index bound
    refine List.mem_map.mpr ⟨step, List.mem_range.mpr within, ?_⟩
    rw [place, List.getD_eq_getElem _ _ bound]

private theorem stride_coprime_iff (client : Client) (places : Nat) :
    Nat.Coprime client.stride places ↔ (client.loadBalance = true → Odd places) := by
  unfold stride
  cases client.loadBalance <;> simp [Nat.coprime_two_left]

/-- A call that reports that all hosts failed has tried each of them exactly on these conditions. -/
theorem failover_covers_iff {client : Client} (reachable : Reachable client)
    (distinct : client.hosts.Nodup) {zlib : Zlib} {network : Nat → Attempt} {events : List Bytes}
    {sent : Sent} (returned : client.sendJson zlib network events = some sent)
    {last : ProtocolError} (failed : sent.result = .error (.allHostsFailed last)) :
    (∀ host ∈ client.hosts, host ∈ sent.tried) ↔ (client.loadBalance = true → Odd client.hosts.length) ∧
        (client.position.toNat + client.stride * (client.hosts.length - 1) < 2 ^ 64 ∨
          client.hosts.length ∣ 2 ^ 64) := by
  have : NeZero client.hosts.length :=
    ⟨fun none => client.configured (List.eq_nil_of_length_eq_zero none)⟩
  obtain ⟨_, tried⟩ := (sendJson_tried reachable.kept returned).route _ failed
  have small : client.stride = 1 ∨ client.stride = 2 := by
    unfold stride
    split
    · exact .inr rfl
    · exact .inl rfl
  -- One lap moves the cursor by less than its range, as a list of hosts is small enough.
  have lap : client.stride * (client.hosts.length - 1) < 2 ^ 64 := by
    have addressable := client.addressable
    rcases small with one | two <;> simp only [*] <;> omega
  have common : Nat.gcd client.stride client.hosts.length ∣ 2 ^ 64 := by
    apply Nat.dvd_trans (Nat.gcd_dvd_left _ _)
    rcases small with one | two <;> simp only [*] <;> decide
  rw [tried, route_covers_iff distinct, ← stride_coprime_iff]
  exact ResidueWalk.visitsAll_iff client.position.toNat_lt lap common

/-- A network that accepts every connection and resets it on the first write. -/
def resetting : Attempt :=
  ⟨.done (), .ok (), .done (), .failed ⟨.other, "reset"⟩, .done (), .timedOut⟩

/-- A client of two hosts as connecting leaves it. -/
def ofTwo (loadBalance : Bool) : Client :=
  ⟨["a", "b"], loadBalance, 0, if loadBalance then 1 else 0, ⟨0⟩, some ⟨"a", []⟩, false,
    by decide, by decide⟩

/-- Connecting to two hosts gives that client. -/
theorem reachable_ofTwo (loadBalance : Bool) : Reachable (ofTwo loadBalance) := by
  have opened : ClientBuilder.connect resetting ["a", "b"] loadBalance 0 false (by decide) =
      .ok (ofTwo loadBalance) := by
    cases loadBalance <;> rfl
  exact .connected opened

private theorem sendJson_ofTwo (loadBalance : Bool) :
    ∃ sent, (ofTwo loadBalance).sendJson noZlib (fun _ => resetting) [[0x7B]] = some sent ∧
      sent.result = .error (.allHostsFailed (.io ⟨.other, "reset"⟩)) ∧
        sent.tried = ["a", if loadBalance then "a" else "b"] := by
  cases loadBalance <;> exact ⟨_, rfl, rfl, rfl⟩

/-- Without load balancing both of two hosts are tried. -/
theorem failover_covers_two_sticky : let sent := (ofTwo false).sendJson noZlib (fun _ => resetting) [[0x7B]]
    "a" ∈ (sent.map Sent.tried).getD [] ∧ "b" ∈ (sent.map Sent.tried).getD [] := by
  obtain ⟨sent, returned, failed, _⟩ := sendJson_ofTwo false
  have covers :=
    (failover_covers_iff (reachable_ofTwo false) (by decide) returned failed).mpr ⟨by decide, .inl (by decide)⟩
  rw [returned]
  exact ⟨covers "a" (by decide), covers "b" (by decide)⟩

/-- With load balancing the second of two hosts is never tried. -/
theorem failover_misses_second_host :
    ¬ ∀ (client : Client) (network : Nat → Attempt) (events : List Bytes) (sent : Sent) (last : ProtocolError),
      Reachable client → client.hosts.Nodup → client.sendJson noZlib network events = some sent →
        sent.result = .error (.allHostsFailed last) → ∀ host ∈ client.hosts, host ∈ sent.tried := by
  intro covers
  -- Both attempts go to the first host.
  obtain ⟨sent, returned, failed, tried⟩ := sendJson_ofTwo true
  have second := covers (ofTwo true) _ _ sent _ (reachable_ofTwo true) (by decide) returned failed "b" (by decide)
  rw [tried] at second
  exact absurd second (by decide)

end FerroProtocols.Lumberjack.Client
