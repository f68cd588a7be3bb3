import FerroProtocols.Lumberjack.Acks

/-! Where successive windows go when all of them are acknowledged. -/

namespace FerroProtocols.Lumberjack

namespace Client

/-- An attempt that is acked in full ends with a connection to its target. -/
theorem sendPayloadOnce_acked {client : Client} {attempt : Attempt} {ack : AckBytes} {base count : UInt32}
    (answered : Answered client attempt ack) (acked : ack.bytes = encodeAck (base + count)) (payload : Bytes) :
    ∃ after, client.sendPayloadOnce attempt payload base count = (.ok count, after) ∧ after.target = client.target ∧
      SameHosts after client := by
  have full : (client.sendPayloadOnce attempt payload base count).1 = .ok count := by
    rw [sendPayloadOnce_answered answered]
    exact (classifyAck_encodeAck acked base count).mpr rfl
  obtain ⟨conn, left, toTarget, keeps⟩ := sendPayloadOnce_eq attempt client payload base count
  refine ⟨_, Prod.ext full left, ?_, ⟨rfl, rfl⟩⟩
  obtain ⟨kept, some⟩ := Option.isSome_iff_exists.mp (keeps count full)
  subst some
  exact toTarget kept rfl

private theorem sendAttempts_acked {client : Client} {network : Nat → Attempt} {number : Nat} {ack : AckBytes}
    {base count : UInt32}
    (answered : Answered client (network number) ack) (acked : ack.bytes = encodeAck (base + count))
    (payload : Bytes)
    (left : Nat) (last : Option ProtocolError) :
    ∃ after, sendAttempts network payload base count (left + 1) number last client =
      ⟨.ok count, after, [client.target]⟩ ∧
      after.target = client.target ∧ SameHosts after client := by
  obtain ⟨after, once, kept⟩ := sendPayloadOnce_acked answered acked payload
  refine ⟨after, ?_, kept⟩
  simp only [sendAttempts, once]

private theorem target_reserve (client : Client) (seq : Sequence) :
    ({ client with seq := seq } : Client).target = client.target := by
  unfold target
  cases client.connection with
  | some conn => rfl
  | none =>
    simp only [pickHost_eq]
    rfl

end Client

namespace Call

variable {zlib : Zlib}

/-- The host that a call delivered its window to: the one whose answer ended the call. -/
def delivered (call : Call zlib) : Option String :=
  match call.sent.result with
  | .ok _ => call.sent.tried.getLast?
  | .error _ => none

/-- A call that sends something, to hosts that accept connections and acknowledge the whole window. -/
structure Acknowledged (call : Call zlib) : Prop where
  nonempty : call.events ≠ []
  answered : ∀ (client : Client) (number : Nat),
    ∃ ack, client.Answered (call.network number) ack ∧ ack.bytes = encodeAck (call.base + call.count)

private theorem Acknowledged.delivered_eq {call : Call zlib} (acknowledged : call.Acknowledged) :
    call.delivered = some call.client.target ∧ call.sent.client.target = call.client.target ∧
      Client.SameHosts call.sent.client call.client := by
  have returned := call.returned
  unfold Client.sendJson at returned
  rw [if_neg (by simpa using acknowledged.nonempty)] at returned
  split at returned
  · cases returned
  -- There is a host, so there is an attempt.
  obtain ⟨others, hosts⟩ := Nat.exists_eq_succ_of_ne_zero (mt List.length_eq_zero_iff.mp call.client.configured)
  rw [hosts] at returned
  have reserved := call.client.target_reserve (call.client.seq.advance call.count)
  obtain ⟨ack, answered, acked⟩ :=
    acknowledged.answered { call.client with seq := call.client.seq.advance call.count } 0
  obtain ⟨after, ended, target, same⟩ := Client.sendAttempts_acked answered acked
    (buildWindowPayload zlib call.client.compressionLevel call.events call.client.seq) others none
  have whole : call.sent = ⟨.ok call.count, after, [Client.target { call.client with
      seq := call.client.seq.advance call.count }]⟩ := Option.some.inj (returned.symm.trans (congrArg some ended))
  rw [reserved] at whole target
  rw [delivered, whole]
  exact ⟨rfl, target, same⟩

private theorem delivered_all {calls : List (Call zlib)} (successive : Successive calls)
    (acknowledged : ∀ call ∈ calls, call.Acknowledged) {host : String}
    (first : ∀ call ∈ calls.head?, call.client.target = host) :
    calls.filterMap delivered = List.replicate calls.length host := by
  induction calls with
  | nil => rfl
  | cons call later ih =>
    obtain ⟨toTarget, target, _⟩ := (acknowledged call List.mem_cons_self).delivered_eq
    have here : call.client.target = host := first call rfl
    rw [Successive, List.isChain_cons] at successive
    have rest := ih successive.2 (fun other member => acknowledged other (List.mem_cons_of_mem call member)) (by
      intro next head
      rw [successive.1 next head, target, here])
    rw [here] at toTarget
    rw [List.filterMap_cons_some toTarget, rest, List.length_cons, List.replicate_succ]

end Call

/-- As many successive windows as there are hosts, all acknowledged, are one for each host exactly if there is
one host. -/
theorem rotation_iff {zlib : Zlib} {client : Client} (reachable : client.Reachable)
    {calls : List (Call zlib)} (successive : Call.Successive calls)
    (first : ∀ call ∈ calls.head?, call.client = client)
    (acknowledged : ∀ call ∈ calls, call.Acknowledged) (many : calls.length = client.hosts.length) :
    (∀ host ∈ client.hosts, (calls.filterMap Call.delivered).count host = 1) ↔ client.hosts.length = 1 := by
  have delivered :=
    @Call.delivered_all _ _ successive acknowledged client.target fun call head => by rw [first call head]
  rw [delivered, many]
  have positive : 0 < client.hosts.length := List.length_pos_of_ne_nil client.configured
  -- The connection goes to one of the hosts.
  have known : client.target ∈ client.hosts := by
    rw [Client.target_eq reachable.kept, Client.hostAt, List.getD_eq_getElem _ _ (Nat.mod_lt _ positive)]
    exact List.getElem_mem _
  constructor
  · intro each
    have all := each client.target known
    rw [List.count_replicate_self] at all
    exact all
  · intro one host member
    obtain ⟨only, hosts⟩ := List.length_eq_one_iff.mp one
    rw [hosts] at known member
    rw [List.mem_singleton.mp member, List.mem_singleton.mp known, one]
    exact List.count_replicate_self

/-- A call that sends one event to hosts that acknowledge it. -/
def acknowledgedCall (client : Client) : Call noZlib :=
  ⟨client, fun _ => answering (client.seq.value + 1), [[0x7B]], _,
    (Option.some_get (show (client.sendJson noZlib (fun _ => answering (client.seq.value + 1))
      [[0x7B]]).isSome = true by
      simp [Client.sendJson, u32Max])).symm⟩

private theorem acknowledged_acknowledgedCall (client : Client) : (acknowledgedCall client).Acknowledged :=
  ⟨by simp [acknowledgedCall], fun any _ => ⟨_, answered_answering any _, rfl⟩⟩

/-- A balanced client of one host as connecting leaves it. -/
def Client.ofOne : Client := ⟨["a"], true, 0, 1, ⟨0⟩, some ⟨"a", []⟩, false, by decide, by decide⟩

/-- The one window of the only host goes to it. -/
theorem rotation_iff_one : ([acknowledgedCall .ofOne].filterMap Call.delivered).count "a" = 1 := by
  have opened : ClientBuilder.connect Client.resetting ["a"] true 0 false (by decide) = .ok .ofOne := rfl
  refine (rotation_iff (.connected opened) (.singleton _) ?_ ?_ rfl).mpr rfl "a" (.head _)
  · intro call first
    rw [← Option.some.inj first]
    rfl
  · intro call member
    rw [List.mem_singleton.mp member]
    exact acknowledged_acknowledgedCall _

/-- Two calls on a balanced client of two hosts, each acknowledged. -/
def balancedCalls : List (Call noZlib) :=
  [acknowledgedCall (.ofTwo true), acknowledgedCall (acknowledgedCall (.ofTwo true)).sent.client]

/-- The windows of both go to the first host. -/
theorem windows_not_rotated :
    (Client.ofTwo true).Reachable ∧ Call.Successive balancedCalls ∧ (∀ call ∈ balancedCalls, call.Acknowledged) ∧
      balancedCalls.filterMap Call.delivered = ["a", "a"] := by
  refine ⟨Client.reachable_ofTwo true, ?_, ?_, rfl⟩
  · simp [Call.Successive, balancedCalls, acknowledgedCall]
  · intro call member
    simp only [balancedCalls, List.mem_cons, List.not_mem_nil, or_false] at member
    rcases member with rfl | rfl
    · exact acknowledged_acknowledgedCall _
    · exact acknowledged_acknowledgedCall _

end FerroProtocols.Lumberjack
